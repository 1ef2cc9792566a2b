import RamlSchema.Text.Basic

/-!
# Help

What the program and its commands say about themselves when they are asked for help.
-/

namespace RamlSchema.Command.Help

def program : List String :=
  ["Usage: raml_to_json_schema [OPTIONS] COMMAND [ARGS]...", "",
    "  Convert RAML type libraries to JSON Schema and resolve schema references.", "",
    "Options:",
    "  --log-level [debug|info|warning|error]",
    "                                  Logging level",
    "  -v, --verbose                   Shortcut for --log-level INFO",
    "  --help                          Show this message and exit.", "",
    "Commands:",
    "  convert     Convert every RAML file of INPUT_DIR into schemas under...",
    "  references  Resolve $ref pointers between the JSON schemas of SCHEMA_DIR."]

def convert : List String :=
  ["Usage: raml_to_json_schema convert [OPTIONS] INPUT_DIR OUTPUT_DIR", "",
    "  Convert every RAML file of INPUT_DIR into schemas under OUTPUT_DIR.", "",
    "Options:",
    "  -n, --naming-convention [kebab-case|camelCase|PascalCase|snake_case]",
    "  -c, --config FILE",
    "  -w, --workers INTEGER RANGE     Parallel file workers  [x>=1]",
    "  --json                          Print the run result as JSON",
    "  --help                          Show this message and exit."]

def references : List String :=
  ["Usage: raml_to_json_schema references [OPTIONS] SCHEMA_DIR", "",
    "  Resolve $ref pointers between the JSON schemas of SCHEMA_DIR.", "",
    "Options:",
    "  -c, --config FILE",
    "  -b, --batch-size INTEGER RANGE  Schemas per batch  [x>=1]",
    "  -w, --workers INTEGER RANGE     Parallel batch workers  [x>=1]",
    "  --json                          Print the reference graph as JSON",
    "  --help                          Show this message and exit."]

end RamlSchema.Command.Help
