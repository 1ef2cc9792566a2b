import RamlSchema.Json.Token

/-!
# Read documents

The grammar of JSON as a machine that takes one token at a time. It keeps the arrays and objects
that are still open, and a key that is written again keeps its place and takes the new value.
-/

namespace RamlSchema.Json

/-- An array or object that is still open, with what it holds so far. -/
inductive Frame where
  | items (done : List Json)
  | member (done : Entries String Json) (key : String)

/-- What may come next, within the frames that are open. -/
inductive Stage where
  | value (outer : List Frame)
  | itemOrClose (outer : List Frame)
  | keyOrClose (outer : List Frame)
  | key (done : Entries String Json) (outer : List Frame)
  | colon (done : Entries String Json) (key : String) (outer : List Frame)
  | afterItem (done : List Json) (outer : List Frame)
  | afterMember (done : Entries String Json) (outer : List Frame)
  | finished (document : Json)

/-- A whole value goes into the innermost open frame. -/
def complete (value : Json) : List Frame → Stage
  | [] => .finished value
  | .items done :: outer => .afterItem (done ++ [value]) outer
  | .member done key :: outer => .afterMember (done.put key value) outer

/-- The beginning of a value. -/
def enter (outer : List Frame) : Token → Option Stage
  | .openArray => some (.itemOrClose outer)
  | .openObject => some (.keyOrClose outer)
  | .scalar value => some (complete value outer)
  | _ => none

def step : Stage → Token → Option Stage
  | .value outer, token => enter outer token
  | .itemOrClose outer, .closeArray => some (complete (.arr []) outer)
  | .itemOrClose outer, token => enter (.items [] :: outer) token
  | .keyOrClose outer, .closeObject => some (complete (.obj []) outer)
  | .keyOrClose outer, .scalar (.str key) => some (.colon [] key outer)
  | .key done outer, .scalar (.str key) => some (.colon done key outer)
  | .colon done key outer, .colon => some (.value (.member done key :: outer))
  | .afterItem done outer, .comma => some (.value (.items done :: outer))
  | .afterItem done outer, .closeArray => some (complete (.arr done) outer)
  | .afterMember done outer, .comma => some (.key done outer)
  | .afterMember done outer, .closeObject => some (complete (.obj done) outer)
  | _, _ => none

def run (stage : Stage) (tokens : List Token) : Option Stage := tokens.foldlM step stage

def ofTokens? (tokens : List Token) : Option Json :=
  match run (.value []) tokens with
  | some (.finished document) => some document
  | _ => none

def read? (text : String) : Option Json := (tokens? text.toList).bind ofTokens?

end RamlSchema.Json
