import RamlSchema.Raml.TypeToken
import RamlSchema.Schema.Document

/-!
# Scaffold documents

The documents that tie a converted project together: the metadata of a message, the message around
one or many objects, and the aggregator that refers to every business object.
-/

namespace RamlSchema.Schema

def objectDirectory : String := "business-objects"

def aggregatorFile : String := "datamodelObjects.schema.json"

def messageFile : String := "message.schema.json"

def metadataFile : String := "metadata.schema.json"

def typed (type : String) (rest : List (String × Json)) : Json := .obj (("type", .str type) :: rest)

def closedObject (dialect : Json) (title : String) (properties : List (String × Json))
    (required : List String) : Json :=
  .obj [("$schema", dialect), ("title", .str title), ("type", .str "object"),
    ("properties", .obj properties), ("required", .texts required),
    ("additionalProperties", .bool false)]

def metadataDocument (dialect : Json) : Json :=
  closedObject dialect "Metadata"
    [("berichtId", typed "string" [("description", .str "Uniek bericht ID")]),
      ("tijdstip", typed "string" [("format", .str "date-time")]),
      ("bronsysteem", typed "string" []),
      ("correlatieId", typed "string" [])]
    ["berichtId", "tijdstip", "bronsysteem"]

def messageDocument (dialect : Json) : Json :=
  let aggregator := referenceJson ("./" ++ aggregatorFile)
  closedObject dialect "Berichten"
    [("metadata", referenceJson ("./" ++ metadataFile)),
      ("payload", .obj [("oneOf", .arr [aggregator, typed "array" [("items", aggregator)]])])]
    ["metadata", "payload"]

/-- Every business object under its name in capitalised words. Names that become the same share
one entry, at the place of the first and with the file of the last. -/
def aggregatorDocument (dialect : Json) (rename : String → String) (names : List String) : Json :=
  closedObject dialect "Datamodel Objecten"
    (Entries.ofList (names.map fun name =>
      (Convention.pascal.apply name,
        referenceJson ("./" ++ objectDirectory ++ "/" ++
          (Raml.Target.object name).fileNameBy rename))))
    []

end RamlSchema.Schema
