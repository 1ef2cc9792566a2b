import RamlSchema.Json.Basic
import RamlSchema.Report.Run

/-!
# Registered schemas

The schemas of a run by the names of their types. Enums and objects have names of their own, a name
keeps the place of its first type, and the last type of a name is the one that counts.
-/

namespace RamlSchema.Conversion

open Report (Collision Kind)

structure Registry where
  enums : Entries String Json := []
  objects : Entries String Json := []
  origins : Entries (Kind × String) String := []
  collisions : List Collision := []

namespace Registry

def collision? (registry : Registry) (kind : Kind) (name file : String) : Option Collision :=
  (registry.origins.get? (kind, name)).map fun previousFile => { name, kind, previousFile, file }

def register (registry : Registry) (kind : Kind) (name : String) (schema : Json)
    (file : String) : Registry where
  enums := if kind = .enum then registry.enums.put name schema else registry.enums
  objects := if kind = .object then registry.objects.put name schema else registry.objects
  origins := registry.origins.put (kind, name) file
  collisions := registry.collisions ++ (registry.collision? kind name file).toList

end Registry

end RamlSchema.Conversion
