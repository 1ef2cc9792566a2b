import RamlSchema.Proofs.Text.Base64
import RamlSchema.Proofs.Text.Utf8
import RamlSchema.References.Resolver

/-!
# What an identifier tells of a path

The identifier of a path keeps the letters and digits of its bytes in base 64. The other two signs
of that writing are dropped, so paths that differ only in what stands behind these signs have one
identifier, and of two such files each is taken for the other. Only between paths without such a
sign is nothing lost (`schemaId_eq_iff`).
-/

namespace RamlSchema.References

open Text

/-- Every sextet of the path is written as a letter or a digit. -/
def IsWhole (path : String) : Prop := ∀ n ∈ Base64.sextets (Utf8.encode path), n < 62

/-- An ASCII character that is written as letters and digits wherever it stands. -/
def isPlain (c : Char) : Bool := c.toNat < 0x80 && !(['>', '?', '~', '\x7f'].contains c)

theorem schemaId_eq_iff_keptSextets (p q : String) :
    schemaId p = schemaId q ↔
      Base64.keptSextets (Utf8.encode p) = Base64.keptSextets (Utf8.encode q) := by
  rw [schemaId, schemaId, String.ofList_inj, Base64.filter_encode_eq_iff]

theorem IsWhole.schemaId_inj {p q : String} (hp : IsWhole p) (hq : IsWhole q) :
    schemaId p = schemaId q ↔ p = q := by
  refine ⟨fun h => ?_, congrArg schemaId⟩
  rw [schemaId_eq_iff_keptSextets] at h
  exact Utf8.encode_injective (Base64.keptSextets_injOn hp hq h)

theorem lt_of_isPlain {c : Char} (hc : isPlain c = true) : c.toNat < 0x80 ∧ c.toNat % 64 < 62 := by
  simp only [isPlain, Bool.and_eq_true, decide_eq_true_eq, Bool.not_eq_true', List.contains_eq_mem,
    decide_eq_false_iff_not, List.mem_cons, List.not_mem_nil, or_false, not_or, ← Char.toNat_inj]
    at hc
  obtain ⟨hlt, hgreater, hquestion, htilde, hdelete⟩ := hc
  have hmarks : '>'.toNat = 62 ∧ '?'.toNat = 63 ∧ '~'.toNat = 126 ∧ '\x7f'.toNat = 127 := by decide
  omega

theorem isWhole_of_isPlain {path : String} (hpath : ∀ c ∈ path.toList, isPlain c = true) :
    IsWhole path := by
  refine Base64.sextets_lt_of_small fun b hb => ?_
  obtain ⟨c, hc, hbyte⟩ := List.mem_flatMap.mp hb
  obtain ⟨hlt, hplain⟩ := lt_of_isPlain (hpath c hc)
  rw [Utf8.encodeChar_of_lt hlt, List.mem_singleton] at hbyte
  rw [hbyte, UInt8.toNat_ofNat', Nat.mod_eq_of_lt (by omega)]
  exact ⟨hlt, hplain⟩

/-- A mark at the end of a group of three bytes leaves no trace in the identifier. -/
theorem keptSextets_mark {path mark : String} {byte : UInt8}
    (hpath : Utf8.size path % 3 = 2) (hmark : Utf8.encode mark = [byte])
    (hbyte : byte.toNat = 62 ∨ byte.toNat = 63) (rest : String) :
    Base64.keptSextets (Utf8.encode (path ++ mark ++ rest)) =
      Base64.keptSextets (Utf8.encode path) ++ Base64.keptSextets (Utf8.encode rest) := by
  rw [Utf8.encode_append, Utf8.encode_append, hmark, List.append_assoc, List.singleton_append]
  exact Base64.keptSextets_append_cons hpath hbyte _

/-- **What identifiers tell apart.** Two paths have one identifier exactly if their sextets below
sixty-two agree. So paths whose sextets all lie below, such as those of plain characters, have one
identifier only if they are equal. But two paths that differ in a `>` and a `?` behind a number of
bytes that leaves the remainder two when divided by three always have the same. -/
theorem schemaId_eq_iff (p q : String) :
    (schemaId p = schemaId q ↔
      Base64.keptSextets (Utf8.encode p) = Base64.keptSextets (Utf8.encode q)) ∧
    (IsWhole p → IsWhole q → (schemaId p = schemaId q ↔ p = q)) ∧
    ((∀ c ∈ p.toList, isPlain c = true) → IsWhole p) ∧
    (Utf8.size p % 3 = 2 → schemaId (p ++ ">" ++ q) = schemaId (p ++ "?" ++ q)) := by
  refine ⟨schemaId_eq_iff_keptSextets p q, IsWhole.schemaId_inj, isWhole_of_isPlain, ?_⟩
  intro hsize
  have hgreater : Utf8.encode ">" = [0x3E] := by decide
  have hquestion : Utf8.encode "?" = [0x3F] := by decide
  rw [schemaId_eq_iff_keptSextets, keptSextets_mark hsize hgreater (.inl rfl),
    keptSextets_mark hsize hquestion (.inr rfl)]

theorem schemaId_eq_iff_order :
    IsWhole "in/Order" ∧ IsWhole ".schema.json" ∧
    schemaId "in/Order" ≠ schemaId ".schema.json" ∧
    schemaId "in/Order>.schema.json" = schemaId "in/Order?.schema.json" := by
  obtain ⟨-, hwhole, hfirst, hmarked⟩ := schemaId_eq_iff "in/Order" ".schema.json"
  obtain ⟨-, -, hsecond, -⟩ := schemaId_eq_iff ".schema.json" "in/Order"
  have hp : IsWhole "in/Order" := hfirst (List.all_eq_true.mp (by decide))
  have hq : IsWhole ".schema.json" := hsecond (List.all_eq_true.mp (by decide))
  refine ⟨hp, hq, fun hid => ?_, hmarked (by decide)⟩
  have hsame : "in/Order" = ".schema.json" := (hwhole hp hq).mp hid
  exact absurd hsame (by decide)

def markedRoot : Files.Path := ⟨"", ["r"]⟩

/-- Two schemas in files that differ in one mark, the first with a reference to the second. -/
def markedSchemas : List LoadedSchema :=
  [.ofDocument markedRoot [">.json"] (.obj [("$ref", .str "./?.json")]),
    .ofDocument markedRoot ["?.json"] (.obj [])]

/-- Two files with one identifier: the reference from the one to the other counts as a reference of
a schema to itself, and leaves no trace in the graph. -/
theorem schemaId_of_marked_paths :
    schemaId "r/>.json" = schemaId "r/?.json" ∧
    markedSchemas.map (·.relativePath) = [">.json", "?.json"] ∧
    markedSchemas.map (·.id) = [schemaId "r/>.json", schemaId "r/?.json"] ∧
    (({} : Resolver).resolve markedSchemas).1.map (·.referencedBy) = [[], []] ∧
    (({} : Resolver).resolve markedSchemas).2.1.selfReferences = 1 ∧
    ¬ ∀ p q : String, p ≠ q → schemaId p ≠ schemaId q := by
  have hid : schemaId "r/>.json" = schemaId "r/?.json" := by decide +kernel
  refine ⟨hid, by decide +kernel, by decide +kernel, by decide +kernel, by decide +kernel, ?_⟩
  intro hall
  exact hall "r/>.json" "r/?.json" (by decide) hid

end RamlSchema.References
