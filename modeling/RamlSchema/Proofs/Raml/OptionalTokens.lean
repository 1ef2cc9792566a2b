import RamlSchema.Proofs.Raml.TypeFacets

/-!
# The mark of optional types

A question mark behind a type says nothing of the values that fit it. A token is read without the
mark where it is mapped to a JSON type or a reference, and where a format is inferred from it. But
the property keeps the token as it is written, and the documents look that up: for the format that a
type fixes, and for the word `any`. So the mark is neutral exactly if it does not matter what is
found there: the format has been inferred, and the type is not made text by an enum without values.
-/

namespace RamlSchema.Raml

open Schema (propertySchema? plainSchema? scalarSchema finalFormat formatOf fixedFormats)

/-! ### Marked tokens -/

namespace TypeToken

/-- A type that can be marked as optional. -/
structure IsUnmarked (token : String) : Prop where
  ne_empty : token ≠ ""
  trimmed : Text.trim token = token
  notUnion : isUnion token = false
  unmarked : Text.endsWith token "?" = false

variable {convention : Convention} {token : String}

namespace IsUnmarked

variable (h : IsUnmarked token)
include h

theorem clean_eq : clean token = token := clean_eq_self h.trimmed h.unmarked

theorem clean_marked : clean (token ++ "?") = token := by
  have htrim : Text.trim (token ++ "?") = token ++ "?" := by
    rw [Text.trim_eq_self_iff, String.toList_append]
    constructor
    · rw [List.head?_append_of_ne_nil _ (mt String.toList_eq_nil_iff.mp h.ne_empty)]
      exact (Text.trim_eq_self_iff.mp h.trimmed).1
    · rw [List.getLast?_append_of_ne_nil _ (by decide)]
      intro c hc
      obtain rfl : '?' = c := Option.some_inj.mp hc
      decide
  rw [clean, htrim, Text.stripSuffix_append]

theorem isUnion_marked : isUnion (token ++ "?") = false := by
  have hmark : Text.contains (token ++ String.singleton '?') unionMark = _ :=
    Text.contains_append_singleton (by decide) (by decide) token
  exact hmark.trans h.notUnion

theorem scalarType?_marked : scalarType? (token ++ "?") = scalarType? token := by
  rw [scalarType?, scalarType?, h.clean_marked, h.clean_eq]

theorem isEmpty_marked : (token ++ "?").isEmpty = token.isEmpty := by
  rw [String.isEmpty_eq_false_iff.mpr h.ne_empty, String.isEmpty_eq_false_iff]
  intro hempty
  exact absurd (String.append_eq_empty_iff.mp hempty).2 (by decide)

theorem jsonType?_marked : jsonType? (token ++ "?") = jsonType? token := by
  rw [jsonType?, jsonType?, h.isEmpty_marked, h.scalarType?_marked, h.clean_marked, h.clean_eq]

theorem reference?_marked : reference? convention (token ++ "?") = reference? convention token := by
  rw [reference?, reference?, target?, target?, isScalar, isScalar, h.isEmpty_marked,
    h.scalarType?_marked, h.clean_marked, h.clean_eq]

end IsUnmarked

end TypeToken

open TypeToken (IsUnmarked)

variable {base : Int} {context : PropertyContext} {token format name : String}
  {facets : List BlockFacet} {property : Property}

/-- Only the reason for a missing format shows the token. -/
theorem infer_congr {token' : String} (hclean : TypeToken.clean token = TypeToken.clean token')
    (property : String) :
    (FormatInference.infer token property).format = (FormatInference.infer token' property).format ∧
      (FormatInference.infer token property).isNotable =
        (FormatInference.infer token' property).isNotable := by
  unfold FormatInference.infer
  rw [hclean]
  dsimp only
  split
  · exact ⟨rfl, rfl⟩
  · split <;> exact ⟨rfl, rfl⟩

theorem setFormat?_marked (h : IsUnmarked token) (property : String) :
    setFormat? property (token ++ "?") = setFormat? property token := by
  obtain ⟨hformat, hnotable⟩ := infer_congr (h.clean_marked.trans h.clean_eq.symm) property
  rw [setFormat?, setFormat?, h.isUnion_marked, h.notUnion, hformat, hnotable]

/-! ### The token that is kept -/

def Property.withToken (property : Property) (token : String) : Property :=
  { property with token := some token }

theorem addFacet_marked (h : IsUnmarked token) (property : Property) :
    property.addFacet context (.type (token ++ "?")) =
      (property.addFacet context (.type token)).withToken (token ++ "?") := by
  rw [Property.addFacet, Property.addFacet, tokenType, tokenType, tokenReference?,
    tokenReference?, h.isUnion_marked, h.notUnion, h.reference?_marked, h.jsonType?_marked,
    setFormat?_marked h]
  rfl

theorem addFacet_withToken {facet : BlockFacet} (huntyped : facet.kind ≠ .type)
    (property : Property) (token : String) :
    (property.withToken token).addFacet context facet =
      (property.addFacet context facet).withToken token := by
  cases facet with
  | type => exact absurd rfl huntyped
  | description | enum | items => rfl

theorem foldl_addFacet_withToken_of_typed (htyped : FacetKind.type ∈ facets.map (·.kind))
    (property : Property) (token : String) :
    facets.foldl (Property.addFacet context) (property.withToken token) =
      facets.foldl (Property.addFacet context) property := by
  induction facets generalizing property with
  | nil => cases htyped
  | cons facet facets ih =>
    rw [List.foldl_cons, List.foldl_cons]
    by_cases hkind : facet.kind = .type
    · cases facet with
      | type => rfl
      | description | enum | items => cases hkind
    · rw [List.map_cons, List.mem_cons, or_iff_right (Ne.symm hkind)] at htyped
      rw [addFacet_withToken hkind, ih htyped]

theorem foldl_addFacet_withToken_of_untyped (huntyped : FacetKind.type ∉ facets.map (·.kind))
    (property : Property) (token : String) :
    facets.foldl (Property.addFacet context) (property.withToken token) =
      (facets.foldl (Property.addFacet context) property).withToken token := by
  induction facets generalizing property with
  | nil => rfl
  | cons facet facets ih =>
    rw [List.map_cons, List.mem_cons, not_or] at huntyped
    rw [List.foldl_cons, List.foldl_cons, addFacet_withToken (Ne.symm huntyped.1), ih huntyped.2]

theorem dropStrayItems_withToken (property : Property) (token : String) :
    PropertyBlock.dropStrayItems (property.withToken token) =
      (PropertyBlock.dropStrayItems property).withToken token := by
  rw [PropertyBlock.dropStrayItems, PropertyBlock.dropStrayItems]
  split <;> rename_i htype <;> simp_all [Property.withToken]

/-! ### What documents look up -/

/-- The formats that a type fixes without their being inferred from it. -/
def uninferredFormats : List (String × String) :=
  fixedFormats.filter fun entry => (FormatInference.typeFormats.lookup entry.1).isNone

example :
    uninferredFormats = [("date-only", "date"), ("datetime-with-timezone", "date-time")] := by
  decide

/-- Without a hint in the name, a format comes from the type alone. -/
theorem infer_eq_ofType (hlower : Text.Case.lower (TypeToken.clean token) = token)
    (hstring : token ≠ "string") (property : String) :
    FormatInference.infer token property =
      match FormatInference.typeFormats.lookup token with
      | some format => .ofType token format
      | none => .unknown token property := by
  unfold FormatInference.infer
  rw [hlower]
  dsimp only
  cases FormatInference.typeFormats.lookup token with
  | some format => rfl
  | none => simp [hstring]

section FixedFormats

variable (hfixed : fixedFormats.lookup token = some format)
include hfixed

theorem format_of_fixed : format ≠ "" ∧ format ≠ "email" ∧ token ≠ "any" := by
  have htable : ∀ entry ∈ fixedFormats, entry.2 ≠ "" ∧ entry.2 ≠ "email" ∧ entry.1 ≠ "any" := by
    decide
  exact htable _ (mem_of_lookup_eq_some hfixed)

/-- A type that fixes a format is text. -/
theorem tokenType_of_fixed (convention : Convention) :
    tokenType convention token = some (.single "string") ∧
      tokenReference? convention token = none := by
  have htable : ∀ entry ∈ fixedFormats, TypeToken.isUnion entry.1 = false ∧
      TypeToken.target? entry.1 = none ∧ TypeToken.jsonType? entry.1 = some "string" := by
    decide +kernel
  obtain ⟨hunion, htarget, hjson⟩ := htable _ (mem_of_lookup_eq_some hfixed)
  rw [tokenType, tokenReference?, TypeToken.reference?, hunion, htarget, hjson]
  exact ⟨rfl, rfl⟩

/-- A type that fixes a format sets it where it is read, unless it is one of those whose format is
not inferred. -/
theorem setFormat?_of_fixed (property : String) :
    uninferredFormats.lookup token = some format ∧ setFormat? property token = none ∨
      uninferredFormats.lookup token = none ∧ setFormat? property token = some (some format) := by
  have htable : ∀ entry ∈ fixedFormats, TypeToken.isUnion entry.1 = false ∧
      Text.Case.lower (TypeToken.clean entry.1) = entry.1 ∧ entry.1 ≠ "string" ∧
      (uninferredFormats.lookup entry.1 = some entry.2 ∧
          FormatInference.typeFormats.lookup entry.1 = none ∨
        uninferredFormats.lookup entry.1 = none ∧
          FormatInference.typeFormats.lookup entry.1 = some entry.2) := by
    decide +kernel
  obtain ⟨hunion, hlower, hstring, hinferred⟩ := htable _ (mem_of_lookup_eq_some hfixed)
  dsimp only at hunion hlower hstring hinferred
  rw [setFormat?, hunion, infer_eq_ofType hlower hstring]
  obtain ⟨hlookup, hnone⟩ | ⟨hlookup, hsome⟩ := hinferred
  · rw [hnone]
    exact .inl ⟨hlookup, rfl⟩
  · rw [hsome]
    exact .inr ⟨hlookup, rfl⟩

end FixedFormats

theorem lookup_marked (token : String) : fixedFormats.lookup (token ++ "?") = none := by
  have htable : ∀ entry ∈ fixedFormats, Text.dropSuffix? entry.1 "?" = none := by decide
  rw [Option.eq_none_iff_forall_ne_some]
  intro format hformat
  have hnone := htable _ (mem_of_lookup_eq_some hformat)
  rw [Text.dropSuffix?_append] at hnone
  cases hnone

theorem marked_ne_any (token : String) : token ++ "?" ≠ "any" := by
  intro hany
  have hnone : Text.dropSuffix? "any" "?" = none := by decide
  rw [← hany, Text.dropSuffix?_append] at hnone
  cases hnone

theorem lookup_uninferred_eq_none (hfixed : fixedFormats.lookup token = none) :
    uninferredFormats.lookup token = none := by
  have htable : ∀ entry ∈ uninferredFormats, fixedFormats.lookup entry.1 ≠ none := by decide
  rw [Option.eq_none_iff_forall_ne_some]
  intro format hformat
  exact htable _ (mem_of_lookup_eq_some hformat) hfixed

/-! ### Documents -/

/-- What is looked up by the token is all that a document tells of it. -/
theorem propertySchema?_withToken {token' : String}
    (hfixed : fixedFormats.lookup token = fixedFormats.lookup token')
    (hany : token = "any" ↔ token' = "any") (property : Property) :
    propertySchema? name (property.withToken token) =
      propertySchema? name (property.withToken token') := by
  have hplain : plainSchema? name (property.withToken token) =
      plainSchema? name (property.withToken token') := by
    simp [plainSchema?, scalarSchema, finalFormat, formatOf, Property.withToken, hfixed, hany]
  rw [propertySchema?, propertySchema?, hplain]
  rfl

theorem propertySchema?_withToken_eq (hreference : property.reference = none)
    (harray : property.type ≠ some (.single "array")) (token : String) :
    propertySchema? name (property.withToken token) =
      plainSchema? name (property.withToken token) := by
  rw [propertySchema?, Property.withToken, hreference]
  cases property.items with
  | none => rfl
  | some items => exact if_neg harray

theorem scalarSchema_eq_iff {type : String} {property property' : Property} :
    scalarSchema name type property = scalarSchema name type property' ↔
      finalFormat name type property = finalFormat name type property' := by
  constructor
  · intro heq
    rw [scalarSchema, scalarSchema, Json.obj.injEq, List.cons_inj_right] at heq
    cases hformat : finalFormat name type property <;>
      cases hformat' : finalFormat name type property' <;> simp_all
  · intro heq
    rw [scalarSchema, scalarSchema, heq]

theorem given_eq_some_iff {text : Option String} (hne : format ≠ "") :
    Schema.given text = some format ↔ text = some format := by
  rw [Schema.given, Option.filter_eq_some_iff]
  exact and_iff_left (by simpa using hne)

theorem plainSchema?_text (htype : property.type = some (.single "string"))
    (hany : property.token ≠ some "any") :
    plainSchema? name property = some (scalarSchema name "string" property) := by
  simp [plainSchema?, htype, hany, Schema.allowsAny, TypeKeyword.allows]

/-- A text of a type that fixes a format has it with the mark if it has been read, too. -/
theorem plainSchema?_text_marked_iff (htype : property.type = some (.single "string"))
    (hfixed : fixedFormats.lookup token = some format) :
    plainSchema? name (property.withToken token) =
        plainSchema? name (property.withToken (token ++ "?")) ↔
      property.format = some format := by
  obtain ⟨hempty, hemail, hany⟩ := format_of_fixed hfixed
  have hformat : finalFormat name "string" (property.withToken token) = some format := by
    simp [finalFormat, formatOf, Property.withToken, hfixed, Schema.given, hempty]
  have htext : plainSchema? name (property.withToken token) =
      some (scalarSchema name "string" (property.withToken token)) :=
    plainSchema?_text htype (by simpa [Property.withToken] using hany)
  have htext' : plainSchema? name (property.withToken (token ++ "?")) =
      some (scalarSchema name "string" (property.withToken (token ++ "?"))) :=
    plainSchema?_text htype (by simpa [Property.withToken] using marked_ne_any token)
  rw [htext, htext', Option.some_inj, scalarSchema_eq_iff, hformat, finalFormat, formatOf]
  simp only [Property.withToken, Option.bind_some, lookup_marked, Option.none_or]
  rw [eq_comm, Option.or_eq_some_iff, given_eq_some_iff hempty]
  refine or_iff_left fun hguess => ?_
  obtain ⟨-, hguess⟩ := hguess
  split at hguess
  · exact hemail (Option.some_inj.mp hguess).symm
  · cases hguess

/-! ### Blocks -/

variable {after : List BlockFacet}

/-- A type that fixes a format has it with the mark, too, if it has been read by then. -/
theorem propertySchema?_fixed_iff (hfixed : fixedFormats.lookup token = some format)
    (htype : property.type = some (.single "string")) (hreference : property.reference = none) :
    propertySchema? name (property.withToken token) =
        propertySchema? name (property.withToken (token ++ "?")) ↔
      property.format = some format := by
  have harray : property.type ≠ some (.single "array") := ne_of_eq_of_ne htype (by decide)
  rw [propertySchema?_withToken_eq hreference harray,
    propertySchema?_withToken_eq hreference harray, plainSchema?_text_marked_iff htype hfixed]

/-- Where an enum has made text of `any`, only the token still says that it was. -/
theorem propertySchema?_any_iff {enums : Prop} [Decidable enums]
    (htype : property.type = some (.single (if enums then "string" else "any")))
    (hreference : property.reference = none) :
    propertySchema? name (property.withToken "any") =
        propertySchema? name (property.withToken ("any" ++ "?")) ↔ ¬enums := by
  have harray : property.type ≠ some (.single "array") := by
    rw [htype]
    split <;> decide
  have hany : plainSchema? name (property.withToken "any") = some Schema.anything := by
    simp [plainSchema?, Property.withToken]
  rw [propertySchema?_withToken_eq hreference harray,
    propertySchema?_withToken_eq hreference harray, hany]
  by_cases henums : enums
  · rw [if_pos henums] at htype
    have htext : plainSchema? name (property.withToken ("any" ++ "?")) =
        some (scalarSchema name "string" (property.withToken ("any" ++ "?"))) :=
      plainSchema?_text htype (by simp [Property.withToken])
    rw [htext, Schema.anything, scalarSchema]
    simp [henums]
  · rw [if_neg henums] at htype
    simp [plainSchema?, Property.withToken, htype, henums, Schema.allowsAny, TypeKeyword.allows]

/-- Documents of a property whose last type is written with and without the mark. -/
theorem propertySchema?_marked_iff (htoken : IsUnmarked token)
    (huntyped : FacetKind.type ∉ after.map (·.kind)) (property : Property) :
    propertySchema? name (PropertyBlock.dropStrayItems
          (after.foldl (Property.addFacet context) (property.addFacet context (.type token)))) =
        propertySchema? name (PropertyBlock.dropStrayItems
          (after.foldl (Property.addFacet context)
            (property.addFacet context (.type (token ++ "?"))))) ↔
      (∀ format, uninferredFormats.lookup token = some format → property.format = some format) ∧
        (token = "any" → FacetKind.enum ∉ after.map (·.kind)) := by
  obtain ⟨description, items, hfold⟩ := exists_foldl_addFacet_of_untyped context huntyped
    (property.addFacet context (.type token))
  rw [addFacet_marked htoken, foldl_addFacet_withToken_of_untyped huntyped,
    dropStrayItems_withToken]
  set plain := PropertyBlock.dropStrayItems
    (after.foldl (Property.addFacet context) (property.addFacet context (.type token))) with hplain
  have hkept : plain = plain.withToken token := by
    have htoken : plain.token = some token := by rw [hplain, token_dropStrayItems, hfold]; rfl
    rw [Property.withToken, ← htoken]
  have htype : plain.type = if FacetKind.enum ∈ after.map (·.kind) then some (.single "string")
      else tokenType context.convention token := by
    rw [hplain, type_dropStrayItems, hfold]
    rfl
  have hreference : plain.reference = tokenReference? context.convention token := by
    rw [hplain, reference_dropStrayItems, hfold]
    rfl
  have hformat : plain.format = (setFormat? context.property token).getD property.format := by
    rw [hplain, format_dropStrayItems, hfold]
    rfl
  -- The two properties are one but for the token, which matters only where it is looked up.
  nth_rewrite 1 [hkept]
  cases hfixed : fixedFormats.lookup token with
  | some format =>
    obtain ⟨-, -, hany⟩ := format_of_fixed hfixed
    obtain ⟨htext, hnone⟩ := tokenType_of_fixed hfixed context.convention
    rw [htext, ite_self] at htype
    rw [propertySchema?_fixed_iff hfixed htype (hreference.trans hnone), hformat]
    obtain ⟨hlookup, hset⟩ | ⟨hlookup, hset⟩ := setFormat?_of_fixed hfixed context.property
    · simp [hlookup, hset, hany]
    · simp [hlookup, hset, hany]
  | none =>
    have hlookup := lookup_uninferred_eq_none hfixed
    by_cases hany : token = "any"
    · subst hany
      have hnone : tokenReference? context.convention "any" = none := by rfl
      have hany : tokenType context.convention "any" = some (.single "any") := by rfl
      rw [hany, ← apply_ite some, ← apply_ite TypeKeyword.single] at htype
      rw [propertySchema?_any_iff htype (hreference.trans hnone)]
      simp [hlookup]
    · rw [propertySchema?_withToken (hfixed.trans (lookup_marked token).symm)
        (iff_of_false hany (marked_ne_any token))]
      simp [hlookup, hany]

section TypeLine

variable {line line' : Line} {before after : List Line}

theorem enumValues_append_type (htype : PropertyBlock.typeFacet? base line = some token)
    (before after : List Line) :
    PropertyBlock.enumValues base (before ++ line :: after) =
      PropertyBlock.enumValues base (before ++ after) := by
  obtain ⟨hindent, hfacet⟩ : line.indent = base + 2 ∧
      Line.facet? "type:" line.text = some token := by
    simpa [PropertyBlock.typeFacet?] using htype
  apply PropertyBlock.enumValues_append_cons
  · rw [PropertyBlock.opensEnum, Bool.and_eq_false_iff]
    exact .inr (beq_false_of_ne (ne_enum_of_facet? (by decide) (by decide) hfacet))
  · rw [PropertyBlock.value?, if_neg (by omega)]

/-- **When the mark is neutral.** Two blocks that differ in the mark of one type give the same
document exactly if a later type or an enum with values takes its place, or if what is looked up by
the token does not matter: a format that the type fixes without its being inferred has been read
before, and no `enum:` follows the type `any`. -/
theorem optional_mark_neutral_iff {sources sources' : List String} {start : Nat}
    (context : PropertyContext) (htoken : IsUnmarked token)
    (htype : PropertyBlock.typeFacet? base line = some token)
    (htype' : PropertyBlock.typeFacet? base line' = some (token ++ "?"))
    (hblock : PropertyBlock.blockAt sources start base = before ++ line :: after)
    (hblock' : PropertyBlock.blockAt sources' start base = before ++ line' :: after) :
    ∃ resolution resolution',
      PropertyBlock.resolveAt? sources start base context = some resolution ∧
        PropertyBlock.resolveAt? sources' start base context = some resolution' ∧
        (propertySchema? context.property resolution.property =
            propertySchema? context.property resolution'.property ↔
          PropertyBlock.enumValues base (before ++ line :: after) ≠ [] ∨
            FacetKind.type ∈ facetKinds base context.convention after ∨
            (∀ format, uninferredFormats.lookup token = some format →
                (readProperty base context before).format = some format) ∧
              (token = "any" → FacetKind.enum ∉ facetKinds base context.convention after)) := by
  refine ⟨_, _, rfl, rfl, ?_⟩
  rw [PropertyBlock.blockAt] at hblock hblock'
  rw [property_resolve, property_resolve, hblock, hblock', enumValues_append_type htype,
    enumValues_append_type htype']
  by_cases hlifted : PropertyBlock.enumValues base (before ++ after) = []
  · have hread := readProperty_append_cons
      (PropertyBlock.blockFacet?_of_typeFacet? htype context.convention after) before
    have hread' := readProperty_append_cons
      (PropertyBlock.blockFacet?_of_typeFacet? htype' context.convention after) before
    rw [hlifted, List.isEmpty_nil, if_pos rfl, if_pos rfl, plainBlockProperty, plainBlockProperty,
      hread, hread', facetKinds]
    by_cases htyped : FacetKind.type ∈ (blockFacets base context.convention after).map (·.kind)
    · rw [addFacet_marked htoken, foldl_addFacet_withToken_of_typed htyped]
      simp [htyped]
    · rw [propertySchema?_marked_iff htoken htyped]
      simp [htyped]
  · have hsome : (PropertyBlock.enumValues base (before ++ after)).isEmpty = false := by
      simpa using hlifted
    have hne : liftedReference context ≠ "" := reference_ne_empty context.convention _
    rw [hsome, if_neg Bool.false_ne_true, if_neg Bool.false_ne_true,
      propertySchema?_of_reference rfl hne, propertySchema?_of_reference rfl hne]
    simp [hlifted]

end TypeLine

def saleLines (token : String) : List String :=
  ["  sold:", "    type: date", "    type: " ++ token, "    enum:"]

def saleContext : PropertyContext := ⟨"Car", "sold", .pascal, false⟩

/-- The format of a type that was read before stays, and with the mark it is shown. -/
theorem optional_mark_neutral_sale :
    ∃ resolution resolution',
      PropertyBlock.resolveAt? (saleLines "date-only") 1 2 saleContext = some resolution ∧
        PropertyBlock.resolveAt? (saleLines "date-only?") 1 2 saleContext = some resolution' ∧
        propertySchema? "sold" resolution.property =
          propertySchema? "sold" resolution'.property := by
  have htoken : IsUnmarked "date-only" :=
    ⟨by decide, by decide +kernel, by decide +kernel, by decide +kernel⟩
  have hblock : PropertyBlock.blockAt (saleLines "date-only") 1 2 =
      [⟨2, 4, "type: date"⟩] ++ ⟨3, 4, "type: date-only"⟩ :: [⟨4, 4, "enum:"⟩] := by
    decide +kernel
  have hblock' : PropertyBlock.blockAt (saleLines "date-only?") 1 2 =
      [⟨2, 4, "type: date"⟩] ++ ⟨3, 4, "type: date-only?"⟩ :: [⟨4, 4, "enum:"⟩] := by
    decide +kernel
  have hformat : (readProperty 2 saleContext [⟨2, 4, "type: date"⟩]).format = some "date" := by
    decide +kernel
  obtain ⟨resolution, resolution', hresolve, hresolve', hneutral⟩ :=
    optional_mark_neutral_iff saleContext htoken (by decide +kernel) (by decide +kernel) hblock
      hblock'
  refine ⟨resolution, resolution', hresolve, hresolve', hneutral.mpr (.inr (.inr ⟨?_, ?_⟩))⟩
  · intro format hlookup
    have hdate : uninferredFormats.lookup "date-only" = some "date" := by decide
    rwa [← hlookup, hdate]
  · intro hany
    exact absurd hany (by decide)

/-- A marked date has no format where nothing else has set it. -/
theorem optional_date_without_format :
    IsUnmarked "date-only" ∧
      ∃ resolution resolution',
        PropertyBlock.resolveAt? ["  sold:", "    type: date-only"] 1 2 saleContext =
            some resolution ∧
          PropertyBlock.resolveAt? ["  sold:", "    type: date-only?"] 1 2 saleContext =
            some resolution' ∧
          propertySchema? "sold" resolution.property =
            some (.obj [("type", .str "string"), ("format", .str "date")]) ∧
          propertySchema? "sold" resolution'.property = some (.obj [("type", .str "string")]) ∧
          propertySchema? "sold" resolution.property ≠
            propertySchema? "sold" resolution'.property := by
  refine ⟨⟨by decide, by decide +kernel, by decide +kernel, by decide +kernel⟩, _, _, rfl, rfl, ?_⟩
  decide +kernel

end RamlSchema.Raml
