import RamlSchema.Proofs.Lists
import RamlSchema.Proofs.Raml.Facets

/-!
# Stray elements of arrays

Only the type of a property that is an array is supposed to come with a type of its elements. The
elements are dropped before an enum takes the place of the type, so they survive in a property that
writes `type: array` behind its `enum:`, and in no other.
-/

namespace RamlSchema.Raml

/-! ### The type of arrays -/

namespace TypeToken

theorem eq_array_of_mem_scalarTypes {token : String} (hmem : (token, "array") ∈ scalarTypes) :
    token = "array" := by
  have honly : ∀ pair ∈ scalarTypes, pair.2 = "array" → pair.1 = "array" := by decide
  exact honly (token, "array") hmem rfl

theorem scalarType?_eq_array_iff {token : String} :
    scalarType? token = some "array" ↔ clean token = "array" := by
  constructor
  · intro hscalar
    exact eq_array_of_mem_scalarTypes (mem_of_lookup_eq_some hscalar)
  · intro hclean
    rw [scalarType?, hclean]
    rfl

theorem scalarType?_of_jsonType?_eq_array {token : String}
    (hjson : jsonType? token = some "array") : scalarType? token = some "array" := by
  unfold jsonType? at hjson
  split at hjson
  · exact absurd (Option.some_inj.mp hjson) (by decide)
  · split at hjson
    case h_1 type hscalar => exact hscalar.trans hjson
    case h_2 =>
      split at hjson
      · cases hjson
      · exact absurd (Option.some_inj.mp hjson) (by decide)

theorem jsonType?_of_clean_eq_array {token : String} (hclean : clean token = "array") :
    jsonType? token = some "array" := by
  have hne : token.isEmpty = false := by
    rw [String.isEmpty_eq_false_iff]
    rintro rfl
    exact absurd hclean (by decide)
  rw [jsonType?, hne, scalarType?_eq_array_iff.mpr hclean]
  rfl

/-- A trimmed token of arrays is written with or without the mark of optional types. -/
theorem eq_of_clean_eq_array {token : String} (htrim : Text.trim token = token)
    (hclean : clean token = "array") : token = "array" ∨ token = "array?" := by
  rw [clean, htrim, Text.stripSuffix] at hclean
  cases hsuffix : Text.dropSuffix? token "?" with
  | none =>
    rw [hsuffix] at hclean
    exact .inl hclean
  | some rest =>
    rw [hsuffix] at hclean
    rw [Text.dropSuffix?_eq_some_iff] at hsuffix
    exact .inr (by rw [hsuffix, show rest = "array" from hclean]; rfl)

end TypeToken

/-- Exactly the token of arrays stands for the type of arrays. -/
theorem tokenType_eq_array_iff (convention : Convention) (token : Phrase) :
    tokenType convention token.text = some (.single "array") ↔
      TypeToken.clean token.text = "array" := by
  constructor
  · intro htype
    rw [tokenType] at htype
    split at htype
    · cases htype
    · split at htype
      · cases htype
      · obtain ⟨type, hjson, htype⟩ := Option.map_eq_some_iff.mp htype
        obtain rfl : type = "array" := TypeKeyword.single.inj htype
        exact TypeToken.scalarType?_eq_array_iff.mp
          (TypeToken.scalarType?_of_jsonType?_eq_array hjson)
  · intro hclean
    have hunion : TypeToken.isUnion token.text = false := by
      rcases TypeToken.eq_of_clean_eq_array token.trimmed hclean with htoken | htoken <;>
        (rw [htoken]; decide)
    have hscalar : TypeToken.isScalar token.text = true := by
      rw [TypeToken.isScalar, TypeToken.scalarType?_eq_array_iff.mpr hclean]
      rfl
    have hreference : TypeToken.reference? convention token.text = none := by
      simp [TypeToken.reference?, TypeToken.target?, hscalar]
    rw [tokenType, hunion, hreference, TypeToken.jsonType?_of_clean_eq_array hclean]
    rfl

/-! ### Arrays behind enums -/

theorem exists_last_of_filterMap {α β : Type} {f : α → Option β} {xs : List α} {b : β}
    (hlast : (xs.filterMap f).getLast? = some b) :
    ∃ before a after, xs = before ++ a :: after ∧ f a = some b ∧ after.filterMap f = [] := by
  obtain ⟨others, hothers⟩ := List.getLast?_eq_some_iff.mp hlast
  obtain ⟨front, back, rfl, -, hback⟩ := List.filterMap_eq_append_iff.mp hothers
  obtain ⟨between, a, after, rfl, -, ha, hafter⟩ := List.filterMap_eq_cons_iff.mp hback
  exact ⟨front ++ between, a, after, by simp, ha, hafter⟩

namespace PropertyOutline

/-- An array behind an inline enum, with elements. -/
def HasStrayItems (outline : PropertyOutline) : Prop :=
  (∃ before token after, outline.facets = before ++ .type token :: after ∧
    TypeToken.clean token.text = "array" ∧ FacetKind.enum ∈ before.map (·.kind)) ∧
  FacetKind.items ∈ outline.facets.map (·.kind)

theorem values_ne_nil_iff {outline : PropertyOutline} :
    outline.values ≠ [] ↔ FacetKind.enum ∈ outline.facets.map (·.kind) := by
  rw [values, Ne, List.flatMap_eq_nil_iff, List.mem_map]
  constructor
  · intro hvalues
    obtain ⟨facet, hfacet, hne⟩ : ∃ facet ∈ outline.facets, facet.values ≠ [] := by
      simpa using hvalues
    cases facet with
    | enum values _ => exact ⟨_, hfacet, rfl⟩
    | _ => exact absurd rfl hne
  · rintro ⟨facet, hfacet, hkind⟩ hall
    cases facet with
    | enum values hne => exact hne (List.map_eq_nil_iff.mp (hall _ hfacet))
    | _ => cases hkind

theorem isSome_items?_iff (convention : Convention) {outline : PropertyOutline} :
    (outline.items? convention).isSome ↔ FacetKind.items ∈ outline.facets.map (·.kind) := by
  rw [items?, Option.isSome_map, List.findSome?_isSome_iff, List.mem_map]
  constructor
  · rintro ⟨facet, hfacet, hitems⟩
    refine ⟨facet, hfacet, ?_⟩
    cases facet <;> first | rfl | cases hitems
  · rintro ⟨facet, hfacet, hkind⟩
    refine ⟨facet, hfacet, ?_⟩
    cases facet <;> first | rfl | cases hkind

theorem getLast?_type?_of_scannedType {convention : Convention} {outline : PropertyOutline}
    (htype : outline.scannedType convention = some (.single "array")) :
    (outline.facets.filterMap (PropertyFacet.type? convention)).getLast? =
      some (some (.single "array")) := by
  rw [scannedType] at htype
  cases hlast : (outline.facets.filterMap (PropertyFacet.type? convention)).getLast? with
  | none =>
    rw [hlast] at htype
    exact absurd htype (by decide)
  | some type =>
    rw [hlast] at htype
    exact congrArg some htype

/-- Each kind of facet stands once, so nothing behind an enum and a type sets the type again. -/
theorem filterMap_type?_behind (convention : Convention) {outline : PropertyOutline}
    {before after : List PropertyFacet} {token : Phrase}
    (hfacets : outline.facets = before ++ .type token :: after)
    (hbefore : FacetKind.enum ∈ before.map (·.kind)) :
    after.filterMap (PropertyFacet.type? convention) = [] := by
  rw [List.filterMap_eq_nil_iff]
  intro facet hfacet
  have hdistinct := outline.distinct
  rw [hfacets, List.map_append, List.map_cons, List.nodup_append, List.nodup_cons] at hdistinct
  have hkind : facet.kind ∈ after.map (·.kind) := List.mem_map_of_mem hfacet
  cases facet with
  | type other => exact absurd hkind hdistinct.2.1.1
  | enum values _ => exact absurd rfl (hdistinct.2.2 _ hbefore _ (List.mem_cons_of_mem _ hkind))
  | _ => rfl

/-- In a property with an enum, exactly an array behind the enum is read as the type of arrays. -/
theorem scannedType_eq_array_iff {convention : Convention} {outline : PropertyOutline}
    (hvalues : outline.values ≠ []) :
    outline.scannedType convention = some (.single "array") ↔
      ∃ before token after, outline.facets = before ++ .type token :: after ∧
        TypeToken.clean token.text = "array" ∧ FacetKind.enum ∈ before.map (·.kind) := by
  have henum := values_ne_nil_iff.mp hvalues
  constructor
  · intro htype
    obtain ⟨before, facet, after, hfacets, hfacet, hafter⟩ :=
      exists_last_of_filterMap (getLast?_type?_of_scannedType htype)
    cases facet with
    | type token =>
      refine ⟨before, token, after, hfacets, ?_, ?_⟩
      · exact (tokenType_eq_array_iff convention token).mp (Option.some_inj.mp hfacet)
      · -- Nothing behind the last facet that sets the type is an enum.
        rw [hfacets, List.map_append, List.map_cons, List.mem_append, List.mem_cons] at henum
        refine henum.resolve_right ?_
        rintro (hkind | hkind)
        · cases hkind
        · obtain ⟨other, hother, hkind⟩ := List.mem_map.mp hkind
          have hnone := List.filterMap_eq_nil_iff.mp hafter other hother
          cases other with
          | enum values _ => cases hnone
          | _ => cases hkind
    | enum values _ => exact absurd (Option.some_inj.mp hfacet) (by decide)
    | _ => cases hfacet
  · rintro ⟨before, token, after, hfacets, hclean, hbefore⟩
    have hafter := filterMap_type?_behind convention hfacets hbefore
    have htype : PropertyFacet.type? convention (.type token) =
        some (tokenType convention token.text) := rfl
    rw [scannedType, hfacets, List.filterMap_append, List.filterMap_cons_some htype, hafter,
      List.getLast?_concat]
    exact (tokenType_eq_array_iff convention token).mpr hclean

/-- Reading finds the property that is declared, unless an array stands behind the enum in it. -/
theorem readProperty_eq_property_iff {convention : Convention} {parent : String}
    {outline : PropertyOutline} :
    outline.readProperty convention parent = outline.property convention parent ↔
      ¬outline.HasStrayItems := by
  have hitems : outline.readProperty convention parent = outline.property convention parent ↔
      outline.keptItems convention = (outline.property convention parent).items := by
    constructor
    · exact congrArg Property.items
    · intro heq
      rw [readProperty, heq]
  rw [hitems]
  by_cases hvalues : outline.values = []
  · have hstray : ¬outline.HasStrayItems := by
      rintro ⟨⟨before, token, after, hfacets, -, henum⟩, -⟩
      refine values_ne_nil_iff.mpr ?_ hvalues
      rw [hfacets, List.map_append]
      exact List.mem_append_left _ henum
    refine iff_of_true ?_ hstray
    rw [property, if_pos hvalues, keptItems, scannedType_of_values_eq_nil hvalues]
    rfl
  · have hdeclared : (outline.property convention parent).items = none := by
      rw [property, if_neg hvalues]
    rw [hdeclared, keptItems, HasStrayItems, ← scannedType_eq_array_iff hvalues,
      ← isSome_items?_iff convention, not_and, Bool.not_eq_true,
      Option.isSome_eq_false_iff, Option.isNone_iff_eq_none]
    split
    case isTrue harray => exact ⟨fun hnone _ => hnone, fun hnone => hnone harray⟩
    case isFalse harray => exact iff_of_true rfl fun harray' => absurd harray' harray

end PropertyOutline

end RamlSchema.Raml
