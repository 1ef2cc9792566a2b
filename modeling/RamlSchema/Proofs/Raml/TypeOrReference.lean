import RamlSchema.Proofs.Raml.BlockFacets

/-!
# A type or a reference

A property is described by its type or by a reference, one of the two, and only an array has
elements. A type facet sees to that, and so does a lifted enum. What breaks it stands in between: an
`enum:` sets the type alone, so without values it leaves a reference beside the type, and elements
are dropped by the type that was read, before a lifted enum takes the type away.
-/

namespace RamlSchema.Raml

open PropertyBlock (enumValues)

/-- One of type and reference, and elements only for arrays. -/
structure Property.IsConsistent (property : Property) : Prop where
  type_iff : property.type = none ↔ property.reference.isSome
  array_of_items : property.items.isSome → property.type = some (.single "array")

variable {base : Int} {convention : Convention} {context : PropertyContext} {line : Line}
  {block after : List Line} {facet : BlockFacet} {facets : List BlockFacet} {kind : FacetKind}

/-! ### The last facet of a kind -/

/-- A block's last facet of its kind, with the lines behind it. -/
def LastFacet (base : Int) (convention : Convention) (block : List Line) (facet : BlockFacet)
    (after : List Line) : Prop :=
  (∃ before line, block = before ++ line :: after ∧
      blockFacet? base convention line after = some facet) ∧
    facet.kind ∉ facetKinds base convention after

theorem exists_lastFacet (hkind : kind ∈ facetKinds base convention block) :
    ∃ facet after, facet.kind = kind ∧ LastFacet base convention block facet after := by
  induction block with
  | nil => cases hkind
  | cons line following ih =>
    by_cases hlater : kind ∈ facetKinds base convention following
    · obtain ⟨facet, after, hfacet, ⟨before, line', rfl, hline⟩, hlast⟩ := ih hlater
      exact ⟨facet, after, hfacet, ⟨line :: before, line', rfl, hline⟩, hlast⟩
    · rw [facetKinds, blockFacets, List.map_append, List.mem_append] at hkind
      obtain ⟨facet, hfacet, rfl⟩ := List.mem_map.mp (hkind.resolve_right hlater)
      rw [Option.mem_toList] at hfacet
      exact ⟨facet, following, rfl, ⟨[], line, rfl, hfacet⟩, hlater⟩

theorem LastFacet.exists_readProperty
    (hlast : LastFacet base context.convention block facet after) :
    ∃ before : Property,
      readProperty base context block =
        (blockFacets base context.convention after).foldl (Property.addFacet context)
          (before.addFacet context facet) := by
  obtain ⟨⟨before, line, rfl, hline⟩, -⟩ := hlast
  exact ⟨_, readProperty_append_cons hline before⟩

theorem items_foldl_addFacet (hitems : FacetKind.items ∉ facets.map (·.kind))
    (property : Property) :
    (facets.foldl (Property.addFacet context) property).items = property.items := by
  induction facets generalizing property with
  | nil => rfl
  | cons facet facets ih =>
    rw [List.map_cons, List.mem_cons, not_or] at hitems
    rw [List.foldl_cons, ih hitems.2]
    cases facet with
    | items => exact absurd rfl hitems.1
    | description | type | enum => rfl

/-! ### The property as it is read -/

/-- The last type counts, unless an `enum:` follows it. -/
theorem LastFacet.type_readProperty {token : String}
    (hlast : LastFacet base context.convention block (.type token) after) :
    (readProperty base context block).type =
        (if FacetKind.enum ∈ facetKinds base context.convention after then some (.single "string")
          else tokenType context.convention token) ∧
      (readProperty base context block).reference = tokenReference? context.convention token := by
  obtain ⟨before, hread⟩ := hlast.exists_readProperty
  obtain ⟨description, items, hbehind⟩ := exists_foldl_addFacet_of_untyped context hlast.2
    (before.addFacet context (.type token))
  rw [hread, hbehind]
  exact ⟨rfl, rfl⟩

/-- Without a type, a property is text. -/
theorem type_readProperty_of_untyped
    (huntyped : FacetKind.type ∉ facetKinds base context.convention block) :
    (readProperty base context block).type = some (.single "string") ∧
      (readProperty base context block).reference = none := by
  obtain ⟨description, items, hread⟩ := exists_foldl_addFacet_of_untyped context huntyped {}
  rw [readProperty, hread]
  exact ⟨ite_self _, rfl⟩

/-- The last `items:` counts. -/
theorem LastFacet.items_readProperty {items : Option Items}
    (hlast : LastFacet base context.convention block (.items items) after) :
    (readProperty base context block).items = items := by
  obtain ⟨before, hread⟩ := hlast.exists_readProperty
  rw [hread, items_foldl_addFacet hlast.2]
  rfl

theorem isSome_items_readProperty_iff :
    (readProperty base context block).items.isSome ↔
      ∃ items after, LastFacet base context.convention block (.items (some items)) after := by
  constructor
  · intro hsome
    by_cases hitems : FacetKind.items ∈ facetKinds base context.convention block
    · obtain ⟨facet, after, hkind, hlast⟩ := exists_lastFacet hitems
      cases facet with
      | items items =>
        rw [hlast.items_readProperty] at hsome
        obtain ⟨items, rfl⟩ := Option.isSome_iff_exists.mp hsome
        exact ⟨items, after, hlast⟩
      | description | type | enum => cases hkind
    · rw [readProperty, items_foldl_addFacet hitems] at hsome
      cases hsome
  · rintro ⟨items, after, hlast⟩
    rw [hlast.items_readProperty]
    rfl

/-! ### Consistency -/

/-- The last type refers to something, and an `enum:` without values makes text of it. -/
def KeepsReference (base : Int) (context : PropertyContext) (block : List Line) : Prop :=
  enumValues base block = [] ∧
    ∃ token after, LastFacet base context.convention block (.type token) after ∧
      (tokenReference? context.convention token).isSome ∧
      FacetKind.enum ∈ facetKinds base context.convention after

/-- The last type is an array, whose elements have a type, and an enum with values in front of it
takes its place. -/
def KeepsItems (base : Int) (context : PropertyContext) (block : List Line) : Prop :=
  enumValues base block ≠ [] ∧
    (∃ token after, LastFacet base context.convention block (.type token) after ∧
      tokenType context.convention token = some (.single "array") ∧
      FacetKind.enum ∉ facetKinds base context.convention after) ∧
    ∃ items after, LastFacet base context.convention block (.items (some items)) after

theorem type_eq_none_iff_of_lastFacet {token : String}
    (hlast : LastFacet base context.convention block (.type token) after) :
    ((readProperty base context block).type = none ↔
        (readProperty base context block).reference.isSome) ↔
      ¬((tokenReference? context.convention token).isSome ∧
        FacetKind.enum ∈ facetKinds base context.convention after) := by
  obtain ⟨htype, hreference⟩ := hlast.type_readProperty
  rw [htype, hreference, ← tokenType_eq_none_iff]
  split
  case isTrue henum => simp [henum]
  case isFalse henum => simp [henum]

theorem type_eq_none_iff_of_plain (hplain : enumValues base block = []) :
    ((readProperty base context block).type = none ↔
        (readProperty base context block).reference.isSome) ↔
      ¬KeepsReference base context block := by
  constructor
  · rintro hiff ⟨-, token, after, hlast, hkept⟩
    exact (type_eq_none_iff_of_lastFacet hlast).mp hiff hkept
  · intro hkeeps
    by_cases htyped : FacetKind.type ∈ facetKinds base context.convention block
    · obtain ⟨facet, after, hkind, hlast⟩ := exists_lastFacet htyped
      cases facet with
      | type token =>
        rw [type_eq_none_iff_of_lastFacet hlast]
        exact fun hkept => hkeeps ⟨hplain, token, after, hlast, hkept⟩
      | description | enum | items => cases hkind
    · obtain ⟨htype, hreference⟩ := type_readProperty_of_untyped htyped
      simp [htype, hreference]

theorem type_eq_array_iff :
    (readProperty base context block).type = some (.single "array") ↔
      ∃ token after, LastFacet base context.convention block (.type token) after ∧
        tokenType context.convention token = some (.single "array") ∧
        FacetKind.enum ∉ facetKinds base context.convention after := by
  have htext : some (TypeKeyword.single "string") ≠ some (.single "array") := by decide
  constructor
  · intro harray
    by_cases htyped : FacetKind.type ∈ facetKinds base context.convention block
    · obtain ⟨facet, after, hkind, hlast⟩ := exists_lastFacet htyped
      cases facet with
      | type token =>
        rw [hlast.type_readProperty.1] at harray
        split at harray
        case isTrue => exact absurd harray htext
        case isFalse henum => exact ⟨token, after, hlast, harray, henum⟩
      | description | enum | items => cases hkind
    · rw [(type_readProperty_of_untyped htyped).1] at harray
      exact absurd harray htext
  · rintro ⟨token, after, hlast, harray, henum⟩
    rw [hlast.type_readProperty.1, if_neg henum, harray]

theorem isSome_items_dropStrayItems_iff {property : Property} :
    (PropertyBlock.dropStrayItems property).items.isSome ↔
      property.type = some (.single "array") ∧ property.items.isSome := by
  rw [PropertyBlock.dropStrayItems]
  split
  case isTrue harray => simp [harray]
  case isFalse harray => simp [harray]

theorem isConsistent_resolve_iff (base : Int) (context : PropertyContext) (number : Int)
    (declared : Option String) (following : List Line) :
    (PropertyBlock.resolve base context number declared following).property.IsConsistent ↔
      ¬KeepsReference base context (PropertyBlock.lines base following) ∧
        ¬KeepsItems base context (PropertyBlock.lines base following) := by
  rw [property_resolve, plainBlockProperty]
  set block := PropertyBlock.lines base following
  by_cases hplain : enumValues base block = []
  -- Nothing is lifted: stray elements are gone, and only the type and the reference can disagree.
  · have hkeeps : ¬KeepsItems base context block := fun h => h.1 hplain
    rw [if_pos (by rw [hplain]; rfl), and_iff_left hkeeps, ← type_eq_none_iff_of_plain hplain]
    constructor
    · intro hconsistent
      simpa using hconsistent.type_iff
    · intro hiff
      refine ⟨by simpa using hiff, fun hitems => ?_⟩
      rw [type_dropStrayItems]
      exact (isSome_items_dropStrayItems_iff.mp hitems).1
  -- An enum is lifted: the type gives way to its reference, and elements may be left.
  · have hkeeps : ¬KeepsReference base context block := fun h => hplain h.1
    have hitems : KeepsItems base context block ↔
        (PropertyBlock.dropStrayItems (readProperty base context block)).items.isSome := by
      rw [isSome_items_dropStrayItems_iff, type_eq_array_iff, isSome_items_readProperty_iff,
        KeepsItems, and_iff_right hplain]
    rw [if_neg (by simpa using hplain), and_iff_right hkeeps, hitems]
    constructor
    · intro hconsistent hsome
      exact absurd (hconsistent.array_of_items hsome) nofun
    · intro hnone
      exact ⟨iff_of_true rfl rfl, fun hsome => absurd hsome hnone⟩

/-- Nothing is read from an index in front of the first line. -/
theorem isSome_fromIndex?_iff {sources : List String} {start : Int} :
    (Line.fromIndex? sources start).isSome ↔ -(sources.length : Int) ≤ start := by
  cases start with
  | ofNat n => exact iff_of_true rfl (by rw [Int.ofNat_eq_natCast]; omega)
  | negSucc n =>
    rw [Line.fromIndex?, Int.negSucc_eq]
    split
    case isTrue hbefore => exact iff_of_true rfl (by omega)
    case isFalse hbefore => exact iff_of_false nofun (by omega)

/-- **One of type and reference.** From whichever index a property is read, it has a type or a
reference, not both, and elements only as an array, except in two kinds of blocks: an `enum:`
without values behind a reference keeps the reference beside a type, and an array behind an enum
with values keeps its elements beside the reference to the enum. -/
theorem resolveAt_isConsistent_iff (sources : List String) (start base : Int)
    (context : PropertyContext) (hstart : -(sources.length : Int) ≤ start) :
    ∃ following resolution, Line.fromIndex? sources start = some following ∧
      PropertyBlock.resolveAt? sources start base context = some resolution ∧
      (resolution.property.IsConsistent ↔
        ¬KeepsReference base context
            (PropertyBlock.lines base (Line.significant (start + 1) following)) ∧
          ¬KeepsItems base context
            (PropertyBlock.lines base (Line.significant (start + 1) following))) := by
  obtain ⟨following, hfollowing⟩ := Option.isSome_iff_exists.mp (isSome_fromIndex?_iff.mpr hstart)
  refine ⟨following, _, hfollowing, ?_, isConsistent_resolve_iff base context start
    (PropertyBlock.declaredBefore? sources start) (Line.significant (start + 1) following)⟩
  rw [PropertyBlock.resolveAt?, hfollowing]
  rfl

def toneLines : List String := ["  shade:", "    type: Tone", "    enum:"]

def shadeContext : PropertyContext := ⟨"Paint", "shade", .pascal, false⟩

/-- Counted from the end, too, the `enum:` makes text of the reference that stays. -/
theorem not_isConsistent_tone :
    ∃ resolution, PropertyBlock.resolveAt? toneLines (-2) 2 shadeContext = some resolution ∧
      ¬resolution.property.IsConsistent := by
  obtain ⟨following, resolution, hfollowing, hresolve, hconsistent⟩ :=
    resolveAt_isConsistent_iff toneLines (-2) 2 shadeContext (by decide)
  refine ⟨resolution, hresolve, fun h => (hconsistent.mp h).1 ?_⟩
  obtain rfl : ["    type: Tone", "    enum:"] ++ toneLines = following :=
    Option.some_inj.mp hfollowing
  have hblock : PropertyBlock.lines 2
        (Line.significant (-2 + 1) (["    type: Tone", "    enum:"] ++ toneLines)) =
      [⟨-1, 4, "type: Tone"⟩, ⟨0, 4, "enum:"⟩] := by
    decide +kernel
  rw [hblock]
  exact ⟨by decide +kernel, "Tone", [⟨0, 4, "enum:"⟩],
    ⟨⟨[], _, rfl, by rfl⟩, by decide +kernel⟩, by decide +kernel, by decide +kernel⟩

/-- An array behind an enum keeps its elements beside the reference. -/
theorem items_beside_reference :
    ∃ resolution,
      PropertyBlock.resolveAt?
          ["  shade:", "    enum:", "      - A", "    type: array", "    items: string"] 1 2
          shadeContext = some resolution ∧
        resolution.property.type = none ∧ resolution.property.items.isSome ∧
        ¬resolution.property.IsConsistent := by
  refine ⟨_, rfl, by decide +kernel, by decide +kernel, fun h => ?_⟩
  have htype := h.array_of_items (by decide +kernel)
  exact absurd htype (by decide +kernel)

end RamlSchema.Raml
