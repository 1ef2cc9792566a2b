import RamlSchema.Proofs.Raml.BlockFacets

/-!
# The order of facets

A property with at most one facet of each kind means the same in whatever order they stand. Facets
of different kinds say different things of it, an enum and a type apart: both set the type, so a
property block does depend on which of the two comes last. But an enum with values takes the place
of the type in the end, and what the type would have been does not show.
-/

namespace RamlSchema.Raml

open Schema (propertySchema? referenceJson)

variable {base : Int} {convention : Convention} {context : PropertyContext}
  {facets facets' : List BlockFacet}

/-! ### Facets of different kinds -/

/-- All that is known of a property but its type. -/
def Property.untyped (property : Property) : Property := { property with type := none }

theorem addFacet_comm {facet other : BlockFacet} (hkind : facet.kind ≠ other.kind)
    (hfacet : facet.kind ≠ .enum) (hother : other.kind ≠ .enum) (property : Property) :
    (property.addFacet context facet).addFacet context other =
      (property.addFacet context other).addFacet context facet := by
  cases facet <;> cases other <;> first | rfl | contradiction

theorem untyped_addFacet_comm {facet other : BlockFacet} (hkind : facet.kind ≠ other.kind)
    (property : Property) :
    ((property.addFacet context facet).untyped.addFacet context other).untyped =
      ((property.addFacet context other).untyped.addFacet context facet).untyped := by
  cases facet <;> cases other <;> first | rfl | contradiction

theorem untyped_addFacet (property : Property) (facet : BlockFacet) :
    (property.untyped.addFacet context facet).untyped =
      (property.addFacet context facet).untyped := by
  cases facet <;> rfl

theorem untyped_foldl_addFacet (facets : List BlockFacet) (property : Property) :
    (facets.foldl (Property.addFacet context) property).untyped =
      facets.foldl (fun p facet => (p.addFacet context facet).untyped) property.untyped := by
  induction facets generalizing property with
  | nil => rfl
  | cons facet facets ih => rw [List.foldl_cons, List.foldl_cons, ih, untyped_addFacet]

theorem foldl_addFacet_perm (hperm : facets.Perm facets')
    (hdistinct : (facets.map (·.kind)).Nodup) (henum : ∀ facet ∈ facets, facet.kind ≠ .enum)
    (property : Property) :
    facets.foldl (Property.addFacet context) property =
      facets'.foldl (Property.addFacet context) property := by
  apply foldl_eq_of_perm hperm hdistinct
  intro facet hfacet other hother hkind
  exact addFacet_comm hkind (henum facet hfacet) (henum other hother)

/-- The type alone depends on the order of an enum and a type. -/
theorem untyped_foldl_addFacet_perm (context : PropertyContext) (hperm : facets.Perm facets')
    (hdistinct : (facets.map (·.kind)).Nodup) (property : Property) :
    (facets.foldl (Property.addFacet context) property).untyped =
      (facets'.foldl (Property.addFacet context) property).untyped := by
  rw [untyped_foldl_addFacet, untyped_foldl_addFacet]
  apply foldl_eq_of_perm hperm hdistinct
  intro facet _ other _ hkind
  exact untyped_addFacet_comm hkind

/-! ### Written facets -/

/-- A facet with all that belongs to it. -/
inductive FacetText where
  | description (text : String)
  | type (token : String)
  | enum (values : List String)
  | items (token : String)
  deriving DecidableEq

namespace FacetText

def kind : FacetText → FacetKind
  | .description _ => .description
  | .type _ => .type
  | .enum _ => .enum
  | .items _ => .items

def values : FacetText → List String
  | .enum values => values
  | _ => []

def blockFacet (convention : Convention) : FacetText → BlockFacet
  | .description text => .description text
  | .type token => .type token
  | .enum _ => .enum
  | .items token => .items (some (PropertyBlock.itemsOf convention token))

@[simp]
theorem kind_blockFacet (facet : FacetText) : (facet.blockFacet convention).kind = facet.kind := by
  cases facet <;> rfl

theorem values_eq_nil {facet : FacetText} (hkind : facet.kind ≠ .enum) : facet.values = [] := by
  cases facet <;> first | rfl | exact absurd rfl hkind

/-- The lines of a facet below a declaration that is indented by `base`. The elements' type stands
behind `items:` or under it, and the values of an enum among the lines under `enum:`. -/
inductive IsWritten (base : Int) : FacetText → List Line → Prop
  | description {line : Line} {text : String} (hindent : line.indent = base + 2)
      (hline : Line.facet? "description:" line.text = some text) :
      IsWritten base (.description text) [line]
  | type {line : Line} {token : String} (hindent : line.indent = base + 2)
      (hline : Line.facet? "type:" line.text = some token) :
      IsWritten base (.type token) [line]
  | enum {line : Line} {under : List Line} {values : List String} (hindent : line.indent = base + 2)
      (hline : line.text = "enum:") (hunder : ∀ entry ∈ under, base + 2 < entry.indent)
      (hvalues : under.filterMap (PropertyBlock.value? base) = values) (hne : values ≠ []) :
      IsWritten base (.enum values) (line :: under)
  | items {line : Line} {token : String} (hindent : line.indent = base + 2)
      (hline : Line.facet? "items:" line.text = some token) (hne : token ≠ "") :
      IsWritten base (.items token) [line]
  | nestedItems {line under : Line} {token : String} (hindent : line.indent = base + 2)
      (hline : line.text = "items:") (hunder : under.indent = base + 4)
      (htoken : Line.facet? "type:" under.text = some token) :
      IsWritten base (.items token) [line, under]

/-- A block that consists of facets, each with the lines that belong to it. -/
inductive Arranged (base : Int) : List FacetText → List Line → Prop
  | nil : Arranged base [] []
  | cons {facet : FacetText} {facets : List FacetText} {part rest : List Line}
      (hpart : facet.IsWritten base part) (hrest : Arranged base facets rest) :
      Arranged base (facet :: facets) (part ++ rest)

end FacetText

/-! ### Reading what is written -/

namespace FacetText

variable {facet : FacetText} {texts texts' : List FacetText} {part block rest : List Line}

/-- No later line of a facet is a facet of the block. -/
theorem IsWritten.exists_cons (hpart : facet.IsWritten base part) :
    ∃ line under, part = line :: under ∧ line.indent = base + 2 ∧
      ∀ l ∈ under, base + 2 < l.indent := by
  cases hpart with
  | description hindent | type hindent | items hindent => exact ⟨_, [], rfl, hindent, nofun⟩
  | enum hindent _ hunder => exact ⟨_, _, rfl, hindent, hunder⟩
  | nestedItems hindent _ hunder =>
    refine ⟨_, _, rfl, hindent, ?_⟩
    rw [List.forall_mem_singleton, hunder]
    omega

theorem Arranged.head?_indent_le (h : Arranged base texts block) :
    ∀ line ∈ block.head?, line.indent ≤ base + 2 := by
  cases h with
  | nil => exact nofun
  | cons hpart _ =>
    obtain ⟨line, under, rfl, hindent, -⟩ := hpart.exists_cons
    intro first hfirst
    obtain rfl := Option.some_inj.mp hfirst
    exact Int.le_of_eq hindent

theorem IsWritten.blockFacets_eq (hpart : facet.IsWritten base part) :
    blockFacets base convention part = [facet.blockFacet convention] := by
  obtain ⟨line, under, hlines, hindent, hunder⟩ := hpart.exists_cons
  rw [hlines, blockFacets, blockFacets_of_deep hunder, blockFacet?, if_pos hindent, List.append_nil]
  cases hpart with
  | description _ hline =>
    obtain ⟨rfl, rfl⟩ := List.cons.inj hlines
    rw [ofText?_of_description hline]
    rfl
  | type _ hline =>
    obtain ⟨rfl, rfl⟩ := List.cons.inj hlines
    rw [ofText?_of_type hline]
    rfl
  | enum _ hline =>
    obtain ⟨rfl, rfl⟩ := List.cons.inj hlines
    rw [Facet.ofText?_eq_enum_iff.mpr hline]
    rfl
  | items _ hline hne =>
    obtain ⟨rfl, rfl⟩ := List.cons.inj hlines
    have hempty : String.isEmpty _ = false := String.isEmpty_eq_false_iff.mpr hne
    rw [ofText?_of_items hline, Option.map_some, Raml.blockFacet, hempty]
    rfl
  | nestedItems _ hline hnested htoken =>
    obtain ⟨rfl, rfl⟩ := List.cons.inj hlines
    rw [hline]
    exact congrArg (fun items => [BlockFacet.items items])
      (nestedItems_cons hnested htoken convention [])

theorem Arranged.blockFacets_eq (h : Arranged base texts block) :
    blockFacets base convention block = texts.map (blockFacet convention) := by
  induction h with
  | nil => rfl
  | cons hpart hrest ih =>
    rw [blockFacets_append hrest.head?_indent_le, hpart.blockFacets_eq, ih, List.map_cons,
      List.singleton_append]

theorem IsWritten.filterMap_value? (hpart : facet.IsWritten base part) :
    part.filterMap (PropertyBlock.value? base) = facet.values := by
  obtain ⟨line, under, hlines, hindent, -⟩ := hpart.exists_cons
  have hline : PropertyBlock.value? base line = none := by
    rw [PropertyBlock.value?, if_neg (by omega)]
  rw [hlines, List.filterMap_cons_none hline]
  cases hpart with
  | enum _ _ _ hvalues =>
    obtain ⟨rfl, rfl⟩ := List.cons.inj hlines
    exact hvalues
  | nestedItems _ _ hnested htoken =>
    obtain ⟨rfl, rfl⟩ := List.cons.inj hlines
    have hvalue := entry?_of_facet? (by decide) (by decide) htoken
    rw [List.filterMap_cons_none (by rw [PropertyBlock.value?, if_pos hnested, hvalue])]
    rfl
  | description | type | items =>
    obtain ⟨rfl, rfl⟩ := List.cons.inj hlines
    rfl

theorem Arranged.filterMap_value? (h : Arranged base texts block) :
    block.filterMap (PropertyBlock.value? base) = texts.flatMap values := by
  induction h with
  | nil => rfl
  | cons hpart hrest ih =>
    rw [List.filterMap_append, hpart.filterMap_value?, ih, List.flatMap_cons]

theorem IsWritten.not_opensEnum (hpart : facet.IsWritten base part) (hkind : facet.kind ≠ .enum) :
    ∀ line ∈ part, PropertyBlock.opensEnum base line = false := by
  have htext : ∀ line ∈ part, line.indent = base + 2 → line.text ≠ "enum:" := by
    cases hpart with
    | enum => exact absurd rfl hkind
    | description _ hline | type _ hline | items _ hline =>
      rw [List.forall_mem_singleton]
      exact fun _ => ne_enum_of_facet? (by decide) (by decide) hline
    | nestedItems _ hline hnested =>
      rw [List.forall_mem_cons, List.forall_mem_singleton, hline]
      exact ⟨fun _ => by decide, fun hindent => by omega⟩
  intro line hline
  apply Bool.eq_false_iff.mpr
  intro hopens
  obtain ⟨hindent, henum⟩ := PropertyBlock.opensEnum_iff.mp hopens
  exact htext line hline hindent henum

/-- Only an enum has values, so they all stand behind the first `enum:` of a block. -/
theorem Arranged.enumValues_eq (h : Arranged base texts block) :
    PropertyBlock.enumValues base block = texts.flatMap values := by
  have hvalues := h.filterMap_value?
  induction h with
  | nil => rfl
  | @cons facet texts part rest hpart hrest ih =>
    by_cases hkind : facet.kind = .enum
    · have hfirst : (part ++ rest).dropWhile (fun line => !PropertyBlock.opensEnum base line) =
          part ++ rest := by
        cases hpart with
        | enum hindent hline =>
          have hopens := PropertyBlock.opensEnum_iff.mpr ⟨hindent, hline⟩
          rw [List.cons_append, List.dropWhile_cons_of_neg (by simp [hopens])]
        | _ => cases hkind
      rw [PropertyBlock.enumValues, hfirst, hvalues]
    · have hskip : ∀ line ∈ part, (!PropertyBlock.opensEnum base line) = true := by
        intro line hline
        rw [hpart.not_opensEnum hkind line hline]
        rfl
      rw [PropertyBlock.enumValues, List.dropWhile_append_of_pos hskip, List.flatMap_cons,
        values_eq_nil hkind, List.nil_append]
      exact ih hrest.filterMap_value?

theorem Arranged.values_ne_nil (h : Arranged base texts block) :
    ∀ facet ∈ texts, facet.kind = .enum → facet.values ≠ [] := by
  induction h with
  | nil => exact nofun
  | cons hpart _ ih =>
    rw [List.forall_mem_cons]
    refine ⟨fun hkind => ?_, ih⟩
    cases hpart with
    | enum _ _ _ _ hne => exact hne
    | _ => cases hkind

end FacetText

/-! ### Any order -/

section Order

variable {sources sources' : List String} {start start' : Nat} {texts texts' : List FacetText}

theorem flatMap_values_perm (hperm : texts.Perm texts') (hdistinct : (texts.map (·.kind)).Nodup) :
    texts.flatMap FacetText.values = texts'.flatMap FacetText.values := by
  rw [List.flatMap_eq_foldl, List.flatMap_eq_foldl]
  apply foldl_eq_of_perm hperm hdistinct
  intro facet _ other _ hkind values
  by_cases hfacet : facet.kind = .enum
  · have hother : other.kind ≠ .enum := fun h => hkind (hfacet.trans h.symm)
    rw [FacetText.values_eq_nil hother, List.append_nil, List.append_nil]
  · rw [FacetText.values_eq_nil hfacet, List.append_nil, List.append_nil]

/-- **The order of facets does not matter.** Blocks with the same facets, at most one of each kind,
are resolved alike: in whatever order the facets stand, and whether the type of an array's elements
stands behind `items:` or under it. -/
theorem resolve_facets_perm (hdistinct : (texts.map (·.kind)).Nodup) (hperm : texts.Perm texts')
    (hblock : FacetText.Arranged base texts (PropertyBlock.blockAt sources start base))
    (hblock' : FacetText.Arranged base texts' (PropertyBlock.blockAt sources' start' base)) :
    ∃ resolution resolution',
      PropertyBlock.resolveAt? sources start base context = some resolution ∧
        PropertyBlock.resolveAt? sources' start' base context = some resolution' ∧
        propertySchema? context.property resolution.property =
          propertySchema? context.property resolution'.property ∧
        resolution.property.description = resolution'.property.description ∧
        resolution.property.token = resolution'.property.token ∧
        resolution.liftedEnum = resolution'.liftedEnum := by
  refine ⟨_, _, rfl, rfl, ?_⟩
  have hvalues := flatMap_values_perm hperm hdistinct
  have hkinds : ((texts.map (FacetText.blockFacet context.convention)).map (·.kind)).Nodup := by
    simpa [Function.comp_def] using hdistinct
  have hfacets := hperm.map (FacetText.blockFacet context.convention)
  rw [PropertyBlock.blockAt] at hblock hblock'
  rw [property_resolve, property_resolve, PropertyBlock.liftedEnum_resolve,
    PropertyBlock.liftedEnum_resolve, plainBlockProperty, plainBlockProperty, readProperty,
    readProperty,
    hblock.enumValues_eq, hblock'.enumValues_eq, hblock.blockFacets_eq, hblock'.blockFacets_eq,
    hvalues]
  by_cases hempty : texts'.flatMap FacetText.values = []
  -- An enum always has values, so without any there is none that could set the type.
  · have hnone : ∀ facet ∈ texts.map (FacetText.blockFacet context.convention),
        facet.kind ≠ .enum := by
      rw [List.forall_mem_map]
      intro facet hfacet
      rw [FacetText.kind_blockFacet]
      intro hkind
      rw [hempty, List.flatMap_eq_nil_iff] at hvalues
      exact hblock.values_ne_nil facet hfacet hkind (hvalues facet hfacet)
    rw [foldl_addFacet_perm hfacets hkinds hnone]
    exact ⟨rfl, rfl, rfl, rfl⟩
  -- With values the reference to the enum hides the type, and all else is in no order.
  · have hsame := untyped_foldl_addFacet_perm context hfacets hkinds {}
    have hlifted : (texts'.flatMap FacetText.values).isEmpty = false := by simpa using hempty
    simp only [hlifted, Bool.false_eq_true, if_false, description_dropStrayItems,
      token_dropStrayItems]
    have hdescription := congrArg Property.description hsame
    have htoken := congrArg Property.token hsame
    have hne : liftedReference context ≠ "" := reference_ne_empty context.convention _
    refine ⟨?_, hdescription, htoken, trivial⟩
    rw [propertySchema?_of_reference rfl hne, propertySchema?_of_reference rfl hne]

end Order

def shadeLines : List String :=
  ["  shade:", "    type: array", "    items: Tone?", "    description: Paint", "    enum:",
    "      - Dark", "      - Light"]

def reorderedShadeLines : List String :=
  ["  shade:", "    enum:", "      - Dark", "", "      - Light", "    items:", "      # of paint",
    "      type: Tone?", "    type: array", "    description: Paint"]

theorem resolve_facets_perm_shade :
    ∃ resolution resolution',
      PropertyBlock.resolveAt? shadeLines 1 2 ⟨"Paint", "shade", .pascal, false⟩ =
          some resolution ∧
        PropertyBlock.resolveAt? reorderedShadeLines 1 2 ⟨"Paint", "shade", .pascal, false⟩ =
          some resolution' ∧
        propertySchema? "shade" resolution.property =
          propertySchema? "shade" resolution'.property ∧
        resolution.property.description = resolution'.property.description ∧
        resolution.property.token = resolution'.property.token ∧
        resolution.liftedEnum = resolution'.liftedEnum := by
  have hblock : PropertyBlock.blockAt shadeLines 1 2 =
      [⟨2, 4, "type: array"⟩] ++ ([⟨3, 4, "items: Tone?"⟩] ++ ([⟨4, 4, "description: Paint"⟩] ++
        ([⟨5, 4, "enum:"⟩, ⟨6, 6, "- Dark"⟩, ⟨7, 6, "- Light"⟩] ++ []))) := by
    decide +kernel
  have hblock' : PropertyBlock.blockAt reorderedShadeLines 1 2 =
      [⟨2, 4, "enum:"⟩, ⟨3, 6, "- Dark"⟩, ⟨5, 6, "- Light"⟩] ++
        ([⟨6, 4, "items:"⟩, ⟨8, 6, "type: Tone?"⟩] ++ ([⟨9, 4, "type: array"⟩] ++
          ([⟨10, 4, "description: Paint"⟩] ++ []))) := by
    decide +kernel
  have hperm : List.Perm
      [FacetText.type "array", .items "Tone?", .description "Paint", .enum ["Dark", "Light"]]
      [.enum ["Dark", "Light"], .items "Tone?", .type "array", .description "Paint"] := by
    decide
  refine resolve_facets_perm (by decide) hperm ?_ ?_
  · rw [hblock]
    exact .cons (.type rfl (by decide +kernel)) <|
      .cons (.items rfl (by decide +kernel) (by decide)) <|
      .cons (.description rfl (by decide +kernel)) <|
      .cons (.enum rfl rfl (by decide) (by decide +kernel) (by decide)) .nil
  · rw [hblock']
    exact .cons (.enum rfl rfl (by decide) (by decide +kernel) (by decide)) <|
      .cons (.nestedItems rfl rfl rfl (by decide +kernel)) <|
      .cons (.type rfl (by decide +kernel)) <| .cons (.description rfl (by decide +kernel)) .nil

end RamlSchema.Raml
