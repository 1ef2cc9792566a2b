import RamlSchema.Proofs.Raml.Sites

/-!
# Enums lifted out of properties

An enum in the middle of a property becomes a type of its own behind the declared ones, called after
the type and the property. The findings list it, and the property is rendered as a reference to it
alone, unless the same property is declared again.
-/

namespace RamlSchema.Raml

open Schema (propertySchema? referenceJson)

variable {convention : Convention} {site : Site} {enum : Declaration} {sited : SitedType}

/-- An enum that was lifted out of a property which a declared type has. -/
structure Declaration.IsLiftedFrom (enum : Declaration) (declared : List Declaration) : Prop where
  isEnum : enum.isEnum = true
  properties_eq : enum.properties = []
  required_eq : enum.required = []
  values_ne_nil : enum.values ≠ []
  origin : ∃ parent property, enum.origin = some ⟨parent, property⟩ ∧
    enum.name = liftedName parent property ∧
    ∃ type ∈ declared, type.name = parent ∧ property ∈ type.properties.keys

theorem Site.isLiftedFrom {declared : List SitedType}
    (hdeclared : sited ∈ declared) (hmade : sited.IsMade convention) (hsite : site ∈ sited.sites)
    (hlifted : site.liftedEnum convention = some enum) :
    enum.IsLiftedFrom (declared.map SitedType.type) := by
  obtain ⟨values, hvalues, rfl⟩ := Site.exists_of_liftedEnum hlifted
  refine ⟨rfl, rfl, rfl, hvalues, site.parent, site.name, rfl, rfl, sited.type,
    List.mem_map_of_mem hdeclared, (hmade.parent_eq site hsite).symm, hmade.name_mem_keys hsite⟩

theorem filterMap_map_eq {α β γ δ : Type} {f : α → Option β} {g : α → Option γ} {u : β → δ}
    {v : γ → δ} (heq : ∀ x, (f x).map u = (g x).map v) (xs : List α) :
    (xs.filterMap f).map u = (xs.filterMap g).map v := by
  rw [List.map_filterMap, List.map_filterMap]
  exact congrArg (List.filterMap · xs) (funext heq)

/-- What a file declares, with the sites of properties, and what was lifted out of it. -/
structure Parsed.LiftsIntact (parsed : Parsed) (convention : Convention) (content : String)
    (declared : List SitedType) (lifted : List Declaration) : Prop where
  types_eq : parsed.types = declared.map SitedType.type ++ lifted
  sited : Sited convention (Line.significant 1 (Text.lines content))
    (Line.significant 1 (Text.lines content)) declared lifted parsed.findings.lifts
  isLifted : ∀ enum ∈ lifted, enum.IsLiftedFrom (declared.map SitedType.type)
  findings_eq : parsed.findings.lifts.map (fun finding => (finding.name, finding.values)) =
    lifted.map fun enum => (enum.name, enum.values)
  rendered : ∀ sited ∈ declared, ∀ before site after, sited.sites = before ++ site :: after →
    (∀ later ∈ after, later.name ≠ site.name) →
      ∀ enum, site.liftedEnum convention = some enum →
        ∃ property, sited.type.properties.get? site.name = some property ∧
          propertySchema? site.name property =
            some (referenceJson ("./common/enums/" ++ (Target.enum enum.name).fileName convention))

theorem Sited.liftsIntact {content : String} {parsed : Parsed} {declared : List SitedType}
    {lifted : List Declaration} (htypes : parsed.types = declared.map SitedType.type ++ lifted)
    (hsited : Sited convention (Line.significant 1 (Text.lines content))
      (Line.significant 1 (Text.lines content)) declared lifted parsed.findings.lifts) :
    parsed.LiftsIntact convention content declared lifted := by
  refine ⟨htypes, hsited, ?_, ?_, ?_⟩
  · intro enum henum
    rw [hsited.lifted_eq] at henum
    obtain ⟨site, hsite, hlifted⟩ := List.mem_filterMap.mp henum
    obtain ⟨sited, hdeclared, hsite⟩ := List.mem_flatMap.mp hsite
    exact Site.isLiftedFrom hdeclared (hsited.isMade sited hdeclared) hsite hlifted
  · rw [hsited.lifts_eq, hsited.lifted_eq]
    exact filterMap_map_eq (Site.map_lift convention) _
  · intro sited hdeclared before site after hsites hlast enum hlifted
    refine ⟨_, (hsited.isMade sited hdeclared).get?_properties hsites hlast, ?_⟩
    refine propertySchema?_of_reference (Site.reference_of_liftedEnum hlifted) ?_
    simp

theorem Source.exists_liftsIntact {content stem : String} {source : Option String} {parsed : Parsed}
    (hparse : Source.parse convention content stem source = .ok parsed) :
    ∃ declared lifted, parsed.LiftsIntact convention content declared lifted := by
  obtain ⟨declared, lifted, htypes, hsited⟩ := Source.exists_sited hparse
  exact ⟨declared, lifted, hsited.liftsIntact htypes⟩

theorem Source.exists_parse_iff (convention : Convention) (content stem : String)
    (source : Option String) :
    (∃ parsed, Source.parse convention content stem source = .ok parsed) ↔
      ∀ line ∈ Text.lines content, Source.hasTab line = false := by
  have hfirst : Source.firstTab? (Text.lines content) = none ↔
      ∀ line ∈ Text.lines content, Source.hasTab line = false := by
    simp [Source.firstTab?, List.findIdx?_eq_none_iff]
  rw [← hfirst, Source.parse]
  dsimp only
  cases Source.firstTab? (Text.lines content) <;> simp

theorem Parsed.LiftsIntact.filter_types {parsed : Parsed} {content : String}
    {declared : List SitedType} {lifted : List Declaration}
    (h : parsed.LiftsIntact convention content declared lifted) :
    parsed.types.filter (·.origin.isSome) = lifted := by
  have hdeclared : (declared.map SitedType.type).filter (·.origin.isSome) = [] := by
    rw [List.filter_eq_nil_iff]
    intro type htype
    obtain ⟨sited, hsited, rfl⟩ := List.mem_map.mp htype
    simp [(h.sited.isMade sited hsited).origin_eq]
  have hlifted : lifted.filter (·.origin.isSome) = lifted := by
    rw [List.filter_eq_self]
    intro enum henum
    obtain ⟨parent, property, horigin, -⟩ := (h.isLifted enum henum).origin
    simp [horigin]
  rw [h.types_eq, List.filter_append, hdeclared, hlifted, List.nil_append]

theorem Source.isEnum_of_origin {content stem : String} {source : Option String} {parsed : Parsed}
    (hparse : Source.parse convention content stem source = .ok parsed)
    (hmem : enum ∈ parsed.types) (horigin : enum.origin.isSome = true) : enum.isEnum = true := by
  obtain ⟨declared, lifted, hlifts⟩ := Source.exists_liftsIntact hparse
  refine (hlifts.isLifted enum ?_).isEnum
  rw [← hlifts.filter_types]
  exact List.mem_filter.mpr ⟨hmem, horigin⟩

end RamlSchema.Raml
