import RamlSchema.Proofs.Lists
import RamlSchema.Proofs.Raml.Sections
import RamlSchema.Schema.Document

/-!
# The sites of properties

Every property of a file is declared at a site of its own: a line with a heading, and the lines that
follow it. The properties of a type are what its sites say, the last site of a name first, and the
lifted enums are those of all sites in the order of the file. The findings say the same.
-/

namespace RamlSchema.Raml

open Report (LiftFinding)
open Schema (propertySchema? referenceJson)

/-! ### What a block lifts -/

namespace PropertyBlock

variable {base : Int} {context : PropertyContext} {line : Int} {declared : Option String}
  {following : List Line}

/-- A property block either lifts nothing, or an enum of at least one value. -/
theorem resolve_cases (base : Int) (context : PropertyContext) (line : Int)
    (declared : Option String) (following : List Line) :
    ((resolve base context line declared following).liftedEnum = none ∧
        (resolve base context line declared following).lift = none) ∨
      ∃ enumLine values resolution, values ≠ [] ∧
        resolve base context line declared following = lift context enumLine values resolution := by
  unfold resolve
  dsimp only
  split
  case h_1 enumLine _ =>
    split
    case isTrue => exact .inl ⟨rfl, rfl⟩
    case isFalse hvalues => exact .inr ⟨enumLine, _, _, by simpa using hvalues, rfl⟩
  case h_2 => exact .inl ⟨rfl, rfl⟩

theorem property_of_liftedEnum {enum : Declaration}
    (hlifted : (resolve base context line declared following).liftedEnum = some enum) :
    (resolve base context line declared following).property.reference =
      some ((Target.enum enum.name).reference context.convention) := by
  rcases resolve_cases base context line declared following with ⟨hnone, -⟩ |
    ⟨enumLine, values, resolution, -, hlift⟩
  · rw [hnone] at hlifted
    cases hlifted
  · rw [hlift] at hlifted ⊢
    obtain rfl := Option.some_inj.mp hlifted
    rfl

theorem lift_eq_liftedEnum (base : Int) (context : PropertyContext) (line : Int)
    (declared : Option String) (following : List Line) :
    (resolve base context line declared following).lift.map
        (fun finding => (finding.name, finding.values)) =
      (resolve base context line declared following).liftedEnum.map
        (fun enum => (enum.name, enum.values)) := by
  rcases resolve_cases base context line declared following with ⟨hnone, hnone'⟩ |
    ⟨enumLine, values, resolution, -, hlift⟩
  · rw [hnone, hnone']
    rfl
  · rw [hlift]
    rfl

end PropertyBlock

theorem reference_ne_empty (convention : Convention) (target : Target) :
    target.reference convention ≠ "" := by
  cases target <;> simp [Target.reference, Target.enumDirectory]

/-- A property with a reference is rendered as that reference alone. -/
theorem propertySchema?_of_reference {name reference : String} {property : Property}
    (hreference : property.reference = some reference) (hne : reference ≠ "") :
    propertySchema? name property = some (referenceJson reference) := by
  have hgiven : Schema.given property.reference = some reference := by
    simp [Schema.given, hreference, hne]
  rw [propertySchema?, hgiven]

/-! ### Sites -/

/-- The place where a property is declared: the heading on a line, in the type `parent`, and the
lines that follow it. -/
structure Site where
  parent : String
  heading : String
  line : Line
  following : List Line

namespace Site

def name (site : Site) : String := (propertyName site.heading).1

def resolution (convention : Convention) (site : Site) : Resolution :=
  resolveHeading convention site.parent site.heading site.line site.following

def liftedEnum (convention : Convention) (site : Site) : Option Declaration :=
  (site.resolution convention).liftedEnum

def lift (convention : Convention) (site : Site) : Option LiftFinding :=
  (site.resolution convention).lift

variable {convention : Convention} {site : Site} {enum : Declaration}

theorem exists_of_liftedEnum (hlifted : site.liftedEnum convention = some enum) :
    ∃ values, values ≠ [] ∧ enum =
      PropertyBlock.liftedEnumOf ⟨site.parent, site.name, convention,
        (propertyName site.heading).2⟩ values :=
  PropertyBlock.exists_of_liftedEnum_eq_some hlifted

theorem reference_of_liftedEnum (hlifted : site.liftedEnum convention = some enum) :
    (site.resolution convention).property.reference =
      some ((Target.enum enum.name).reference convention) :=
  PropertyBlock.property_of_liftedEnum hlifted

theorem map_lift (convention : Convention) (site : Site) :
    (site.lift convention).map (fun finding => (finding.name, finding.values)) =
      (site.liftedEnum convention).map (fun enum => (enum.name, enum.values)) :=
  PropertyBlock.lift_eq_liftedEnum ..

end Site

/-- A declared type with the sites of its properties. -/
structure SitedType where
  type : Declaration
  sites : List Site := []

/-- The properties of a type are what its sites say, and a later site takes the place of an earlier
one of the same name. -/
structure SitedType.IsMade (convention : Convention) (sited : SitedType) : Prop where
  origin_eq : sited.type.origin = none
  parent_eq : ∀ site ∈ sited.sites, site.parent = sited.type.name
  heading_eq : ∀ site ∈ sited.sites, Line.heading? site.line.text = some site.heading
  properties_eq : sited.type.properties = Entries.ofList (sited.sites.map fun site =>
    (site.name, (site.resolution convention).property))

/-- A type may change in what has no part in its properties. -/
theorem SitedType.IsMade.setType {convention : Convention} {sited : SitedType}
    (h : sited.IsMade convention) {type : Declaration} (hname : type.name = sited.type.name)
    (horigin : type.origin = sited.type.origin)
    (hproperties : type.properties = sited.type.properties) :
    IsMade convention { sited with type } :=
  ⟨horigin.trans h.origin_eq, fun site hsite => (h.parent_eq site hsite).trans hname.symm,
    h.heading_eq, hproperties.trans h.properties_eq⟩

theorem SitedType.IsMade.addSite {convention : Convention} {sited : SitedType}
    (h : sited.IsMade convention) {heading : String} {line : Line}
    (hheading : Line.heading? line.text = some heading) (following : List Line) :
    IsMade convention
      ⟨sited.type.addResolution heading
          (resolveHeading convention sited.type.name heading line following),
        sited.sites ++ [⟨sited.type.name, heading, line, following⟩]⟩ where
  origin_eq := h.origin_eq
  parent_eq := by
    intro site hsite
    rcases List.mem_append.mp hsite with hsite | hsite
    · exact h.parent_eq site hsite
    · rw [List.mem_singleton.mp hsite]
      rfl
  heading_eq := by
    intro site hsite
    rcases List.mem_append.mp hsite with hsite | hsite
    · exact h.heading_eq site hsite
    · rw [List.mem_singleton.mp hsite]
      exact hheading
  properties_eq := by
    rw [List.map_append, List.map_singleton, Entries.ofList_concat, ← h.properties_eq]
    rfl

/-- The property of the last site of a name is what that site says. -/
theorem SitedType.IsMade.get?_properties {convention : Convention} {sited : SitedType} {site : Site}
    (h : sited.IsMade convention) {before after : List Site}
    (hsites : sited.sites = before ++ site :: after)
    (hlast : ∀ later ∈ after, later.name ≠ site.name) :
    sited.type.properties.get? site.name = some (site.resolution convention).property := by
  have hnone : after.reverse.find? (fun later => decide (later.name = site.name)) = none := by
    rw [List.find?_eq_none]
    intro later hlater
    simpa using hlast later (List.mem_reverse.mp hlater)
  rw [h.properties_eq, Entries.get?_ofList, hsites, ← List.map_reverse, List.find?_map,
    Function.comp_def]
  simp [List.find?_append, hnone]

theorem SitedType.IsMade.name_mem_keys {convention : Convention} {sited : SitedType} {site : Site}
    (h : sited.IsMade convention) (hsite : site ∈ sited.sites) :
    site.name ∈ sited.type.properties.keys := by
  rw [h.properties_eq, Entries.mem_keys_ofList_iff, List.map_map]
  exact List.mem_map_of_mem hsite

/-- Every property of a type is what the last site of its name says. -/
theorem SitedType.IsMade.exists_site {convention : Convention} {sited : SitedType} {name : String}
    {property : Property} (h : sited.IsMade convention)
    (hproperty : sited.type.properties.get? name = some property) :
    ∃ before site after, sited.sites = before ++ site :: after ∧ site.name = name ∧
      (∀ later ∈ after, later.name ≠ site.name) ∧
      (site.resolution convention).property = property := by
  have hmem : ∃ site ∈ sited.sites, site.name = name := by
    have hkey := (Entries.mem_keys_iff _ _).mpr ⟨property, hproperty⟩
    rw [h.properties_eq, Entries.mem_keys_ofList_iff, List.map_map] at hkey
    exact List.mem_map.mp hkey
  obtain ⟨before, site, after, hsites, hname, hafter⟩ := exists_last_of_exists hmem
  have hlast : ∀ later ∈ after, later.name ≠ site.name := hname ▸ hafter
  refine ⟨before, site, after, hsites, hname, hlast, ?_⟩
  have hget := h.get?_properties hsites hlast
  rw [hname, hproperty] at hget
  exact (Option.some_inj.mp hget).symm

/-- What has been read of a file while the lines `before` have been: types with their sites, and
what was lifted out of them. -/
structure Sited (convention : Convention) (lines before : List Line) (types : List SitedType)
    (lifted : List Declaration) (lifts : List LiftFinding) : Prop where
  isMade : ∀ sited ∈ types, sited.IsMade convention
  lifted_eq : lifted = (types.flatMap SitedType.sites).filterMap (Site.liftedEnum convention)
  lifts_eq : lifts = (types.flatMap SitedType.sites).filterMap (Site.lift convention)
  inOrder : ((types.flatMap SitedType.sites).map (·.line)).Sublist before
  place_eq : ∀ site ∈ types.flatMap SitedType.sites,
    ∃ front, lines = front ++ site.line :: site.following

namespace Sited

variable {convention : Convention} {lines before : List Line} {types : List SitedType}
  {lifted : List Declaration} {lifts : List LiftFinding}

theorem nil (convention : Convention) (lines before : List Line) :
    Sited convention lines before [] [] [] :=
  ⟨List.forall_mem_nil _, rfl, rfl, List.nil_sublist _, List.forall_mem_nil _⟩

theorem skip (h : Sited convention lines before types lifted lifts) (line : Line) :
    Sited convention lines (before ++ [line]) types lifted lifts :=
  ⟨h.isMade, h.lifted_eq, h.lifts_eq, h.inOrder.trans (List.sublist_append_left before [line]),
    h.place_eq⟩

theorem addType (h : Sited convention lines before types lifted lifts) {type : Declaration}
    (horigin : type.origin = none) (hproperties : type.properties = []) :
    Sited convention lines before (types ++ [⟨type, []⟩]) lifted lifts where
  isMade := by
    intro sited hsited
    rcases List.mem_append.mp hsited with hsited | hsited
    · exact h.isMade sited hsited
    · rw [List.mem_singleton.mp hsited]
      exact ⟨horigin, List.forall_mem_nil _, List.forall_mem_nil _, hproperties⟩
  lifted_eq := by simpa using h.lifted_eq
  lifts_eq := by simpa using h.lifts_eq
  inOrder := by simpa using h.inOrder
  place_eq := by simpa using h.place_eq

theorem setType (types : List SitedType) {sited : SitedType}
    (h : Sited convention lines before (types ++ [sited]) lifted lifts)
    {type : Declaration} (hname : type.name = sited.type.name)
    (horigin : type.origin = sited.type.origin)
    (hproperties : type.properties = sited.type.properties) :
    Sited convention lines before (types ++ [{ sited with type }]) lifted lifts where
  isMade := by
    intro made hmade
    rcases List.mem_append.mp hmade with hmade | hmade
    · exact h.isMade made (List.mem_append_left _ hmade)
    · rw [List.mem_singleton.mp hmade]
      exact (h.isMade sited (by simp)).setType hname horigin hproperties
  lifted_eq := by simpa using h.lifted_eq
  lifts_eq := by simpa using h.lifts_eq
  inOrder := by simpa using h.inOrder
  place_eq := by simpa using h.place_eq

theorem flatMap_sites_append (types : List SitedType) (sited : SitedType) (type : Declaration)
    (site : Site) :
    (types ++ [(⟨type, sited.sites ++ [site]⟩ : SitedType)]).flatMap SitedType.sites =
      (types ++ [sited]).flatMap SitedType.sites ++ [site] := by
  simp

theorem filterMap_concat {α β : Type} (f : α → Option β) (xs : List α) (x : α) :
    (xs ++ [x]).filterMap f = xs.filterMap f ++ (f x).toList := by
  rw [List.filterMap_append]
  cases hx : f x <;> simp [hx]

theorem addSite (types : List SitedType) {sited : SitedType}
    (h : Sited convention lines before (types ++ [sited]) lifted lifts)
    {heading : String} {line : Line} (hheading : Line.heading? line.text = some heading)
    {following : List Line} (hlines : lines = before ++ line :: following)
    {resolution : Resolution} (hresolution : resolution =
      resolveHeading convention sited.type.name heading line following) :
    Sited convention lines (before ++ [line])
      (types ++ [⟨sited.type.addResolution heading resolution,
        sited.sites ++ [⟨sited.type.name, heading, line, following⟩]⟩])
      (lifted ++ resolution.liftedEnum.toList) (lifts ++ resolution.lift.toList) where
  isMade := by
    intro made hmade
    rcases List.mem_append.mp hmade with hmade | hmade
    · exact h.isMade made (List.mem_append_left _ hmade)
    · rw [List.mem_singleton.mp hmade]
      subst hresolution
      exact (h.isMade sited (by simp)).addSite hheading following
  lifted_eq := by
    subst hresolution
    rw [h.lifted_eq, flatMap_sites_append, filterMap_concat]
    rfl
  lifts_eq := by
    subst hresolution
    rw [h.lifts_eq, flatMap_sites_append, filterMap_concat]
    rfl
  inOrder := by
    rw [flatMap_sites_append, List.map_append]
    exact h.inOrder.append (List.Sublist.refl [line])
  place_eq := by
    rw [flatMap_sites_append]
    intro site hsite
    rcases List.mem_append.mp hsite with hsite | hsite
    · exact h.place_eq site hsite
    · rw [List.mem_singleton.mp hsite]
      exact ⟨before, hlines⟩

end Sited

/-! ### Libraries -/

namespace Library

/-- The types that a pass has read, with the open one last. -/
structure Progress.Traces (progress : Progress) (convention : Convention) (lines before : List Line)
    (closed : List SitedType) (current : Option SitedType) : Prop where
  current_eq : progress.current = current.map (·.type)
  done_eq : progress.done = closed.map (·.type)
  sited : Sited convention lines before (closed ++ current.toList) progress.lifted
    progress.findings.lifts

variable {convention : Convention} {lines before following : List Line} {line : Line}
  {progress : Progress} {closed : List SitedType} {current : Option SitedType}

theorem Progress.Traces.skip (h : progress.Traces convention lines before closed current)
    (line : Line) :
    progress.Traces convention lines (before ++ [line]) closed current :=
  ⟨h.current_eq, h.done_eq, h.sited.skip line⟩

theorem Progress.Traces.close (h : progress.Traces convention lines before closed current) :
    progress.close.Traces convention lines before (closed ++ current.toList) none where
  current_eq := rfl
  done_eq := by
    rw [Progress.close, h.done_eq, h.current_eq]
    cases current <;> simp
  sited := by simpa [Progress.close] using h.sited

theorem readSection_traces (h : progress.Traces convention lines before closed current) :
    ∃ closed' current',
      (readSection line progress).Traces convention lines (before ++ [line]) closed' current' := by
  rw [readSection]
  split
  · exact ⟨closed, current, h.1, h.2, h.3.skip line⟩
  · split
    · have hclose := h.close.skip line
      exact ⟨_, none, hclose.1, hclose.2, hclose.3⟩
    · exact ⟨closed, current, h.skip line⟩

theorem readBody_traces {sited : SitedType}
    (h : progress.Traces convention lines before closed (some sited))
    (hlines : lines = before ++ line :: following) :
    ∃ current', (readBody convention line following sited.type progress).Traces convention lines
      (before ++ [line]) closed current' := by
  obtain ⟨hcurrent, hdone, hsited⟩ := h
  rw [readBody]
  split
  · obtain ⟨hname, horigin, hproperties, -⟩ := members_readFacet line sited.type
    exact ⟨some ⟨readFacet line sited.type, sited.sites⟩, rfl, hdone,
      (hsited.setType closed hname horigin hproperties).skip line⟩
  · split
    · rw [readMember]
      split
      · refine ⟨some ⟨sited.type.addEntry line.text, sited.sites⟩, rfl, hdone, ?_⟩
        refine Sited.skip (hsited.setType closed ?_ ?_ ?_) line <;> rw [Declaration.addEntry_eq]
      · cases hheading : Line.heading? line.text with
        | none => exact ⟨some sited, hcurrent, hdone, hsited.skip line⟩
        | some heading =>
          refine ⟨some ⟨sited.type.addResolution heading
              (resolveHeading convention sited.type.name heading line following),
            sited.sites ++ [⟨sited.type.name, heading, line, following⟩]⟩, rfl, hdone, ?_⟩
          exact hsited.addSite closed hheading hlines rfl
    · exact ⟨some sited, hcurrent, hdone, hsited.skip line⟩

theorem readLine_traces (h : progress.Traces convention lines before closed current)
    (hlines : lines = before ++ line :: following) :
    ∃ closed' current', (readLine convention line following progress).Traces convention lines
      (before ++ [line]) closed' current' := by
  rw [readLine]
  split
  · exact readSection_traces h
  · split
    · exact ⟨closed, current, h.skip line⟩
    · split
      case h_1 name _ =>
        have hclose := h.close.skip line
        refine ⟨closed ++ current.toList, some ⟨{ name }, []⟩, rfl, hclose.done_eq, ?_⟩
        have hsited := hclose.sited
        simp only [Option.toList_none, List.append_nil] at hsited
        exact hsited.addType rfl rfl
      case h_2 =>
        cases hcurrent : current with
        | none =>
          subst hcurrent
          rw [h.current_eq]
          exact ⟨closed, none, h.skip line⟩
        | some sited =>
          subst hcurrent
          rw [h.current_eq]
          exact ⟨closed, readBody_traces h hlines⟩

theorem read_traces {rest : List Line}
    (h : progress.Traces convention lines before closed current) (hlines : lines = before ++ rest) :
    ∃ types, (read convention progress rest).close.Traces convention lines lines types none := by
  induction rest generalizing progress before closed current with
  | nil =>
    rw [List.append_nil] at hlines
    subst hlines
    exact ⟨_, h.close⟩
  | cons line following ih =>
    obtain ⟨closed', current', hstep⟩ := readLine_traces h hlines
    exact ih hstep (by rw [hlines, List.append_assoc, List.singleton_append])

/-- The types of a library are those with sites, and the enums lifted out of these follow them. -/
theorem exists_sited (convention : Convention) (lines : List Line) :
    ∃ declared lifted, (types convention lines).1 = declared.map SitedType.type ++ lifted ∧
      Sited convention lines lines declared lifted (types convention lines).2.lifts := by
  have hstart : Progress.Traces {} convention lines [] [] none :=
    ⟨rfl, rfl, .nil convention lines []⟩
  obtain ⟨declared, hread⟩ := read_traces hstart rfl
  have hsited := hread.sited
  rw [Option.toList_none, List.append_nil] at hsited
  refine ⟨declared, (read convention {} lines).close.lifted, ?_, hsited⟩
  rw [types, hread.done_eq]

end Library

/-! ### Files of a single type -/

namespace SingleType

/-- The only type of a file with its sites. -/
structure Progress.Traces (progress : Progress) (convention : Convention) (lines before : List Line)
    (sites : List Site) : Prop where
  sited : Sited convention lines before [⟨progress.type, sites⟩] progress.lifted
    progress.findings.lifts

variable {convention : Convention} {lines before following : List Line} {line : Line}
  {progress : Progress} {sites : List Site}

theorem readFacet_traces (h : progress.Traces convention lines before sites) :
    (readFacet line progress).Traces convention lines (before ++ [line]) sites := by
  have hsited := h.sited.skip line
  rw [readFacet]
  split
  · exact ⟨Sited.setType [] hsited rfl rfl rfl⟩
  · split
    · exact ⟨Sited.setType [] hsited rfl rfl rfl⟩
    · split <;> exact ⟨hsited⟩

theorem readMember_traces (h : progress.Traces convention lines before sites)
    (hlines : lines = before ++ line :: following) :
    ∃ sites', (readMember convention line following progress).Traces convention lines
      (before ++ [line]) sites' := by
  rw [readMember]
  split
  · exact ⟨sites, ⟨h.sited.skip line⟩⟩
  · refine ⟨sites, ⟨?_⟩⟩
    refine Sited.skip (Sited.setType [] h.sited ?_ ?_ ?_) line <;>
      rw [Declaration.addEntry_eq]
  · split
    · exact ⟨sites, ⟨h.sited.skip line⟩⟩
    · rename_i heading hheading
      exact ⟨_, ⟨Sited.addSite [] h.sited hheading hlines rfl⟩⟩

theorem readLine_traces (h : progress.Traces convention lines before sites)
    (hlines : lines = before ++ line :: following) :
    ∃ sites', (readLine convention line following progress).Traces convention lines
      (before ++ [line]) sites' := by
  rw [readLine]
  split
  · exact ⟨sites, readFacet_traces h⟩
  · split
    · exact readMember_traces h hlines
    · exact ⟨sites, ⟨h.sited.skip line⟩⟩

theorem read_traces {rest : List Line} (h : progress.Traces convention lines before sites)
    (hlines : lines = before ++ rest) :
    ∃ sites', (read convention progress rest).Traces convention lines lines sites' := by
  induction rest generalizing progress before sites with
  | nil =>
    rw [List.append_nil] at hlines
    subst hlines
    exact ⟨sites, h⟩
  | cons line following ih =>
    obtain ⟨sites', hstep⟩ := readLine_traces h hlines
    exact ih hstep (by rw [hlines, List.append_assoc, List.singleton_append])

theorem exists_sited (convention : Convention) (stem : String) (lines : List Line) :
    ∃ declared lifted, (types convention stem lines).1 = declared.map SitedType.type ++ lifted ∧
      Sited convention lines lines declared lifted (types convention stem lines).2.lifts := by
  have hstart : Progress.Traces { type := { name := Naming.typeName stem } } convention lines [] []
    := ⟨(Sited.nil convention lines []).addType rfl rfl⟩
  obtain ⟨sites, hread⟩ := read_traces hstart rfl
  exact ⟨_, _, rfl, hread.sited⟩

end SingleType

/-! ### Any source file -/

/-- The types of a file are declared types with sites, and behind them the enums lifted out of
these, in the order of the sites. -/
theorem Source.exists_sited {convention : Convention} {content stem : String}
    {source : Option String} {parsed : Parsed}
    (hparse : parse convention content stem source = .ok parsed) :
    ∃ declared lifted, parsed.types = declared.map SitedType.type ++ lifted ∧
      Sited convention (Line.significant 1 (Text.lines content))
        (Line.significant 1 (Text.lines content)) declared lifted parsed.findings.lifts := by
  obtain ⟨htypes, hfindings⟩ := parse_eq_ok hparse
  rw [htypes, hfindings]
  unfold typesOf
  cases SourceFormat.ofContent content with
  | library => exact Library.exists_sited convention _
  | dataType => exact SingleType.exists_sited convention stem _

end RamlSchema.Raml
