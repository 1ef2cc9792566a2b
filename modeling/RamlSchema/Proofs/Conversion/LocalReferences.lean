import RamlSchema.Proofs.Conversion.LiftedEnums
import RamlSchema.Proofs.Raml.TypeFacets

/-!
# References to types by their plain names

A plain name refers to the object of that name. Where an object of that name was read, a completed
run has written the file that the reference leads to. An enum of that name lies elsewhere.
-/

namespace RamlSchema.Conversion

open Files (FileTree Path)
open Raml (Declaration Sited SitedType Target)
open Raml.TypeToken (IsPlainName)
open Report (Kind Run)
open Schema (objectSchema propertySchema? referenceJson)

variable {settings used : Settings} {input output : Path} {tree tree' : FileTree} {run : Run}
  {sources : List Path}

/-- A run has written a file for the objects of a name. If types have plain names, a reference to
such an object leads there from the directory of objects, and an object is what it leads to. -/
structure ObjectWritten (used : Settings) (output : Path) (types : List Declaration) (run : Run)
    (tree : FileTree) (name : String) : Prop where
  path_mem : (output.child Schema.objectDirectory).child
    ((Target.object name).fileName used.convention) ∈ outputPaths used output run
  holds : (∀ kind, ∀ name ∈ run.names kind, '/' ∉ name.toList) →
    ∃ type ∈ types, type.isEnum = false ∧
      Holds tree ((output.child Schema.objectDirectory).child
        ("./" ++ (Target.object name).fileName used.convention)) (objectSchema used.dialect type)

theorem Completed.objectWritten
    (h : Completed settings input output tree tree' run used sources) {object : Declaration}
    (hobject : object ∈ typesRead used.convention tree sources) (hisEnum : object.isEnum = false) :
    ObjectWritten used output (typesRead used.convention tree sources) run tree' object.name := by
  have hname := h.mem_names_of_mem_typesRead hobject
  obtain ⟨hwritten, hholds⟩ := h.written_of_mem_typesRead hobject
  rw [kindOf_eq_object_iff.mpr hisEnum] at hname hwritten hholds
  refine ⟨hwritten, fun hnames => ?_⟩
  obtain ⟨type, hmem, htype, hholds⟩ := hholds hnames
  have htypeEnum := kindOf_eq_object_iff.mp htype
  rw [Schema.document, htypeEnum, if_neg Bool.false_ne_true,
    ← child_object_reference (hnames .object object.name hname)] at hholds
  exact ⟨type, hmem, htypeEnum, hholds⟩

/-- **A plain name refers to the object of that name**, unless an enum is lifted out of the
property. The file of an object that a run has read is written where such references lead to. -/
theorem plain_names_refer_to_objects (convention : Convention) (content stem : String)
    (source : Option String) :
    (∀ parsed, Raml.Source.parse convention content stem source = .ok parsed →
      ∃ declared lifted, parsed.types = declared.map SitedType.type ++ lifted ∧
        Sited convention (Raml.Line.significant 1 (Text.lines content))
          (Raml.Line.significant 1 (Text.lines content)) declared lifted parsed.findings.lifts ∧
        ∀ sited ∈ declared, ∀ before site after, sited.sites = before ++ site :: after →
          (∀ later ∈ after, later.name ≠ site.name) →
            ∀ name, site.token? = some name → IsPlainName name →
              site.liftedEnum convention = none →
                ∃ property, sited.type.properties.get? site.name = some property ∧
                  propertySchema? site.name property =
                    some (referenceJson ("./" ++ (Target.object name).fileName convention))) ∧
    ∀ (settings used : Settings) (stamp : String) (input output : Path) (tree tree' : FileTree)
      (run : Run) (sources : List Path), tree.WellFormed → settings.inUse = .ok used →
      discover used tree input = .ok sources →
      convertDirectory settings stamp input output tree = .ok run tree' →
      ∀ object ∈ typesRead used.convention tree sources, object.isEnum = false →
        ObjectWritten used output (typesRead used.convention tree sources) run tree'
          object.name := by
  constructor
  · intro parsed hparse
    obtain ⟨declared, lifted, htypes, hsited⟩ := Raml.Source.exists_sited hparse
    refine ⟨declared, lifted, htypes, hsited, ?_⟩
    intro sited hdeclared before site after hsites hlast name htoken hplain hlifted
    exact ⟨_, (hsited.isMade sited hdeclared).get?_properties hsites hlast,
      Raml.Site.propertySchema?_of_isPlainName htoken hplain hlifted⟩
  · intro settings used stamp input output tree tree' run sources htree hused hsources hrun object
      hobject hisEnum
    exact (completed_of_run htree hused hsources hrun).objectWritten hobject hisEnum

/-- The types in the text of a library, unless it cannot be read. -/
def libraryTypes? (content : String) : Option (List Declaration) :=
  (Raml.Source.parse .pascal content "x" none).toOption.map (·.types)

theorem exists_parse_of_libraryTypes? {content : String} {types : List Declaration}
    (htypes : libraryTypes? content = some types) :
    ∃ parsed, Raml.Source.parse .pascal content "x" none = .ok parsed ∧ parsed.types = types := by
  obtain ⟨parsed, hparse, rfl⟩ := Option.map_eq_some_iff.mp htypes
  exact ⟨parsed, eq_ok_of_toOption_eq_some hparse, rfl⟩

theorem exists_sited_of_mem {convention : Convention} {lines before : List Raml.Line}
    {declared : List SitedType} {lifted : List Declaration} {lifts : List Report.LiftFinding}
    (h : Sited convention lines before declared lifted lifts) {type : Declaration}
    (htype : type ∈ declared.map SitedType.type ++ lifted) (hisEnum : type.isEnum = false) :
    ∃ sited ∈ declared, sited.type = type := by
  rcases List.mem_append.mp htype with htype | htype
  · exact List.mem_map.mp htype
  · rw [h.lifted_eq] at htype
    obtain ⟨site, -, hlifted⟩ := List.mem_filterMap.mp htype
    obtain ⟨values, -, rfl⟩ := Raml.Site.exists_of_liftedEnum hlifted
    cases hisEnum

def towLibrary : String :=
  "#%RAML 1.0 Library\ntypes:\n  Car:\n    properties:\n      tow?:\n        type: Car\n"

def towedCar : Raml.Property where
  type := none
  reference := some "./Car.schema.json"
  token := some "Car"

theorem libraryTypes?_towLibrary :
    libraryTypes? towLibrary = some [{ name := "Car", properties := [("tow", towedCar)] }] := (rfl)

/-- A car that tows a car refers to the file of cars. Of two names that share a file the first one
has a file, too. -/
theorem plain_names_refer_to_objects_car :
    (∃ parsed type property, Raml.Source.parse .pascal towLibrary "x" none = .ok parsed ∧
      type ∈ parsed.types ∧ Entries.get? type.properties "tow" = some property ∧
      propertySchema? "tow" property = some (referenceJson "./Car.schema.json")) ∧
    ∃ run tree', convertDirectory twinSettings "0" twinInput twinOutput twinTree = .ok run tree' ∧
      ObjectWritten twinSettings twinOutput
        (typesRead twinSettings.convention twinTree [⟨"", ["in", "a.raml"]⟩]) run tree' "Foo" := by
  obtain ⟨hread, hwritten⟩ := plain_names_refer_to_objects .pascal towLibrary "x" none
  constructor
  · obtain ⟨parsed, hparse, htypes⟩ := exists_parse_of_libraryTypes? libraryTypes?_towLibrary
    obtain ⟨declared, lifted, hsplit, hsited, hreferences⟩ := hread parsed hparse
    have hcar : { name := "Car", properties := [("tow", towedCar)] } ∈
        declared.map SitedType.type ++ lifted := by
      rw [← hsplit, htypes]
      exact List.mem_cons_self
    obtain ⟨sited, hdeclared, htype⟩ := exists_sited_of_mem hsited hcar rfl
    have hproperty : sited.type.properties.get? "tow" = some towedCar := by
      rw [htype]
      rfl
    obtain ⟨before, site, after, hsites, hname, hlast, hresolution⟩ :=
      (hsited.isMade sited hdeclared).exists_site hproperty
    have htoken : site.token? = some "Car" := by
      rw [← Raml.Site.token_resolution .pascal, hresolution]
      rfl
    have hlifted : site.liftedEnum .pascal = none := by
      rw [Option.eq_none_iff_forall_ne_some]
      intro enum henum
      have hreference := Raml.Site.reference_of_liftedEnum henum
      rw [hresolution] at hreference
      have hchars := congrArg (fun reference => reference.toList.take 3)
        (Option.some_inj.mp hreference)
      simp [Target.reference, Target.enumDirectory] at hchars
    have hplain : IsPlainName "Car" :=
      ⟨by decide, by decide, by decide, by decide, by decide, by decide⟩
    obtain ⟨property, hget, hschema⟩ :=
      hreferences sited hdeclared before site after hsites hlast "Car" htoken hplain hlifted
    rw [hname] at hget hschema
    refine ⟨parsed, sited.type, property, hparse, ?_, hget, hschema⟩
    rw [hsplit]
    exact List.mem_append_left _ (List.mem_map_of_mem hdeclared)
  · obtain ⟨run, tree', hrun, -, -, -⟩ := twin_run
    have htypes : { name := "Foo" } ∈
        typesRead twinSettings.convention twinTree [⟨"", ["in", "a.raml"]⟩] := by
      rw [twin_evaluated.2.1]
      exact List.mem_cons_self
    exact ⟨run, tree', hrun, hwritten twinSettings twinSettings "0" twinInput twinOutput twinTree
      tree' run _ wellFormed_twinTree inUse_twinSettings discover_twinTree hrun _ htypes rfl⟩

/-! ### What a plain name does not do -/

set_option maxRecDepth 10000 in
/-- An enum is referred to as if it were an object. A property with an enum of its own refers to
that enum, and an empty name is no reference. -/
theorem names_without_object_files :
    (libraryTypes? ("#%RAML 1.0 Library\ntypes:\n  Color:\n    enum:\n      - RED\n  Car:\n" ++
        "    properties:\n      paint:\n        type: Color\n") =
        some [{ name := "Color", isEnum := true, values := ["RED"] },
          { name := "Car", required := ["paint"], properties := [("paint",
            { type := none, reference := some "./Color.schema.json", token := some "Color" })] }] ∧
      propertySchema? "paint"
          { type := none, reference := some "./Color.schema.json", token := some "Color" } ≠
        some (referenceJson ("./common/enums/" ++ (Target.enum "Color").fileName .pascal))) ∧
    (libraryTypes? ("#%RAML 1.0 Library\ntypes:\n  Color:\n  Car:\n    properties:\n" ++
        "      paint:\n        type: Color\n        enum:\n          - RED\n") =
        some [{ name := "Color" },
          { name := "Car", required := ["paint"], properties := [("paint",
            { type := none, reference := some "./common/enums/CarPaintEnum.schema.json",
              token := some "Color" })] }, carPaint] ∧
      propertySchema? "paint"
          { type := none, reference := some "./common/enums/CarPaintEnum.schema.json",
            token := some "Color" } ≠
        some (referenceJson ("./" ++ (Target.object "Color").fileName .pascal))) ∧
    libraryTypes? ("#%RAML 1.0 Library\ntypes:\n  :\n  Car:\n    properties:\n" ++
        "      paint:\n        type:\n") =
        some [{ name := "" },
          { name := "Car", required := ["paint"],
            properties := [("paint", { token := some "" })] }] ∧
      propertySchema? "paint" { token := some "" } ≠
        some (referenceJson ("./" ++ (Target.object "").fileName .pascal)) := by
  exact ⟨⟨by decide +kernel, by decide⟩, ⟨by decide +kernel, by decide⟩, by decide +kernel,
    by decide⟩

end RamlSchema.Conversion
