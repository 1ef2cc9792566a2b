import RamlSchema.Proofs.Conversion.KeptTypes
import RamlSchema.Proofs.Raml.LiftedEnums

/-!
# Files of lifted enums

A run that completes leaves an enum in the file that a reference to a lifted enum leads to.
-/

namespace RamlSchema.Conversion

open Files (FileTree Path)
open Raml (Declaration Target)
open Report (Kind Run)
open Schema (enumSchema)

variable {settings used : Settings} {input output : Path} {tree tree' : FileTree} {run : Run}
  {sources : List Path}

theorem Completed.mem_names_of_mem_typesRead
    (h : Completed settings input output tree tree' run used sources) {type : Declaration}
    (htype : type ∈ typesRead used.convention tree sources) :
    type.name ∈ run.names (kindOf type) :=
  h.mem_names_iff.mpr (exists_lastType?_of_mem htype)

/-- The file of a type that was read is written, and if types have plain names, it holds a type of
that kind. -/
theorem Completed.written_of_mem_typesRead
    (h : Completed settings input output tree tree' run used sources) {type : Declaration}
    (htype : type ∈ typesRead used.convention tree sources) :
    outputPath used.convention output (kindOf type) type.name ∈ outputPaths used output run ∧
      ((∀ kind, ∀ name ∈ run.names kind, '/' ∉ name.toList) →
        ∃ held ∈ typesRead used.convention tree sources, kindOf held = kindOf type ∧
          Holds tree' (outputPath used.convention output (kindOf type) type.name)
            (Schema.document used.dialect held)) := by
  have hname := h.mem_names_of_mem_typesRead htype
  refine ⟨outputPath_mem_outputPaths hname, fun hnames => ?_⟩
  obtain ⟨other, -, held, hheld, -, hholds⟩ := h.exists_holds hnames hname
  obtain ⟨hmem, hkind, -⟩ := of_lastType?_eq_some hheld
  exact ⟨held, hmem, hkind, hholds⟩

/-- The references to the lifted enums among some types lead to files that a run has written, and
these hold enums. -/
def LiftedEnumsWritten (used : Settings) (output : Path) (types : List Declaration) (run : Run)
    (tree : FileTree) : Prop :=
  ∀ enum ∈ types, enum.origin.isSome = true →
    output.child ("./common/enums/" ++ (Target.enum enum.name).fileName used.convention) ∈
      outputPaths used output run ∧
    ∃ type ∈ types, type.isEnum = true ∧
      Holds tree
        (output.child ("./common/enums/" ++ (Target.enum enum.name).fileName used.convention))
        (enumSchema used.dialect type)

theorem Completed.liftedEnumsWritten
    (h : Completed settings input output tree tree' run used sources)
    (hnames : ∀ kind, ∀ name ∈ run.names kind, '/' ∉ name.toList) :
    LiftedEnumsWritten used output (typesRead used.convention tree sources) run tree' := by
  intro enum henum horigin
  obtain ⟨path, -, file, hread, hfile⟩ := mem_typesRead_iff.mp henum
  have hkind : kindOf enum = .enum := kindOf_eq_enum_iff.mpr
    (Raml.Source.isEnum_of_origin (parse_of_readSource hread) hfile horigin)
  have hname := h.mem_names_of_mem_typesRead henum
  obtain ⟨hwritten, hholds⟩ := h.written_of_mem_typesRead henum
  rw [hkind] at hname hwritten hholds
  obtain ⟨type, hmem, htype, hholds⟩ := hholds hnames
  have hpath :
      output.child ("./common/enums/" ++ (Target.enum enum.name).fileName used.convention) =
        outputPath used.convention output .enum enum.name :=
    child_enum_reference (hnames .enum enum.name hname)
  have hisEnum := kindOf_eq_enum_iff.mp htype
  rw [Schema.document, if_pos hisEnum] at hholds
  rw [hpath]
  exact ⟨hwritten, type, hmem, hisEnum, hholds⟩

/-- **Lifted enums stay intact.** Every text without tabs in its indentation is read as declared
types and, behind them, the enums lifted out of their properties, with the findings to match and the
properties rendered as references; and what these references lead to is an enum that a completed run
has written. -/
theorem lifted_enums_intact (convention : Convention) (content stem : String)
    (source : Option String) :
    ((∃ parsed, Raml.Source.parse convention content stem source = .ok parsed) ↔
      ∀ line ∈ Text.lines content, Raml.Source.hasTab line = false) ∧
    (∀ parsed, Raml.Source.parse convention content stem source = .ok parsed →
      ∃ declared lifted, parsed.LiftsIntact convention content declared lifted) ∧
    ∀ (settings used : Settings) (stamp : String) (input output : Path) (tree tree' : FileTree)
      (run : Run) (sources : List Path), tree.WellFormed → settings.inUse = .ok used →
      discover used tree input = .ok sources →
      convertDirectory settings stamp input output tree = .ok run tree' →
      (∀ kind, ∀ name ∈ run.names kind, '/' ∉ name.toList) →
      LiftedEnumsWritten used output (typesRead used.convention tree sources) run tree' := by
  refine ⟨Raml.Source.exists_parse_iff .., fun parsed => Raml.Source.exists_liftsIntact, ?_⟩
  intro settings used stamp input output tree tree' run sources htree hused hsources hrun hnames
  exact (completed_of_run htree hused hsources hrun).liftedEnumsWritten hnames

/-! ### One lifted enum -/

def paintLibrary : String :=
  "#%RAML 1.0 Library\ntypes:\n  Car:\n    properties:\n      paint?:\n        enum:\n          - RED\n"

/-- A directory with one library, which declares a car and, within a property, its paint. -/
def paintTree : FileTree where
  nodes := [(["in"], .directory), (["in", "a.raml"], .file (Text.Utf8.encode paintLibrary))]

def paintSettings : Settings := { dialect := .str "d", scaffold := .bool false }

def carPaint : Declaration where
  name := "CarPaint"
  isEnum := true
  values := ["RED"]
  description := "Inline enum for Car.paint"
  origin := some ⟨"Car", "paint"⟩

def paintedCar : Declaration where
  name := "Car"
  properties :=
    [("paint", { type := none, reference := some "./common/enums/CarPaintEnum.schema.json" })]

theorem wellFormed_paintTree : paintTree.WellFormed :=
  FileTree.wellFormed_of_forall rfl (by decide)

set_option maxRecDepth 100000 in
theorem paint_evaluated :
    ((Raml.Source.parse .pascal paintLibrary "a" none).toOption.map fun parsed =>
      parsed.types.filter (·.origin.isSome)) = some [carPaint] ∧
    (discover paintSettings paintTree ⟨"", ["in"]⟩).toOption = some [⟨"", ["in", "a.raml"]⟩] ∧
    typesRead .pascal paintTree [⟨"", ["in", "a.raml"]⟩] = [paintedCar, carPaint] ∧
    ((createDirectories ⟨"", ["out"]⟩ >>= fun _ =>
        writeUnchecked ⟨paintSettings.output, "0"⟩
          (filesOf paintSettings ⟨"", ["out"]⟩ [paintedCar, carPaint])).answer?
        paintTree).isSome := by
  decide +kernel

/-- The enum in the property `paint` is lifted, and its reference leads to a file that the run has
written. -/
theorem lifted_enums_intact_paint : ∃ run tree',
    convertDirectory paintSettings "0" ⟨"", ["in"]⟩ ⟨"", ["out"]⟩ paintTree = .ok run tree' ∧
    (∃ parsed declared, Raml.Source.parse .pascal paintLibrary "a" none = .ok parsed ∧
      parsed.LiftsIntact .pascal paintLibrary declared [carPaint]) ∧
    ∃ type, type.isEnum = true ∧
      Holds tree' ((⟨"", ["out"]⟩ : Path).child "./common/enums/CarPaintEnum.schema.json")
        (enumSchema (.str "d") type) := by
  obtain ⟨hfilter, hdiscover, htypes, hwrites⟩ := paint_evaluated
  have hsources := eq_ok_of_toOption_eq_some hdiscover
  have hused : paintSettings.inUse = .ok paintSettings := rfl
  obtain ⟨run, tree', hrun⟩ :=
    exists_run_of_writeUnchecked hused hsources rfl rfl htypes hwrites
  have hnames := (completed_of_run wellFormed_paintTree hused hsources hrun).names_eq
  rw [show typesRead paintSettings.convention _ _ = _ from htypes] at hnames
  obtain ⟨-, hlifts, hwritten⟩ := lifted_enums_intact .pascal paintLibrary "a" none
  refine ⟨run, tree', hrun, ?_, ?_⟩
  · obtain ⟨parsed, hparse, hlifted⟩ := Option.map_eq_some_iff.mp hfilter
    have hparse := eq_ok_of_toOption_eq_some hparse
    obtain ⟨declared, lifted, hintact⟩ := hlifts parsed hparse
    obtain rfl : lifted = [carPaint] := hintact.filter_types.symm.trans hlifted
    exact ⟨parsed, declared, hparse, hintact⟩
  · have hslash := slash_notMem_names (hnames .enum) (hnames .object) (by decide)
    have hread : carPaint ∈ typesRead .pascal paintTree [⟨"", ["in", "a.raml"]⟩] := by
      rw [htypes]
      exact List.mem_cons_of_mem _ List.mem_cons_self
    obtain ⟨-, type, -, hisEnum, hholds⟩ := hwritten paintSettings paintSettings "0" ⟨"", ["in"]⟩
      ⟨"", ["out"]⟩ paintTree tree' run _ wellFormed_paintTree hused hsources hrun hslash carPaint
      hread rfl
    exact ⟨type, hisEnum, hholds⟩

end RamlSchema.Conversion
