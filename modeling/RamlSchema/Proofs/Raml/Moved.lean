import RamlSchema.Raml.Source

/-!
# Lines in other places

A property block is read alike wherever it stands: its lines are compared with the depth of the
declaration and with each other, and their numbers go into the findings alone. So lines that are all
moved some steps deeper and numbered anew are read as before, and the findings name the new numbers.
Without numbers, nothing is left of the places.
-/

namespace RamlSchema

/-! ### Findings in other places -/

namespace Report

def UnionFinding.placed (place : Int → Int) (finding : UnionFinding) : UnionFinding :=
  { finding with line := finding.line.map place }

/-- The lines of a lifted enum begin in the new place and are as many as before. -/
def LiftFinding.placed (place : Int → Int) (finding : LiftFinding) : LiftFinding :=
  { finding with
    lines := finding.lines.map fun (start, stop) => (place start, place start + (stop - start)) }

def PropertyFinding.placed (place : Int → Int) (finding : PropertyFinding) : PropertyFinding :=
  { finding with line := place finding.line }

def UnionFinding.unplaced (finding : UnionFinding) : UnionFinding :=
  { finding with line := finding.line.map fun _ => 0 }

/-- How many lines a lifted enum takes is no question of its place. -/
def LiftFinding.unplaced (finding : LiftFinding) : LiftFinding :=
  { finding with lines := finding.lines.map fun (start, stop) => (0, stop - start) }

def PropertyFinding.unplaced (finding : PropertyFinding) : PropertyFinding :=
  { finding with line := 0 }

/-- All that the findings say but the numbers of lines. -/
def Findings.unplaced (findings : Findings) : Findings where
  properties := findings.properties.map PropertyFinding.unplaced
  unions := findings.unions.map UnionFinding.unplaced
  formats := findings.formats
  lifts := findings.lifts.map LiftFinding.unplaced

theorem Findings.unplaced_append (a b : Findings) :
    (a ++ b).unplaced = a.unplaced ++ b.unplaced := by
  change Findings.unplaced (Findings.append a b) = Findings.append a.unplaced b.unplaced
  simp [Findings.unplaced, Findings.append]

end Report

namespace Raml

/-- The line some steps deeper and under the number of its new place. -/
def Line.placed (place : Int → Int) (depth : Nat) (line : Line) : Line :=
  ⟨place line.number, line.indent + depth, line.text⟩

@[simp]
theorem Line.placed_indent (place : Int → Int) (depth : Nat) (line : Line) :
    (line.placed place depth).indent = line.indent + depth := rfl

@[simp]
theorem Line.placed_text (place : Int → Int) (depth : Nat) (line : Line) :
    (line.placed place depth).text = line.text := rfl

/-- The line some steps deeper, without its number. -/
def Line.moved (depth : Nat) (line : Line) : Line := ⟨0, line.indent + depth, line.text⟩

@[simp]
theorem Line.moved_indent (depth : Nat) (line : Line) :
    (line.moved depth).indent = line.indent + depth := rfl

@[simp]
theorem Line.moved_text (depth : Nat) (line : Line) : (line.moved depth).text = line.text := rfl

def Resolution.placed (place : Int → Int) (resolution : Resolution) : Resolution :=
  { resolution with
    union := resolution.union.map (·.placed place)
    lift := resolution.lift.map (·.placed place)
    finding := resolution.finding.placed place }

/-- Findings stay as they are where every line keeps its number. -/
theorem Resolution.placed_id (resolution : Resolution) : resolution.placed id = resolution := by
  have hunion : Report.UnionFinding.placed id = id := by
    funext finding
    simp [Report.UnionFinding.placed]
  have hlift : Report.LiftFinding.placed id = id := by
    funext finding
    have hlines : ∀ start stop : Int, start + (stop - start) = stop := fun start stop => by omega
    simp [Report.LiftFinding.placed, hlines]
  simp only [placed, hunion, hlift, Option.map_id]
  rfl

def Resolution.unplaced (resolution : Resolution) : Resolution :=
  { resolution with
    union := resolution.union.map (·.unplaced)
    lift := resolution.lift.map (·.unplaced)
    finding := resolution.finding.unplaced }

theorem Resolution.placed_zero (resolution : Resolution) :
    resolution.placed (fun _ => 0) = resolution.unplaced := by
  have hlift : Report.LiftFinding.placed (fun _ => 0) = Report.LiftFinding.unplaced := by
    funext finding
    simp [Report.LiftFinding.placed, Report.LiftFinding.unplaced]
  simp only [placed, hlift]
  rfl

theorem Resolution.findings_unplaced (resolution : Resolution) :
    resolution.unplaced.findings = resolution.findings.unplaced := by
  simp [findings, unplaced, Report.Findings.unplaced, Option.toList_map]

/-! ### Property blocks -/

namespace PropertyBlock

def Progress.placed (place : Int → Int) (progress : Progress) : Progress :=
  { progress with
    enumLine := progress.enumLine.map place
    union := progress.union.map (·.placed place) }

variable (base : Int) (context : PropertyContext) (place : Int → Int) (depth : Nat)
  (progress : Progress)

theorem lines_placed (following : List Line) :
    lines (base + depth) (following.map (Line.placed place depth)) =
      (lines base following).map (Line.placed place depth) := by
  have hdeep : ((fun line : Line => decide (base + depth < (line.indent : Int))) ∘
      Line.placed place depth) = fun line => decide (base < (line.indent : Int)) := by
    funext line
    simp [Line.placed]
  rw [lines, lines, List.takeWhile_map, hdeep]

theorem nestedItems_placed (convention : Convention) (following : List Line) :
    nestedItems (base + depth) convention (following.map (Line.placed place depth)) =
      nestedItems base convention following := by
  have hlines : (following.map (Line.placed place depth)).takeWhile
        (fun line => decide (base + depth + 2 < (line.indent : Int))) =
      (following.takeWhile fun line => decide (base + 2 < (line.indent : Int))).map
        (Line.placed place depth) := by
    have h := lines_placed (base + 2) place depth following
    rwa [lines, lines, Int.add_right_comm] at h
  have hmember : ∀ line : Line, ((line.indent + depth : Nat) : Int) = base + depth + 4 ↔
      (line.indent : Int) = base + 4 := by
    intro line
    omega
  rw [nestedItems, nestedItems, hlines, List.findSome?_map]
  simp only [Function.comp_def, Line.placed_indent, Line.placed_text, hmember]

theorem readFacet_placed (line : Line) (following : List Line) (facet : Facet) :
    readFacet (base + depth) context (line.placed place depth)
        (following.map (Line.placed place depth)) (progress.placed place) facet =
      (readFacet base context line following progress facet).placed place := by
  cases facet with
  | description text => rfl
  | enum => rfl
  | items token => simp [readFacet, nestedItems_placed, Progress.placed]
  | type token =>
    rw [readFacet, readFacet]
    split
    · rfl
    · rw [readSingle, readSingle]
      split <;> rfl

theorem readLine_placed (line : Line) (following : List Line) :
    readLine (base + depth) context (line.placed place depth)
        (following.map (Line.placed place depth)) (progress.placed place) =
      (readLine base context line following progress).placed place := by
  have hfacet : ((line.indent + depth : Nat) : Int) = base + depth + 2 ↔
      (line.indent : Int) = base + 2 := by omega
  have hentry : (((line.indent + depth : Nat) : Int) == base + depth + 4) =
      ((line.indent : Int) == base + 4) := by
    rw [Bool.eq_iff_iff, beq_iff_eq, beq_iff_eq]
    omega
  have henum : (progress.placed place).enumLine.isSome = progress.enumLine.isSome :=
    Option.isSome_map
  simp only [readLine, Line.placed_indent, Line.placed_text, hfacet, hentry, henum]
  split
  · cases Facet.ofText? line.text with
    | none => rfl
    | some facet => exact readFacet_placed base context place depth progress line following facet
  · split
    · cases Line.entry? line.text <;> rfl
    · rfl

theorem read_placed (following : List Line) :
    read (base + depth) context (progress.placed place)
        (following.map (Line.placed place depth)) =
      (read base context progress following).placed place := by
  induction following generalizing progress with
  | nil => rfl
  | cons line following ih => rw [List.map_cons, read, readLine_placed, ih, read]

theorem lift_placed (line : Int) (values : List String) (resolution : Resolution) :
    (lift context line values resolution).placed place =
      lift context (place line) values (resolution.placed place) := by
  have hlines :
      place line + (line + values.length - line) = place line + (values.length : Int) := by
    omega
  simp only [lift, Resolution.placed, Option.map_some, Report.LiftFinding.placed, hlines]
  rfl

/-- **A property block says the same in any place.** -/
theorem resolve_placed (line : Int) (declared : Option String) (following : List Line) :
    resolve (base + depth) context (place line) declared
        (following.map (Line.placed place depth)) =
      (resolve base context line declared following).placed place := by
  have htexts : ((lines base following).map (Line.placed place depth)).map (·.text) =
      (lines base following).map (·.text) := by simp [Function.comp_def]
  have hread := read_placed base context place depth {} (lines base following)
  change read (base + depth) context {} _ = _ at hread
  unfold resolve
  simp only [lines_placed, hread, htexts]
  generalize read base context {} (lines base following) = progress
  obtain ⟨property, enumLine, values, union, format⟩ := progress
  cases enumLine with
  | none => rfl
  | some enumLine =>
    cases values with
    | nil => rfl
    | cons value values =>
      change lift context (place enumLine) (value :: values) _ =
        (lift context enumLine (value :: values) _).placed place
      rw [lift_placed]
      rfl

/-- A property block says the same at any depth, whatever the numbers of its lines are. -/
theorem resolve_moved (line : Int) (declared : Option String) (following : List Line) :
    resolve (base + depth) context 0 declared (following.map (Line.moved depth)) =
      (resolve base context line declared following).unplaced := by
  rw [← Resolution.placed_zero]
  exact resolve_placed base context (fun _ => 0) depth line declared following

end PropertyBlock

theorem resolveHeading_moved (convention : Convention) (parent heading : String) (depth : Nat)
    (line : Line) (following : List Line) :
    resolveHeading convention parent heading (line.moved depth)
        (following.map (Line.moved depth)) =
      (resolveHeading convention parent heading line following).unplaced := by
  exact PropertyBlock.resolve_moved line.indent _ depth line.number (some line.text) following

end Raml

end RamlSchema
