import RamlSchema.Proofs.Raml.Composition

/-!
# Properties by themselves

A property is read from its own block alone. Reading looks ahead for the elements of an array, but
only over lines that are deeper than the facet, so that nothing behind the block is ever seen; and
depths are only compared with that of the declaration, so that a file which is indented as a whole
says the same. Both hold of the whole resolution, with the numbers of the lines in the findings.
-/

namespace RamlSchema.Raml

/-! ### Lines of sources -/

namespace Line

theorem significant_append (first : Int) (sources others : List String) :
    significant first (sources ++ others) =
      significant first sources ++ significant (first + sources.length) others := by
  induction sources generalizing first with
  | nil => simp [significant, numbered]
  | cons source sources ih =>
    have hrest := ih (first + 1)
    have hfirst : first + 1 + (sources.length : Int) = first + (source :: sources).length := by
      rw [List.length_cons]
      omega
    rw [significant, significant, significant, hfirst] at hrest
    rw [significant, significant, significant, List.cons_append, numbered, numbered,
      List.filter_cons, List.filter_cons, hrest]
    split <;> rfl

theorem ofSource_spaces (number : Int) (depth : Nat) (source : String) :
    ofSource number (Text.spaces depth ++ source) = (ofSource number source).placed id depth := by
  have hblanks := Text.allBlank_spaces depth
  have hdepth : (Text.spaces depth).toList.length = depth := by simp [Text.spaces]
  rw [ofSource, Text.indentation_blanks_append hblanks, Text.trim_blanks_append hblanks, hdepth,
    Nat.add_comm]
  rfl

/-- Spaces in front of every line bring nothing but depth. -/
theorem significant_spaces (first : Int) (depth : Nat) (sources : List String) :
    significant first (sources.map (Text.spaces depth ++ ·)) =
      (significant first sources).map (placed id depth) := by
  induction sources generalizing first with
  | nil => rfl
  | cons source sources ih =>
    have hrest := ih (first + 1)
    rw [significant, significant] at hrest
    rw [significant, significant, List.map_cons, numbered, numbered, List.filter_cons,
      List.filter_cons, hrest, ofSource_spaces, placed_text]
    split <;> rfl

end Line

namespace PropertyBlock

variable {base : Int} {sources rest tail : List String} {start : Nat}

/-! ### Where a block ends -/

/-- Whether a line of a file ends a block: it is neither blank nor a comment, and no deeper than the
declaration. -/
def endsBlock (base : Int) (source : String) : Bool :=
  !Line.isSkipped (Text.trim source) && decide ((Text.indentation source : Int) ≤ base)

/-- The index of the line that ends the block which begins at an index, or else the number of
lines. -/
def blockEnd (base : Int) (sources : List String) (start : Nat) : Nat :=
  start + ((sources.drop start).takeWhile fun source => !endsBlock base source).length

theorem take_blockEnd (base : Int) (sources : List String) (start : Nat) :
    sources.take (blockEnd base sources start) =
      sources.take start ++
        (sources.drop start).takeWhile fun source => !endsBlock base source := by
  rw [blockEnd, List.take_add, ← List.prefix_iff_eq_take.mp (List.takeWhile_prefix _)]

theorem take_blockEnd_append (base : Int) (sources : List String) (start : Nat) :
    sources.take (blockEnd base sources start) ++
      (sources.drop start).dropWhile (fun source => !endsBlock base source) = sources := by
  rw [take_blockEnd, List.append_assoc, List.takeWhile_append_dropWhile, List.take_append_drop]

theorem endsBlock_head?_dropWhile (base : Int) (sources : List String) :
    ∀ head ∈ (sources.dropWhile fun source => !endsBlock base source).head?,
      endsBlock base head = true := by
  intro head hhead
  have hnot := List.head?_dropWhile_not (fun source => !endsBlock base source) sources
  rw [Option.mem_def.mp hhead] at hnot
  simpa using hnot

/-- The line that ends a block is the first that is read behind it. -/
theorem indent_le_of_endsBlock (hrest : ∀ head ∈ rest.head?, endsBlock base head = true)
    (first : Int) : ∀ line ∈ (Line.significant first rest).head?, (line.indent : Int) ≤ base := by
  cases rest with
  | nil => exact nofun
  | cons head rest =>
    have hends := hrest head rfl
    rw [endsBlock, Bool.and_eq_true, decide_eq_true_eq] at hends
    have hread : (!Line.isSkipped (Line.ofSource first head).text) = true := hends.1
    have hhead :
        (Line.significant first (head :: rest)).head? = some (Line.ofSource first head) := by
      rw [Line.significant, Line.numbered, List.filter_cons, if_pos hread, List.head?_cons]
    rw [hhead]
    rintro _ ⟨⟩
    exact hends.2

/-! ### Other surroundings -/

theorem declaredBefore?_append (hstart : start ≤ sources.length) (others : List String) :
    declaredBefore? (sources ++ others) start = declaredBefore? sources start := by
  cases start with
  | zero => rfl
  | succ n =>
    change ((sources ++ others)[n]?).map Text.trim = (sources[n]?).map Text.trim
    rw [List.getElem?_append_left (by omega)]

theorem declaredBefore?_spaces (sources : List String) (start : Nat) (depth : Nat) :
    declaredBefore? (sources.map (Text.spaces depth ++ ·)) start =
      declaredBefore? sources start := by
  cases start with
  | zero => rfl
  | succ n =>
    change ((sources.map (Text.spaces depth ++ ·))[n]?).map Text.trim = (sources[n]?).map Text.trim
    rw [List.getElem?_map, Option.map_map]
    congr 1
    funext source
    exact Text.trim_blanks_append (Text.allBlank_spaces depth) source

theorem resolveAt?_eq (sources : List String) (start : Nat) (base : Int)
    (context : PropertyContext) :
    resolveAt? sources start base context =
      some (resolve base context start (declaredBefore? sources start)
        (Line.significant (start + 1) (sources.drop start))) := rfl

/-- Lines behind the end of a block do not count. -/
theorem resolveAt?_append (hstart : start ≤ sources.length)
    (hrest : ∀ head ∈ rest.head?, endsBlock base head = true) (context : PropertyContext) :
    resolveAt? (sources ++ rest) start base context = resolveAt? sources start base context := by
  rw [resolveAt?_eq, resolveAt?_eq, declaredBefore?_append hstart,
    List.drop_append_of_le_length hstart, Line.significant_append,
    resolve_append_of_shallow (indent_le_of_endsBlock hrest _)]

theorem resolveAt?_take_blockEnd (hstart : start ≤ sources.length)
    (htail : ∀ head ∈ tail.head?, endsBlock base head = true) (context : PropertyContext) :
    resolveAt? (sources.take (blockEnd base sources start) ++ tail) start base context =
      resolveAt? sources start base context := by
  have hlength : start ≤ (sources.take (blockEnd base sources start)).length := by
    rw [take_blockEnd, List.length_append, List.length_take_of_le hstart]
    exact Nat.le_add_right ..
  have hwhole := resolveAt?_append hlength
    (endsBlock_head?_dropWhile base (sources.drop start)) context
  rw [take_blockEnd_append] at hwhole
  rw [resolveAt?_append hlength htail, hwhole]

theorem resolveAt?_spaces (sources : List String) (start : Nat) (base : Int)
    (context : PropertyContext) (depth : Nat) :
    resolveAt? (sources.map (Text.spaces depth ++ ·)) start (base + depth) context =
      resolveAt? sources start base context := by
  rw [resolveAt?_eq, resolveAt?_eq, declaredBefore?_spaces, ← List.map_drop,
    Line.significant_spaces, ← Resolution.placed_id (resolve base context _ _ _), ← resolve_placed]
  rfl

/-- **A property is read from its own block.** Whatever takes the place of the line that ends the
block and of all that follows it, as long as it begins with such a line again, the resolution is the
same in all its parts; and so it is if the whole file is indented deeper, and read at that depth. -/
theorem resolveAt_local (sources : List String) {start : Nat} (hstart : start ≤ sources.length)
    (base : Int) (context : PropertyContext) :
    ∃ resolution, resolveAt? sources start base context = some resolution ∧
      (∀ tail : List String, (∀ head ∈ tail.head?, endsBlock base head = true) →
        resolveAt? (sources.take (blockEnd base sources start) ++ tail) start base context =
          some resolution) ∧
      ∀ depth : Nat,
        resolveAt? (sources.map (Text.spaces depth ++ ·)) start (base + depth) context =
          some resolution := by
  refine ⟨_, resolveAt?_eq sources start base context, ?_, ?_⟩
  · intro tail htail
    rw [resolveAt?_take_blockEnd hstart htail, resolveAt?_eq]
  · intro depth
    rw [resolveAt?_spaces, resolveAt?_eq]

/-- A property with the elements of an array in a nested block, an enum behind it and another
property at the end. -/
def wallSources : List String :=
  ["  shade:", "    items:", "", "# of a wall", "      type: string", "    type: Paint",
    "    enum:", "      - Dark", "  side:", "    enum:", "      - North"]

/-- The block ends in front of the second property. What is put there instead ends it as well, and
the enum keeps its lines in all three files. -/
theorem resolveAt_local_wall :
    1 ≤ wallSources.length ∧ blockEnd 2 wallSources 1 = 8 ∧ endsBlock 2 "wall:" = true ∧
      ∃ resolution, resolveAt? wallSources 1 2 ⟨"Wall", "shade", .pascal, false⟩ = some resolution ∧
        resolution.lift.bind (·.lines) = some (7, 8) ∧
        resolveAt? (wallSources.take 8 ++ ["wall:", "      - Light"]) 1 2
          ⟨"Wall", "shade", .pascal, false⟩ = some resolution ∧
        resolveAt? (wallSources.map (Text.spaces 3 ++ ·)) 1 (2 + 3)
          ⟨"Wall", "shade", .pascal, false⟩ = some resolution := by
  have hstart : 1 ≤ wallSources.length := by decide
  have hend : blockEnd 2 wallSources 1 = 8 := by decide +kernel
  have hhead : ∀ head ∈ ["wall:", "      - Light"].head?, endsBlock 2 head = true := by
    decide +kernel
  obtain ⟨resolution, hresolve, hother, hdeeper⟩ :=
    resolveAt_local wallSources hstart 2 ⟨"Wall", "shade", .pascal, false⟩
  have hlines : (resolveAt? wallSources 1 2 ⟨"Wall", "shade", .pascal, false⟩).bind
      (fun resolution => resolution.lift.bind (·.lines)) = some (7, 8) := by
    decide +kernel
  rw [show ((1 : Nat) : Int) = 1 from rfl] at hresolve
  rw [hresolve] at hlines
  have hotherFile := hother _ hhead
  rw [hend] at hotherFile
  exact ⟨hstart, hend, hhead _ rfl, resolution, hresolve, hlines, hotherFile, hdeeper 3⟩

end PropertyBlock

end RamlSchema.Raml
