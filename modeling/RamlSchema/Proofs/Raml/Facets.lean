import RamlSchema.Proofs.Raml.Outline

/-!
# Reading the facets of a property

The block of a property is read facet by facet, in any order, and each facet says its part. Only the
type depends on the order: a later `enum:` makes it text again, and a later `type:` overrides that.
-/

namespace RamlSchema.Raml

open PropertyBlock (Progress)

/-! ### Written lines -/

theorem head?_of_facet? {key text value : String} (hkey : key ≠ "")
    (hfacet : Line.facet? key text = some value) : text.toList.head? = key.toList.head? := by
  obtain ⟨rest, hrest, -⟩ := Option.map_eq_some_iff.mp hfacet
  rw [Text.dropPrefix?_eq_some_iff.mp hrest, String.toList_append,
    List.head?_append_of_ne_nil _ (mt String.toList_eq_nil_iff.mp hkey)]

theorem facet?_of_head {key other text value : String} (hkey : key ≠ "") (hother : other ≠ "")
    (hhead : key.toList.head? ≠ other.toList.head?) (hfacet : Line.facet? key text = some value) :
    Line.facet? other text = none := by
  apply Row.facet?_eq_none_of_head hother
  rwa [head?_of_facet? hkey hfacet]

theorem ne_enum_of_facet? {key text value : String} (hkey : key ≠ "")
    (hhead : key.toList.head? ≠ some 'e') (hfacet : Line.facet? key text = some value) :
    text ≠ "enum:" := by
  rintro rfl
  exact hhead (head?_of_facet? hkey hfacet).symm

section FacetText

variable {text value : String}

theorem ofText?_of_description (hfacet : Line.facet? "description:" text = some value) :
    Facet.ofText? text = some (.description value) := by
  rw [Facet.ofText?, if_neg (ne_enum_of_facet? (by decide) (by decide) hfacet), hfacet]
  rfl

theorem ofText?_of_type (hfacet : Line.facet? "type:" text = some value) :
    Facet.ofText? text = some (.type value) := by
  rw [Facet.ofText?, if_neg (ne_enum_of_facet? (by decide) (by decide) hfacet),
    facet?_of_head (by decide) (by decide) (by decide) hfacet, hfacet]
  rfl

theorem ofText?_of_items (hfacet : Line.facet? "items:" text = some value) :
    Facet.ofText? text = some (.items value) := by
  rw [Facet.ofText?, if_neg (ne_enum_of_facet? (by decide) (by decide) hfacet),
    facet?_of_head (by decide) (by decide) (by decide) hfacet,
    facet?_of_head (by decide) (by decide) (by decide) hfacet, hfacet]
  rfl

end FacetText

theorem entry?_value (value : Value) : Line.entry? ("- " ++ value.text) = some value.text := by
  have hvalue : Text.trimChars value.text.toList = value.text.toList := by
    have htrim := value.trimmed
    rwa [Text.trim, ← String.toList_inj, String.toList_ofList] at htrim
  have hdrop : ("- " ++ value.text).toList.drop 2 = value.text.toList := by
    rw [String.toList_append]
    rfl
  have hfilter :
      (value.text.toList.filter fun c => c != Char.ofNat 0x22 && c != Char.ofNat 0x27) =
        value.text.toList := by
    rw [List.filter_eq_self]
    intro c hc
    have hc := value.unquoted c hc
    simp [hc.1, hc.2]
  rw [Line.entry?, if_pos (Text.startsWith_append _ _), Line.entryValue, hdrop, hvalue]
  exact congrArg some ((congrArg String.ofList hfilter).trans String.ofList_toList)

theorem entry?_of_facet? {key text value : String} (hkey : key ≠ "")
    (hhead : key.toList.head? ≠ some '-') (hfacet : Line.facet? key text = some value) :
    Line.entry? text = none := by
  refine if_neg (Bool.eq_false_iff.mp (Text.startsWith_eq_false_of_head (by decide) ?_))
  rwa [head?_of_facet? hkey hfacet]

/-! ### One facet -/

structure Scan where
  property : Property := {}
  hasEnum : Bool := false
  values : List String := []

def PropertyBlock.Progress.scan (progress : Progress) : Scan :=
  ⟨progress.property, progress.enumLine.isSome, progress.values⟩

/-- The format that a token sets, which may be none. A union leaves the format alone. -/
def setFormat? (property token : String) : Option (Option String) :=
  if TypeToken.isUnion token then none
  else if (FormatInference.infer token property).isNotable then
    some (FormatInference.infer token property).format
  else none

def Scan.addToken (context : PropertyContext) (token : String) (scan : Scan) : Scan :=
  { scan with
    property :=
      { scan.property with
        type := tokenType context.convention token
        format := (setFormat? context.property token).getD scan.property.format
        reference := tokenReference? context.convention token
        token := some token } }

def Scan.addFacet (context : PropertyContext) (scan : Scan) : PropertyFacet → Scan
  | .description text =>
    { scan with property := { scan.property with description := text.text } }
  | .type token => scan.addToken context token.text
  | .enum values _ =>
    { property := { scan.property with type := some (.single "string") }
      hasEnum := true
      values := scan.values ++ values.map (·.text) }
  | .items token _ | .nestedItems token =>
    { scan with
      property :=
        { scan.property with items := some (PropertyBlock.itemsOf context.convention token.text) } }

variable {context : PropertyContext} {indent : Nat} {progress : Progress}

theorem scan_readToken (base : Int) (line : Line) (following : List Line) (token : String) :
    (PropertyBlock.readFacet base context line following progress (.type token)).scan =
      progress.scan.addToken context token := by
  rw [PropertyBlock.readFacet]
  split
  case isTrue hunion =>
    simp [PropertyBlock.readUnion, Progress.scan, Scan.addToken, tokenType, tokenReference?,
      setFormat?, hunion]
  case isFalse hunion =>
    rw [PropertyBlock.readSingle]
    split <;> rename_i hnotable <;>
      simp [Progress.scan, Scan.addToken, tokenType, tokenReference?, setFormat?, hunion, hnotable]

theorem readLine_facet {line : Line} (hindent : line.indent = indent + 2) {facet : Facet}
    (hfacet : Facet.ofText? line.text = some facet) (following : List Line) :
    PropertyBlock.readLine indent context line following progress =
      PropertyBlock.readFacet indent context line following progress facet := by
  rw [PropertyBlock.readLine, if_pos (by rw [hindent]; rfl), hfacet]

theorem readLine_value (line : Line) (hindent : line.indent = indent + 4)
    (henum : progress.enumLine.isSome) {value : String}
    (hvalue : Line.entry? line.text = some value) (following : List Line) :
    PropertyBlock.readLine indent context line following progress =
      { progress with values := progress.values ++ [value] } := by
  rw [PropertyBlock.readLine, if_neg (by omega), if_pos (by simp [henum, hindent]), hvalue]

theorem readLine_no_value (line : Line) (hindent : line.indent = indent + 4)
    (hvalue : Line.entry? line.text = none) (following : List Line) :
    PropertyBlock.readLine indent context line following progress = progress := by
  rw [PropertyBlock.readLine, if_neg (by omega), hvalue]
  exact ite_self progress

theorem read_valueRows (context : PropertyContext) (indent : Nat) (progress : Progress)
    (henum : progress.enumLine.isSome) (values : List Value) (number : Int) (rest : List Row) :
    ∃ progress' number',
      PropertyBlock.read indent context progress
          (Row.place number (valueRows (indent + 4) values ++ rest)) =
        PropertyBlock.read indent context progress' (Row.place number' rest) ∧
      progress'.scan =
        { progress.scan with values := progress.values ++ values.map (·.text) } := by
  induction values generalizing progress number with
  | nil => exact ⟨progress, number, rfl, by simp [Progress.scan]⟩
  | cons value values ih =>
    obtain ⟨progress', number', hread, hscan⟩ :=
      ih { progress with values := progress.values ++ [value.text] } henum (number + 1)
    refine ⟨progress', number', ?_, ?_⟩
    · rw [valueRows, List.map_cons, List.cons_append, Row.place_cons, PropertyBlock.read,
        readLine_value ⟨number, indent + 4, "- " ++ value.text⟩ rfl henum (entry?_value value)]
      exact hread
    · rw [hscan]
      simp [Progress.scan]

theorem read_facetRow (context : PropertyContext) (indent : Nat) (progress : Progress)
    {text : String} {facet : Facet} (hfacet : Facet.ofText? text = some facet) (number : Int)
    (rest : List Row) :
    PropertyBlock.read indent context progress (Row.place number (⟨indent + 2, text⟩ :: rest)) =
      PropertyBlock.read indent context
        (PropertyBlock.readFacet indent context ⟨number, indent + 2, text⟩
          (Row.place (number + 1) rest) progress facet)
        (Row.place (number + 1) rest) := by
  rw [Row.place_cons, PropertyBlock.read, readLine_facet rfl hfacet]

theorem read_otherRow {row : Row} (hindent : row.indent = indent + 4)
    (htext : Line.entry? row.text = none) (number : Int) (rest : List Row) :
    PropertyBlock.read indent context progress (Row.place number (row :: rest)) =
      PropertyBlock.read indent context progress (Row.place (number + 1) rest) := by
  rw [Row.place_cons, PropertyBlock.read,
    readLine_no_value ⟨number, row.indent, row.text⟩ hindent htext]

/-- The first type nested under `items:` is the elements' type. -/
theorem nestedItems_cons {base : Int} {under : Line} (hindent : under.indent = base + 4)
    {token : String} (htoken : Line.facet? "type:" under.text = some token)
    (convention : Convention) (rest : List Line) :
    PropertyBlock.nestedItems base convention (under :: rest) =
      some (PropertyBlock.itemsOf convention token) := by
  have hdeep : base + 2 < under.indent := by omega
  rw [PropertyBlock.nestedItems, List.takeWhile_cons_of_pos (by exact decide_eq_true hdeep),
    List.findSome?_cons, if_pos hindent, htoken]
  rfl

theorem read_facetRows (context : PropertyContext) (indent : Nat) (progress : Progress)
    (facet : PropertyFacet) (number : Int) (rest : List Row) :
    ∃ progress' number',
      PropertyBlock.read indent context progress
          (Row.place number (facet.rows (indent + 2) ++ rest)) =
        PropertyBlock.read indent context progress' (Row.place number' rest) ∧
      progress'.scan = progress.scan.addFacet context facet := by
  cases facet with
  | description text =>
    have htext := ofText?_of_description (Row.facet?_keyed (indent + 2) _ text)
    exact ⟨_, _, read_facetRow context indent progress htext number rest, rfl⟩
  | type token =>
    have htoken := ofText?_of_type (Row.facet?_keyed (indent + 2) _ token)
    exact ⟨_, _, read_facetRow context indent progress htoken number rest,
      scan_readToken indent _ _ token.text⟩
  | enum values hne =>
    have henum : Facet.ofText? "enum:" = some .enum := rfl
    obtain ⟨progress', number', hread, hscan⟩ :=
      read_valueRows context indent
        { progress with
          property := { progress.property with type := some (.single "string") }
          enumLine := some number }
        rfl values (number + 1) rest
    refine ⟨progress', number', ?_, hscan⟩
    rw [PropertyFacet.rows, List.cons_append, read_facetRow context indent progress henum]
    exact hread
  | items token hne =>
    have htoken := ofText?_of_items (Row.facet?_keyed (indent + 2) _ token)
    have hempty : token.text.isEmpty = false := by simpa using hne
    refine ⟨_, _, read_facetRow context indent progress htoken number rest, ?_⟩
    rw [PropertyBlock.readFacet, hempty]
    rfl
  | nestedItems token =>
    have hitems : Facet.ofText? "items:" = some (.items "") := by decide
    have hrow := read_facetRow context indent progress hitems number
      (Row.keyed (indent + 4) "type:" token :: rest)
    have hnested : Line.entry? (Row.keyed (indent + 4) "type:" token).text = none :=
      entry?_of_facet? (by decide) (by decide) (Row.facet?_keyed (indent + 4) "type:" token)
    have helements : PropertyBlock.nestedItems indent context.convention
        (Row.place (number + 1) (Row.keyed (indent + 4) "type:" token :: rest)) =
          some (PropertyBlock.itemsOf context.convention token.text) := by
      rw [Row.place_cons]
      apply nestedItems_cons
      · rfl
      · exact Row.facet?_keyed (indent + 4) "type:" token
    refine ⟨_, _, hrow.trans (read_otherRow rfl hnested _ rest), ?_⟩
    rw [PropertyBlock.readFacet, helements]
    rfl

/-- The rows of all facets say what they say one after another. -/
theorem read_rows (facets : List PropertyFacet) (number : Int) :
    (PropertyBlock.read indent context progress
        (Row.place number (facets.flatMap (·.rows (indent + 2))))).scan =
      facets.foldl (Scan.addFacet context) progress.scan := by
  induction facets generalizing progress number with
  | nil => rfl
  | cons facet facets ih =>
    obtain ⟨progress', number', hread, hscan⟩ :=
      read_facetRows context indent progress facet number
        (facets.flatMap (·.rows (indent + 2)))
    rw [List.flatMap_cons, hread, ih, hscan, List.foldl_cons]

/-! ### All facets together -/

theorem Scan.foldl_addFacet {α : Type} (get : Scan → α) (pick : PropertyFacet → Option α)
    (hstep : ∀ (scan : Scan) facet,
      get (scan.addFacet context facet) = (pick facet).getD (get scan))
    (facets : List PropertyFacet) (scan : Scan) :
    get (facets.foldl (addFacet context) scan) =
      (facets.filterMap pick).getLast?.getD (get scan) := by
  induction facets generalizing scan with
  | nil => rfl
  | cons facet facets ih =>
    rw [List.foldl_cons, ih, hstep, List.filterMap_cons]
    cases pick facet with
    | none => rfl
    | some a => rw [List.getLast?_cons]; rfl

/-- What only facets of one kind say is said at most once. -/
theorem PropertyFacet.filterMap_eq {α : Type} {facets : List PropertyFacet}
    (hdistinct : (facets.map (·.kind)).Nodup) {pick : PropertyFacet → Option α} (kind : FacetKind)
    (hpick : ∀ facet a, pick facet = some a → facet.kind = kind) :
    facets.filterMap pick = (facets.findSome? pick).toList := by
  induction facets with
  | nil => rfl
  | cons facet facets ih =>
    rw [List.map_cons, List.nodup_cons] at hdistinct
    cases hfacet : pick facet with
    | none => rw [List.filterMap_cons_none hfacet, ih hdistinct.2, List.findSome?_cons, hfacet]
    | some a =>
      have hothers : facets.filterMap pick = [] := by
        rw [List.filterMap_eq_nil_iff]
        intro other hother
        rw [Option.eq_none_iff_forall_ne_some]
        intro b hb
        refine hdistinct.1 (List.mem_map.mpr ⟨other, hother, ?_⟩)
        rw [hpick facet a hfacet, hpick other b hb]
      rw [List.filterMap_cons_some hfacet, hothers, List.findSome?_cons, hfacet]
      rfl

theorem Scan.values_foldl (facets : List PropertyFacet) (scan : Scan) :
    (facets.foldl (addFacet context) scan).values =
      scan.values ++ facets.flatMap PropertyFacet.values := by
  induction facets generalizing scan with
  | nil => simp
  | cons facet facets ih =>
    rw [List.foldl_cons, ih, List.flatMap_cons]
    cases facet <;> simp [addFacet, addToken, PropertyFacet.values]

/-- An enum has been read exactly if there are values. -/
theorem Scan.hasEnum_foldl (facets : List PropertyFacet) (scan : Scan) :
    (facets.foldl (addFacet context) scan).hasEnum =
      (scan.hasEnum || !(facets.flatMap PropertyFacet.values).isEmpty) := by
  induction facets generalizing scan with
  | nil => simp
  | cons facet facets ih =>
    rw [List.foldl_cons, ih, List.flatMap_cons]
    cases facet <;> simp [addFacet, addToken, PropertyFacet.values, *]

/-- The type that a facet sets while it is read. -/
def PropertyFacet.type? (convention : Convention) : PropertyFacet → Option (Option TypeKeyword)
  | .type token => some (tokenType convention token.text)
  | .enum _ _ => some (some (.single "string"))
  | _ => none

namespace PropertyOutline

/-- The type when all facets are read, which is the last one that was set. -/
def scannedType (convention : Convention) (outline : PropertyOutline) : Option TypeKeyword :=
  (outline.facets.filterMap (PropertyFacet.type? convention)).getLast?.getD
    (some (.single "string"))

/-- The elements' type that is kept, which is so for any array that has been read. -/
def keptItems (convention : Convention) (outline : PropertyOutline) : Option Items :=
  if outline.scannedType convention = some (.single "array") then outline.items? convention
  else none

theorem filterMap_token? (outline : PropertyOutline) :
    outline.facets.filterMap PropertyFacet.token? = outline.token?.toList := by
  refine PropertyFacet.filterMap_eq outline.distinct .type ?_
  intro facet token htoken
  cases facet <;> first | rfl | exact absurd htoken nofun

theorem filterMap_bind_token? {α : Type} (outline : PropertyOutline) (f : String → Option α) :
    outline.facets.filterMap (fun facet => facet.token?.bind f) =
      (outline.token?.bind f).toList := by
  rw [← List.filterMap_filterMap, filterMap_token?]
  cases outline.token? with
  | none => rfl
  | some token => cases hf : f token <;> simp [hf]

/-- What reading all facets of a property finds. -/
def scan (context : PropertyContext) (outline : PropertyOutline) : Scan :=
  outline.facets.foldl (Scan.addFacet context) {}

variable (context : PropertyContext) (outline : PropertyOutline)

theorem scan_values : (outline.scan context).values = outline.values := by
  rw [scan, Scan.values_foldl]
  rfl

theorem scan_hasEnum : (outline.scan context).hasEnum = !outline.values.isEmpty := by
  rw [scan, Scan.hasEnum_foldl]
  rfl

theorem scan_type :
    (outline.scan context).property.type = outline.scannedType context.convention := by
  refine Scan.foldl_addFacet (·.property.type) (PropertyFacet.type? context.convention) ?_
    outline.facets {}
  intro scan facet
  cases facet <;> rfl

/-- What only facets of one kind say is what the facet of that kind says. -/
theorem scan_of_kind {α : Type} (get : Scan → α) (pick : PropertyFacet → Option α)
    (kind : FacetKind)
    (hstep : ∀ (scan : Scan) facet,
      get (scan.addFacet context facet) = (pick facet).getD (get scan))
    (hpick : ∀ facet a, pick facet = some a → facet.kind = kind) :
    get (outline.scan context) = (outline.facets.findSome? pick).getD (get {}) := by
  rw [scan, Scan.foldl_addFacet get pick hstep,
    PropertyFacet.filterMap_eq outline.distinct kind hpick]
  cases outline.facets.findSome? pick <;> rfl

theorem scan_of_token {α : Type} (get : Scan → α) (f : String → Option α)
    (hstep : ∀ (scan : Scan) facet,
      get (scan.addFacet context facet) = (facet.token?.bind f).getD (get scan)) :
    get (outline.scan context) = (outline.token?.bind f).getD (get {}) := by
  rw [scan, Scan.foldl_addFacet get _ hstep, filterMap_bind_token?]
  cases outline.token?.bind f <;> rfl

theorem scan_description :
    (outline.scan context).property.description =
      (outline.facets.findSome? PropertyFacet.description?).getD "" := by
  refine outline.scan_of_kind context (·.property.description) PropertyFacet.description?
    .description ?_ ?_
  · intro scan facet
    cases facet <;> rfl
  · intro facet text htext
    cases facet <;> first | rfl | exact absurd htext nofun

theorem scan_items :
    (outline.scan context).property.items = outline.items? context.convention := by
  have hscan := outline.scan_of_kind context (·.property.items)
    (fun facet =>
      facet.items?.map fun token => some (PropertyBlock.itemsOf context.convention token))
    .items
    (by intro scan facet; cases facet <;> rfl)
    (by intro facet items hitems; cases facet <;> first | rfl | exact absurd hitems nofun)
  have hpick : (fun facet : PropertyFacet => facet.items?.map fun token =>
      some (PropertyBlock.itemsOf context.convention token)) =
        Option.map (fun token => some (PropertyBlock.itemsOf context.convention token)) ∘
          PropertyFacet.items? := rfl
  rw [hscan, hpick, ← List.map_findSome?, items?]
  cases outline.facets.findSome? PropertyFacet.items? <;> rfl

theorem scan_token : (outline.scan context).property.token = outline.token? := by
  rw [outline.scan_of_token context (·.property.token) (fun token => some (some token))
    (by intro scan facet; cases facet <;> rfl)]
  cases outline.token? <;> rfl

theorem scan_reference :
    (outline.scan context).property.reference =
      outline.token?.bind (tokenReference? context.convention) := by
  rw [outline.scan_of_token context (·.property.reference)
    (fun token => some (tokenReference? context.convention token))
    (by intro scan facet; cases facet <;> rfl)]
  cases outline.token? <;> rfl

theorem getD_setFormat? (property token : String) :
    (setFormat? property token).getD none = tokenFormat? property token := by
  rw [setFormat?, tokenFormat?]
  split
  · rfl
  · split
    case isTrue => rfl
    case isFalse hnotable =>
      have hformat : (FormatInference.infer token property).format.isSome = false := by
        rw [FormatInference.isNotable, Bool.or_eq_true, not_or] at hnotable
        exact Bool.eq_false_iff.mpr hnotable.1
      exact (Option.isSome_eq_false_iff.mp hformat |> Option.isNone_iff_eq_none.mp).symm

theorem scan_format :
    (outline.scan context).property.format =
      outline.token?.bind (tokenFormat? context.property) := by
  rw [outline.scan_of_token context (·.property.format) (setFormat? context.property)
    (by intro scan facet; cases facet <;> rfl)]
  cases outline.token? with
  | none => rfl
  | some token => exact getD_setFormat? context.property token

end PropertyOutline

/-! ### The resolution of a property -/

/-- A block ends in front of the first line that is no deeper than the declaration. -/
theorem PropertyBlock.lines_append_of_shallow {base : Int} {rest : List Line}
    (hrest : ∀ line ∈ rest.head?, line.indent ≤ base) (following : List Line) :
    PropertyBlock.lines base (following ++ rest) = PropertyBlock.lines base following := by
  induction following with
  | nil =>
    cases rest with
    | nil => rfl
    | cons line rest =>
      have hshallow : ¬base < line.indent := Int.not_lt.mpr (hrest line rfl)
      rw [List.nil_append, PropertyBlock.lines,
        List.takeWhile_cons_of_neg (by simpa using hshallow)]
      rfl
  | cons line following ih =>
    rw [PropertyBlock.lines, PropertyBlock.lines] at ih ⊢
    rw [List.cons_append, List.takeWhile_cons, List.takeWhile_cons, ih]

theorem PropertyBlock.lines_append {base : Int} {block rest : List Line}
    (hblock : ∀ line ∈ block, base < line.indent)
    (hrest : ∀ line ∈ rest.head?, line.indent ≤ base) :
    PropertyBlock.lines base (block ++ rest) = block := by
  rw [lines_append_of_shallow hrest, PropertyBlock.lines, List.takeWhile_eq_self_iff]
  exact fun line hline => decide_eq_true (hblock line hline)

theorem lines_place {rows rest : List Row} (hrows : ∀ row ∈ rows, indent < row.indent)
    (hrest : ∀ row ∈ rest.head?, row.indent ≤ indent) (number : Int) :
    PropertyBlock.lines indent (Row.place number (rows ++ rest)) = Row.place number rows := by
  rw [Row.place_append]
  refine PropertyBlock.lines_append ?_ ?_
  · intro line hline
    obtain ⟨row, hrow, hindent⟩ := Row.exists_of_mem_place hline
    have := hrows row hrow
    omega
  · cases rest with
    | nil => exact nofun
    | cons row rest =>
      intro line hline
      obtain rfl := Option.some_inj.mp hline
      exact Int.ofNat_le.mpr (hrest row rfl)

namespace PropertyOutline

theorem scannedType_of_values_eq_nil {outline : PropertyOutline} (hvalues : outline.values = [])
    (convention : Convention) :
    outline.scannedType convention =
      (outline.token?.map (tokenType convention)).getD (some (.single "string")) := by
  have hpick : outline.facets.filterMap (PropertyFacet.type? convention) =
      outline.facets.filterMap fun facet => facet.token?.bind (some ∘ tokenType convention) := by
    refine List.filterMap_congr ?_
    intro facet hfacet
    cases facet with
    | enum values hne =>
      have hnil := List.flatMap_eq_nil_iff.mp hvalues _ hfacet
      exact absurd (List.map_eq_nil_iff.mp hnil) hne
    | _ => rfl
  rw [scannedType, hpick, filterMap_bind_token?]
  cases outline.token? <;> rfl

/-- The property that reading finds: its elements' type is kept for any array that was read. -/
def readProperty (convention : Convention) (parent : String) (outline : PropertyOutline) :
    Property :=
  { outline.property convention parent with items := outline.keptItems convention }

theorem dropStrayItems_scan (context : PropertyContext) (outline : PropertyOutline)
    (hname : context.property = outline.name) :
    PropertyBlock.dropStrayItems (outline.scan context).property =
      { outline.plainProperty context.convention with
        type := outline.scannedType context.convention
        items := outline.keptItems context.convention } := by
  have htype := outline.scan_type context
  have hdescription := outline.scan_description context
  have hitems := outline.scan_items context
  have htoken := outline.scan_token context
  have hreference := outline.scan_reference context
  have hformat := outline.scan_format context
  generalize (outline.scan context).property = property at *
  obtain ⟨type, description, format, items, reference, token⟩ := property
  simp only at htype hdescription hitems htoken hreference hformat
  subst htype hdescription hitems htoken hreference hformat
  rw [PropertyBlock.dropStrayItems, keptItems, hname]
  split <;> rfl

/-- The block of a property is resolved to the property and the enum in it. -/
theorem resolve_rows (context : PropertyContext) (outline : PropertyOutline)
    (hname : context.property = outline.name) {rest : List Row}
    (hrest : ∀ row ∈ rest.head?, row.indent ≤ indent) (line number : Int)
    (declared : Option String) {following : List Line}
    (hfollowing : following =
      Row.place number (outline.facets.flatMap (·.rows (indent + 2)) ++ rest)) :
    (PropertyBlock.resolve indent context line declared following).property =
        outline.readProperty context.convention context.parent ∧
      (PropertyBlock.resolve indent context line declared following).liftedEnum.toList =
        outline.lifted context.parent := by
  have hrows : ∀ row ∈ outline.facets.flatMap (·.rows (indent + 2)), indent < row.indent := by
    intro row hrow
    obtain ⟨facet, -, hrow⟩ := List.mem_flatMap.mp hrow
    have := facet.le_indent_of_mem_rows row hrow
    omega
  have hread : (PropertyBlock.read indent context {}
      (Row.place number (outline.facets.flatMap (·.rows (indent + 2))))).scan =
        outline.scan context := read_rows outline.facets number
  rw [hfollowing, PropertyBlock.resolve, lines_place hrows hrest]
  -- The resolution depends on nothing but what has been scanned.
  generalize PropertyBlock.read indent context {} _ = progress at *
  have hproperty := outline.dropStrayItems_scan context hname
  have hvalues := outline.scan_values context
  have henum := outline.scan_hasEnum context
  rw [← hread] at hproperty hvalues henum
  change PropertyBlock.dropStrayItems progress.property = _ at hproperty
  change progress.values = _ at hvalues
  change progress.enumLine.isSome = _ at henum
  simp only [hproperty, hvalues]
  by_cases hnil : outline.values = []
  · rw [hnil] at henum
    have hnone : progress.enumLine = none := by simpa using henum
    have htype := scannedType_of_values_eq_nil hnil context.convention
    simp only [hnone, readProperty, property, lifted, hnil, if_true]
    exact ⟨by rw [htype]; rfl, rfl⟩
  · obtain ⟨enumLine, hsome⟩ : ∃ enumLine, progress.enumLine = some enumLine := by
      rw [← Option.isSome_iff_exists, henum]
      simpa using hnil
    have hempty : outline.values.isEmpty = false := by simpa using hnil
    simp only [hsome, hempty, readProperty, property, lifted, hnil, if_false]
    rw [← hname]
    exact ⟨rfl, rfl⟩

end PropertyOutline

end RamlSchema.Raml
