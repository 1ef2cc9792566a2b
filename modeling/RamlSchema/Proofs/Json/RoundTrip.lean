import RamlSchema.Json.Reader
import RamlSchema.Proofs.Entries
import RamlSchema.Proofs.Json.Printed

/-!
# Printed documents are read back

The reader takes one token at a time and keeps what is open. A printed value takes it from a stage
that waits for a value to the stage that has it, with all else as it was, and this says the same of
the values inside, so one induction over the document is enough. Keys have to be distinct, because
the reader keeps one member for a key.
-/

namespace RamlSchema.Json

variable {level : Nat} {rest : List Char} {stage next : Stage} {outer : List Frame}

/-- A document with integers as its only numbers, whose objects have distinct keys. -/
inductive IsPlain : Json → Prop
  | null : IsPlain .null
  | bool (value : Bool) : IsPlain (.bool value)
  | int (n : Int) : IsPlain (.num (.int n))
  | str (s : String) : IsPlain (.str s)
  | arr {items : List Json} (hitems : ∀ item ∈ items, IsPlain item) : IsPlain (.arr items)
  | obj {members : Entries String Json} (hkeys : members.keys.Nodup)
      (hmembers : ∀ member ∈ members, IsPlain member.2) : IsPlain (.obj members)

/-! ### Reading on from a stage -/

/-- The stage that a text leads to. -/
def readFrom (stage : Stage) (text : List Char) : Option Stage := (tokens? text).bind (run stage)

theorem readFrom_of_step {text : List Char} {token : Token}
    (htokens : tokens? text = (tokens? rest).map (token :: ·))
    (hstep : step stage token = some next) :
    readFrom stage text = readFrom next rest := by
  rw [readFrom, htokens, readFrom]
  cases tokens? rest with
  | none => rfl
  | some tokens => simp [run, List.foldlM_cons, hstep]

theorem readFrom_newLine : readFrom stage (newLine level ++ rest) = readFrom stage rest := by
  rw [readFrom, tokens?_newLine, readFrom]

theorem readFrom_space : readFrom stage (' ' :: rest) = readFrom stage rest := by
  rw [readFrom, tokens?_of_isSpace (by decide), readFrom]

/-- A stage that takes the beginning of a value into the open frames. It may also take the end of
an array, with which no value begins. -/
def Awaits (stage : Stage) (outer : List Frame) : Prop :=
  ∀ token, token ≠ .closeArray → step stage token = enter outer token

theorem awaits_value : Awaits (.value outer) outer := fun _ _ => rfl

theorem awaits_itemOrClose : Awaits (.itemOrClose outer) (.items [] :: outer) := by
  intro token htoken
  cases token <;> first | rfl | exact absurd rfl htoken

/-- A value as it is printed at a level takes a stage that awaits it to the stage that has it. -/
def ReadsThrough (value : Json) : Prop :=
  ∀ level stage outer rest, Awaits stage outer → EndsNumber rest →
    readFrom stage (printAt level value ++ rest) = readFrom (complete value outer) rest

theorem readsThrough_of_tokens {value : Json}
    (htokens : ∀ level rest, EndsNumber rest →
      tokens? (printAt level value ++ rest) = (tokens? rest).map (.scalar value :: ·)) :
    ReadsThrough value := by
  intro level stage outer rest hstage hrest
  exact readFrom_of_step (htokens level rest hrest) (hstage _ nofun)

/-! ### Arrays -/

theorem endsNumber_newLine : EndsNumber (newLine level ++ rest) := by
  intro c hc
  obtain rfl : '\n' = c := by simpa [newLine] using hc
  decide

theorem endsNumber_comma : EndsNumber (',' :: rest) := by
  intro c hc
  obtain rfl : ',' = c := by simpa using hc
  decide

theorem readFrom_printItems {items : List Json} (hitems : ∀ item ∈ items, ReadsThrough item)
    (done : List Json) (hrest : EndsNumber rest) :
    readFrom (.afterItem done outer) (printItems level items ++ rest) =
      readFrom (.afterItem (done ++ items) outer) rest := by
  induction items generalizing done with
  | nil => simp [printItems]
  | cons item items ih =>
    have hends : EndsNumber (printItems level items ++ rest) := by
      cases items with
      | nil => simpa [printItems] using hrest
      | cons _ _ => exact endsNumber_comma
    have hcomma (text : List Char) :
        readFrom (.afterItem done outer) (',' :: text) =
          readFrom (.value (.items done :: outer)) text :=
      readFrom_of_step (tokens?_of_scanToken (by decide) rfl) rfl
    calc readFrom (.afterItem done outer) (printItems level (item :: items) ++ rest)
      _ = readFrom (.value (.items done :: outer))
            (printAt level item ++ (printItems level items ++ rest)) := by
          simp only [printItems, List.cons_append, List.append_assoc]
          rw [hcomma, readFrom_newLine]
      _ = readFrom (.afterItem (done ++ [item]) outer) (printItems level items ++ rest) :=
          hitems item (by simp) level _ _ _ awaits_value hends
      _ = readFrom (.afterItem (done ++ item :: items) outer) rest := by
          rw [ih (fun other hother => hitems other (List.mem_cons_of_mem _ hother)),
            List.append_assoc, List.singleton_append]

theorem readsThrough_arr {items : List Json} (hitems : ∀ item ∈ items, ReadsThrough item) :
    ReadsThrough (.arr items) := by
  intro level stage outer rest hstage hrest
  have hopen (text : List Char) :
      readFrom stage ('[' :: text) = readFrom (.itemOrClose outer) text :=
    readFrom_of_step (tokens?_of_scanToken (by decide) rfl) (hstage .openArray nofun)
  have hclose {stage : Stage}
      (hstep : step stage .closeArray = some (complete (.arr items) outer)) :
      readFrom stage (']' :: rest) = readFrom (complete (.arr items) outer) rest :=
    readFrom_of_step (tokens?_of_scanToken (by decide) rfl) hstep
  cases items with
  | nil =>
    rw [printAt, List.cons_append, hopen]
    exact hclose rfl
  | cons item items =>
    have hends (text : List Char) : EndsNumber (printItems (level + 1) items ++
        (newLine level ++ text)) := by
      cases items with
      | nil => exact endsNumber_newLine
      | cons _ _ => exact endsNumber_comma
    simp only [printAt, List.cons_append, List.append_assoc, List.nil_append]
    rw [hopen, readFrom_newLine, hitems item (by simp) _ _ _ _ awaits_itemOrClose (hends _),
      complete,
      readFrom_printItems (fun other hother => hitems other (List.mem_cons_of_mem _ hother)) _
        endsNumber_newLine, readFrom_newLine]
    exact hclose rfl

/-! ### Objects -/

/-- A member is read wherever its key may come next and is new. -/
theorem readFrom_member {key : String} {value : Json} {done : Entries String Json}
    (hvalue : ReadsThrough value) (hkey : key ∉ done.keys)
    (hstep : step stage (.scalar (.str key)) = some (.colon done key outer))
    (hrest : EndsNumber rest) :
    readFrom stage (printString key.toList ++ ':' :: ' ' :: (printAt level value ++ rest)) =
      readFrom (.afterMember (done ++ [(key, value)]) outer) rest := by
  have htokens := tokens?_printString key.toList
    (':' :: ' ' :: (printAt level value ++ rest))
  rw [String.ofList_toList] at htokens
  calc readFrom stage (printString key.toList ++ ':' :: ' ' :: (printAt level value ++ rest))
    _ = readFrom (.colon done key outer) (':' :: ' ' :: (printAt level value ++ rest)) :=
        readFrom_of_step htokens hstep
    _ = readFrom (.value (.member done key :: outer)) (' ' :: (printAt level value ++ rest)) :=
        readFrom_of_step (tokens?_of_scanToken (by decide) rfl) rfl
    _ = readFrom (.value (.member done key :: outer)) (printAt level value ++ rest) :=
        readFrom_space
    _ = readFrom (.afterMember (done.put key value) outer) rest :=
        hvalue level _ _ _ awaits_value hrest
    _ = readFrom (.afterMember (done ++ [(key, value)]) outer) rest := by
        rw [Entries.put_eq_append hkey]

theorem readFrom_printMembers {members done : Entries String Json}
    (hmembers : ∀ member ∈ members, ReadsThrough member.2) (hkeys : (done ++ members).keys.Nodup)
    (hrest : EndsNumber rest) :
    readFrom (.afterMember done outer) (printMembers level members ++ rest) =
      readFrom (.afterMember (done ++ members) outer) rest := by
  induction members generalizing done with
  | nil => simp [printMembers]
  | cons member members ih =>
    obtain ⟨key, value⟩ := member
    have hkey : key ∉ done.keys := by
      rw [Entries.keys, List.map_append] at hkeys
      exact fun hin => (List.nodup_append.mp hkeys).2.2 key hin key (by simp) rfl
    -- behind a member stands a comma or what ends the object, and neither continues a number
    have hends : EndsNumber (printMembers level members ++ rest) := by
      cases members with
      | nil => simpa [printMembers] using hrest
      | cons _ _ => exact endsNumber_comma
    have hcomma (text : List Char) :
        readFrom (.afterMember done outer) (',' :: text) = readFrom (.key done outer) text :=
      readFrom_of_step (tokens?_of_scanToken (by decide) rfl) rfl
    have hsplit : done ++ (key, value) :: members = (done ++ [(key, value)]) ++ members := by simp
    calc readFrom (.afterMember done outer) (printMembers level ((key, value) :: members) ++ rest)
      _ = readFrom (.key done outer) (printString key.toList ++
            ':' :: ' ' :: (printAt level value ++ (printMembers level members ++ rest))) := by
          simp only [printMembers, List.cons_append, List.append_assoc]
          rw [hcomma, readFrom_newLine]
      _ = readFrom (.afterMember (done ++ [(key, value)]) outer)
            (printMembers level members ++ rest) :=
          readFrom_member (hmembers (key, value) (by simp)) hkey rfl hends
      _ = readFrom (.afterMember (done ++ (key, value) :: members) outer) rest := by
          rw [hsplit] at hkeys ⊢
          exact ih (fun other hother => hmembers other (List.mem_cons_of_mem _ hother)) hkeys

theorem readsThrough_obj {members : Entries String Json} (hkeys : members.keys.Nodup)
    (hmembers : ∀ member ∈ members, ReadsThrough member.2) : ReadsThrough (.obj members) := by
  intro level stage outer rest hstage hrest
  have hopen (text : List Char) :
      readFrom stage (Char.ofNat 0x7B :: text) = readFrom (.keyOrClose outer) text :=
    readFrom_of_step (tokens?_of_scanToken (by decide) rfl) (hstage .openObject nofun)
  have hclose {stage : Stage}
      (hstep : step stage .closeObject = some (complete (.obj members) outer)) :
      readFrom stage (Char.ofNat 0x7D :: rest) = readFrom (complete (.obj members) outer) rest :=
    readFrom_of_step (tokens?_of_scanToken (by decide) rfl) hstep
  cases members with
  | nil =>
    rw [printAt, List.cons_append, hopen]
    exact hclose rfl
  | cons member members =>
    obtain ⟨key, value⟩ := member
    have hends (text : List Char) : EndsNumber (printMembers (level + 1) members ++
        (newLine level ++ text)) := by
      cases members with
      | nil => exact endsNumber_newLine
      | cons _ _ => exact endsNumber_comma
    simp only [printAt, List.cons_append, List.append_assoc, List.nil_append]
    rw [hopen, readFrom_newLine,
      readFrom_member (hmembers (key, value) (by simp)) List.not_mem_nil rfl (hends _),
      readFrom_printMembers (fun other hother => hmembers other (List.mem_cons_of_mem _ hother))
        hkeys endsNumber_newLine, readFrom_newLine]
    exact hclose rfl

/-! ### Documents -/

theorem IsPlain.readsThrough {document : Json} (hplain : IsPlain document) :
    ReadsThrough document := by
  induction hplain with
  | null =>
    have hname : ("null", .null) ∈ names := by decide
    exact readsThrough_of_tokens fun _ rest _ => tokens?_name hname rest
  | bool value =>
    have htrue : ("true", .bool true) ∈ names := by decide
    have hfalse : ("false", .bool false) ∈ names := by decide
    cases value with
    | true => exact readsThrough_of_tokens fun _ rest _ => tokens?_name htrue rest
    | false => exact readsThrough_of_tokens fun _ rest _ => tokens?_name hfalse rest
  | int n => exact readsThrough_of_tokens fun _ _ hrest => tokens?_signed n hrest
  | str s =>
    refine readsThrough_of_tokens fun _ rest _ => ?_
    rw [printAt, tokens?_printString, String.ofList_toList]
  | arr _ ih => exact readsThrough_arr ih
  | obj hkeys _ ih => exact readsThrough_obj hkeys ih

theorem read?_print {document : Json} (hplain : IsPlain document) :
    read? document.print = some document := by
  have hread : readFrom (.value []) (printAt 0 document ++ ['\n']) =
      some (.finished document) := by
    calc readFrom (.value []) (printAt 0 document ++ (newLine 0 ++ []))
      _ = readFrom (.finished document) (newLine 0 ++ []) :=
          hplain.readsThrough 0 _ [] _ awaits_value endsNumber_newLine
      _ = some (.finished document) := by
          rw [readFrom_newLine, readFrom, tokens?]
          rfl
  obtain ⟨tokens, htokens, hrun⟩ := Option.bind_eq_some_iff.mp hread
  rw [read?, print, String.toList_ofList, htokens, Option.bind_some, ofTokens?, hrun]

end RamlSchema.Json
