import Mathlib.Data.List.DropRight
import Mathlib.Data.List.TakeWhile
import RamlSchema.Text.Basic
import RamlSchema.Text.Blank

/-!
# Texts without blanks at their ends

Cutting a text undoes writing texts behind each other, and a text that neither starts nor ends with
a blank survives trimming. So what stands behind blanks is read back as it was written.
-/

namespace RamlSchema.Text

/-! ### Starts and ends -/

theorem isSuffixOf?_eq_some_iff {ending cs rest : List Char} :
    ending.isSuffixOf? cs = some rest ↔ cs = rest ++ ending := by
  rw [List.isSuffixOf?, Option.map_eq_some_iff]
  constructor
  · rintro ⟨found, hfound, rfl⟩
    rw [isPrefixOf?_eq_some_iff] at hfound
    simpa using congrArg List.reverse hfound
  · rintro rfl
    exact ⟨rest.reverse, by simp, List.reverse_reverse rest⟩

theorem map_ofList_eq_some_iff {found : Option (List Char)} {text : String} :
    found.map String.ofList = some text ↔ found = some text.toList := by
  rw [Option.map_eq_some_iff]
  constructor
  · rintro ⟨cs, rfl, rfl⟩
    rw [String.toList_ofList]
  · intro hfound
    exact ⟨text.toList, hfound, String.ofList_toList⟩

theorem dropPrefix?_eq_some_iff {s lead rest : String} :
    dropPrefix? s lead = some rest ↔ s = lead ++ rest := by
  rw [dropPrefix?, map_ofList_eq_some_iff, isPrefixOf?_eq_some_iff, ← String.toList_inj,
    String.toList_append]

theorem dropSuffix?_eq_some_iff {s ending rest : String} :
    dropSuffix? s ending = some rest ↔ s = rest ++ ending := by
  rw [dropSuffix?, map_ofList_eq_some_iff, isSuffixOf?_eq_some_iff, ← String.toList_inj,
    String.toList_append]

theorem endsWith_iff {s ending : String} :
    endsWith s ending = true ↔ ∃ rest, s = rest ++ ending := by
  rw [endsWith, List.isSuffixOf_iff_suffix]
  constructor
  · rintro ⟨rest, hrest⟩
    refine ⟨.ofList rest, ?_⟩
    rw [← String.toList_inj, String.toList_append, String.toList_ofList, hrest]
  · rintro ⟨rest, rfl⟩
    exact ⟨rest.toList, String.toList_append.symm⟩

theorem dropSuffix?_eq_none_iff {s ending : String} :
    dropSuffix? s ending = none ↔ endsWith s ending = false := by
  rw [Option.eq_none_iff_forall_ne_some, ← Bool.not_eq_true, endsWith_iff, not_exists]
  exact forall_congr' fun rest => not_congr dropSuffix?_eq_some_iff

@[simp]
theorem dropPrefix?_append (lead rest : String) : dropPrefix? (lead ++ rest) lead = some rest :=
  dropPrefix?_eq_some_iff.mpr rfl

@[simp]
theorem dropSuffix?_append (rest ending : String) :
    dropSuffix? (rest ++ ending) ending = some rest :=
  dropSuffix?_eq_some_iff.mpr rfl

theorem stripSuffix_append (rest ending : String) : stripSuffix (rest ++ ending) ending = rest := by
  rw [stripSuffix, dropSuffix?_append, Option.getD_some]

theorem stripSuffix_append_singleton {text : String} (htext : text ≠ "") (lead : String)
    (mark : Char) :
    stripSuffix (lead ++ text) (.singleton mark) = lead ++ stripSuffix text (.singleton mark) := by
  cases hends : dropSuffix? text (.singleton mark) with
  | some rest =>
    rw [dropSuffix?_eq_some_iff] at hends
    rw [hends, ← String.append_assoc, stripSuffix_append, stripSuffix_append]
  | none =>
    have hnone : dropSuffix? (lead ++ text) (.singleton mark) = none := by
      rw [Option.eq_none_iff_forall_ne_some]
      intro rest hrest
      have hlast := congrArg (fun s => s.toList.getLast?) (dropSuffix?_eq_some_iff.mp hrest)
      simp only [String.toList_append, String.toList_singleton, List.getLast?_concat] at hlast
      rw [List.getLast?_append_of_ne_nil _ (mt String.toList_eq_nil_iff.mp htext)] at hlast
      obtain ⟨before, hbefore⟩ := List.singleton_suffix_iff_getLast?_eq_some.mpr hlast
      have hsome : dropSuffix? text (.singleton mark) = some (.ofList before) := by
        rw [dropSuffix?_eq_some_iff, ← String.toList_inj]
        simpa using hbefore.symm
      rw [hends] at hsome
      cases hsome
    rw [stripSuffix, stripSuffix, hends, hnone]
    rfl

theorem startsWith_append (lead rest : String) : startsWith (lead ++ rest) lead = true := by
  rw [startsWith, String.toList_append, List.isPrefixOf_iff_prefix]
  exact List.prefix_append _ _

theorem cutChars?_append {mark : List Char} (hmark : mark ≠ []) (rest : List Char) :
    cutChars? mark (mark ++ rest) = some ([], rest) := by
  cases mark with
  | nil => exact absurd rfl hmark
  | cons c mark =>
    have hstart : (c :: mark).isPrefixOf? (c :: (mark ++ rest)) = some rest :=
      isPrefixOf?_eq_some_iff.mpr rfl
    rw [List.cons_append, cutChars?, hstart]

theorem eq_append_of_cutChars?_eq_some {mark cs before after : List Char}
    (hcut : cutChars? mark cs = some (before, after)) : cs = before ++ (mark ++ after) := by
  induction cs generalizing before with
  | nil => cases hcut
  | cons c cs ih =>
    rw [cutChars?] at hcut
    cases hstart : mark.isPrefixOf? (c :: cs) with
    | some rest =>
      rw [hstart] at hcut
      obtain ⟨rfl, rfl⟩ := Prod.mk.inj (Option.some.inj hcut)
      rwa [isPrefixOf?_eq_some_iff] at hstart
    | none =>
      rw [hstart] at hcut
      obtain ⟨⟨_, _⟩, hrest, hpair⟩ := Option.map_eq_some_iff.mp hcut
      cases hpair
      rw [ih hrest, List.cons_append]

theorem contains_append {lead : String} (hlead : lead ≠ "") (rest : String) :
    contains (lead ++ rest) lead = true := by
  rw [contains, cut?, String.toList_append,
    cutChars?_append (mt String.toList_eq_nil_iff.mp hlead)]
  rfl

theorem isSome_cutChars?_iff {mark cs : List Char} (hmark : mark ≠ []) :
    (cutChars? mark cs).isSome ↔ mark <:+: cs := by
  induction cs with
  | nil => simpa [cutChars?] using hmark
  | cons c cs ih =>
    rw [cutChars?, List.infix_cons_iff, ← ih]
    cases hprefix : mark.isPrefixOf? (c :: cs) with
    | some rest => exact iff_of_true rfl (.inl ⟨rest, (isPrefixOf?_eq_some_iff.mp hprefix).symm⟩)
    | none =>
      have hnot : ¬mark <+: c :: cs := by
        rintro ⟨rest, hrest⟩
        rw [isPrefixOf?_eq_some_iff.mpr hrest.symm] at hprefix
        cases hprefix
      simp [hnot]

theorem contains_iff {s part : String} (hpart : part ≠ "") :
    contains s part = true ↔ part.toList <:+: s.toList := by
  rw [contains, cut?, Option.isSome_map,
    isSome_cutChars?_iff (mt String.toList_eq_nil_iff.mp hpart)]

/-- A character behind a text adds no occurrence of what ends otherwise. -/
theorem contains_append_singleton {part : String} (hpart : part ≠ "") {c : Char}
    (hlast : part.toList.getLast? ≠ some c) (s : String) :
    contains (s ++ String.singleton c) part = contains s part := by
  rw [Bool.eq_iff_iff, contains_iff hpart, contains_iff hpart, String.toList_append,
    String.toList_singleton, List.infix_concat_iff]
  refine or_iff_right fun hsuffix => ?_
  obtain ⟨before, hbefore⟩ := hsuffix
  apply hlast
  rw [← List.getLast?_append_of_ne_nil before (mt String.toList_eq_nil_iff.mp hpart), hbefore,
    List.getLast?_concat]

/-- A text whose first character differs starts otherwise. -/
theorem dropPrefix?_eq_none_of_head {s lead : String} (hlead : lead ≠ "")
    (hhead : s.toList.head? ≠ lead.toList.head?) : dropPrefix? s lead = none := by
  rw [Option.eq_none_iff_forall_ne_some]
  intro rest hrest
  rw [dropPrefix?_eq_some_iff] at hrest
  refine hhead ?_
  rw [hrest, String.toList_append]
  exact List.head?_append_of_ne_nil _ (mt String.toList_eq_nil_iff.mp hlead)

theorem startsWith_eq_false_of_head {s lead : String} (hlead : lead ≠ "")
    (hhead : s.toList.head? ≠ lead.toList.head?) : startsWith s lead = false := by
  rw [Bool.eq_false_iff]
  intro hstarts
  obtain ⟨rest, hrest⟩ := List.isPrefixOf_iff_prefix.mp hstarts
  refine hhead ?_
  rw [← hrest]
  exact List.head?_append_of_ne_nil _ (mt String.toList_eq_nil_iff.mp hlead)

/-- What precedes a mark has no part in what follows the last one. -/
theorem afterLast_lead (lead : List Char) (text : String) (mark : Char) :
    afterLast (.ofList (lead ++ mark :: text.toList)) mark = afterLast text mark := by
  rw [afterLast, String.toList_ofList, List.reverse_append, List.reverse_cons, List.append_assoc,
    List.singleton_append, List.takeWhile_append, afterLast]
  split
  case isTrue hall =>
    rw [List.takeWhile_cons_of_neg (by simp), List.append_nil]
    have htaken := List.takeWhile_prefix (l := text.toList.reverse) (· != mark)
    rw [htaken.eq_of_length hall]
  case isFalse => rfl

/-- An end without the mark stays at the end of what follows the last mark. -/
theorem afterLast_append_of_notMem (s : String) {ending : String} {mark : Char}
    (hmark : mark ∉ ending.toList) : afterLast (s ++ ending) mark = afterLast s mark ++ ending := by
  have hall : ∀ c ∈ ending.toList.reverse, (c != mark) = true := by
    intro c hc
    rw [bne_iff_ne]
    rintro rfl
    exact hmark (List.mem_reverse.mp hc)
  rw [afterLast, String.toList_append, List.reverse_append, List.takeWhile_append_of_pos hall,
    List.reverse_append, List.reverse_reverse, String.ofList_append, String.ofList_toList,
    afterLast]

theorem afterLast_eq_self {text : String} {mark : Char} (hmark : mark ∉ text.toList) :
    afterLast text mark = text := by
  have hempty : afterLast "" mark = "" := rfl
  have happend := afterLast_append_of_notMem "" hmark
  rwa [hempty, String.empty_append] at happend

theorem afterLast_append {lead text : String} {mark : Char} (hmark : mark ∉ text.toList) :
    afterLast (.ofList (lead.toList ++ mark :: text.toList)) mark = text := by
  rw [afterLast_lead, afterLast_eq_self hmark]

theorem dropEndWhile_append_afterLast (s : String) (mark : Char) :
    dropEndWhile s (· != mark) ++ afterLast s mark = s := by
  rw [dropEndWhile, afterLast, ← String.ofList_append, ← List.reverse_append,
    List.takeWhile_append_dropWhile, List.reverse_reverse, String.ofList_toList]

/-- What is left in front of the last part of a text ends with the mark. -/
theorem getLast?_dropEndWhile {s : String} {mark c : Char}
    (hc : c ∈ (dropEndWhile s (· != mark)).toList.getLast?) : c = mark := by
  rw [dropEndWhile, String.toList_ofList, List.getLast?_reverse] at hc
  have hhead := List.head?_dropWhile_not (· != mark) s.toList.reverse
  rw [Option.mem_def.mp hc] at hhead
  simpa using hhead

theorem mem_of_mem_stripSuffix {s ending : String} {c : Char}
    (hc : c ∈ (stripSuffix s ending).toList) : c ∈ s.toList := by
  rw [stripSuffix] at hc
  cases hends : dropSuffix? s ending with
  | none => rwa [hends] at hc
  | some rest =>
    rw [hends] at hc
    rw [dropSuffix?_eq_some_iff.mp hends, String.toList_append]
    exact List.mem_append_left _ hc

theorem mem_of_mem_afterLast {s : String} {mark c : Char} (hc : c ∈ (afterLast s mark).toList) :
    c ∈ s.toList := by
  rw [afterLast, String.toList_ofList, List.mem_reverse] at hc
  exact List.mem_reverse.mp ((List.takeWhile_prefix _).subset hc)

theorem cutChars?_eq_none_of_notMem {cs : List Char} {mark : Char} (hmark : mark ∉ cs) :
    cutChars? [mark] cs = none := by
  induction cs with
  | nil => rfl
  | cons c cs ih =>
    obtain ⟨hc, hcs⟩ := List.ne_and_not_mem_of_not_mem_cons hmark
    rw [cutChars?, isPrefixOf?_cons, if_neg (by simpa using hc), ih hcs]
    rfl

theorem cutChars?_singleton_append {before : List Char} {mark : Char} (hmark : mark ∉ before)
    (after : List Char) : cutChars? [mark] (before ++ mark :: after) = some (before, after) := by
  induction before with
  | nil =>
    rw [List.nil_append, cutChars?, isPrefixOf?_cons, if_pos (beq_self_eq_true mark)]
    rfl
  | cons c before ih =>
    obtain ⟨hc, hbefore⟩ := List.ne_and_not_mem_of_not_mem_cons hmark
    rw [List.cons_append, cutChars?, isPrefixOf?_cons, if_neg (by simpa using hc), ih hbefore]
    rfl

theorem cut?_eq_none_of_notMem {text : String} {mark : Char} (hmark : mark ∉ text.toList) :
    cut? text (.singleton mark) = none := by
  rw [cut?, String.toList_singleton, cutChars?_eq_none_of_notMem hmark]
  rfl

theorem eq_false_of_mem_splitOnP {p : Char → Bool} {cs part : List Char}
    (hpart : part ∈ cs.splitOnP p) : ∀ c ∈ part, p c = false := by
  induction cs generalizing part with
  | nil =>
    obtain rfl : part = [] := by simpa using hpart
    exact nofun
  | cons c cs ih =>
    rw [List.splitOnP_cons_eq_if_modifyHead] at hpart
    split at hpart
    case isTrue =>
      rcases List.mem_cons.mp hpart with rfl | hpart
      · exact nofun
      · exact ih hpart
    case isFalse hc =>
      obtain ⟨first, rest, hsplit⟩ := List.exists_cons_of_ne_nil (List.splitOnP_ne_nil p cs)
      rw [hsplit] at hpart ih
      rcases List.mem_cons.mp hpart with rfl | hpart
      · exact List.forall_mem_cons.mpr ⟨Bool.eq_false_iff.mpr hc, ih List.mem_cons_self⟩
      · exact ih (List.mem_cons_of_mem _ hpart)

theorem notMem_of_mem_splitOn {mark : Char} {cs part : List Char}
    (hpart : part ∈ cs.splitOn mark) : mark ∉ part := by
  intro hmark
  simpa using eq_false_of_mem_splitOnP hpart mark hmark

/-! ### Trimming -/

/-- Exactly the texts that neither start nor end with a blank survive trimming. -/
theorem trimChars_eq_self_iff {cs : List Char} :
    trimChars cs = cs ↔
      (∀ c ∈ cs.head?, isBlank c = false) ∧ ∀ c ∈ cs.getLast?, isBlank c = false := by
  have hstart : trimStartChars cs = cs ↔ ∀ c ∈ cs.head?, isBlank c = false := by
    cases cs with
    | nil => simp [trimStartChars]
    | cons c cs =>
      rw [trimStartChars, List.dropWhile_eq_self_iff]
      simp
  have hend : trimEndChars cs = cs ↔ ∀ c ∈ cs.getLast?, isBlank c = false := by
    change List.rdropWhile isBlank cs = cs ↔ _
    rw [List.rdropWhile_eq_self_iff]
    constructor
    · intro hlast c hc
      obtain ⟨hne, rfl⟩ := List.mem_getLast?_eq_getLast hc
      simpa using hlast hne
    · intro hlast hne
      simpa using hlast _ (List.getLast_mem_getLast? hne)
  rw [← hstart, ← hend]
  constructor
  · intro htrim
    have hle : cs.length ≤ (trimStartChars cs).length := by
      calc cs.length = (trimEndChars (trimStartChars cs)).length := congrArg List.length htrim.symm
        _ ≤ (trimStartChars cs).length :=
          (List.rdropWhile_prefix isBlank (l := trimStartChars cs)).length_le
    have hcs : trimStartChars cs = cs := (List.dropWhile_suffix isBlank).eq_of_length_le hle
    exact ⟨hcs, by rwa [trimChars, hcs] at htrim⟩
  · rintro ⟨hfirst, hlast⟩
    rw [trimChars, hfirst, hlast]

theorem trim_eq_self_iff {s : String} :
    trim s = s ↔
      (∀ c ∈ s.toList.head?, isBlank c = false) ∧ ∀ c ∈ s.toList.getLast?, isBlank c = false := by
  rw [← trimChars_eq_self_iff, trim, ← String.toList_inj, String.toList_ofList]

theorem trim_trim (s : String) : trim (trim s) = trim s := by
  rw [trim_eq_self_iff, trim, String.toList_ofList, trimChars]
  constructor
  · intro c hc
    obtain ⟨rest, hrest⟩ : trimEndChars (trimStartChars s.toList) <+: trimStartChars s.toList :=
      List.rdropWhile_prefix isBlank _
    have hhead := List.head?_dropWhile_not isBlank s.toList
    have hstart : (trimStartChars s.toList).head? = some c := by
      rw [← hrest, List.head?_append, hc]
      rfl
    rw [← trimStartChars, hstart] at hhead
    simpa using hhead
  · intro c hc
    obtain ⟨hne, rfl⟩ := List.mem_getLast?_eq_getLast hc
    have hlast := List.rdropWhile_last_not isBlank (trimStartChars s.toList) hne
    rwa [Bool.not_eq_true] at hlast

/-! ### Blanks around a text -/

def AllBlank (s : String) : Prop := ∀ c ∈ s.toList, isBlank c = true

/-- A text is what trimming leaves of it, with blanks around. -/
theorem exists_eq_trim (s : String) :
    ∃ lead tail, AllBlank lead ∧ AllBlank tail ∧ s = lead ++ (trim s ++ tail) := by
  refine ⟨.ofList (s.toList.takeWhile isBlank),
    .ofList ((trimStartChars s.toList).rtakeWhile isBlank), ?_, ?_, ?_⟩
  · intro c hc
    rw [String.toList_ofList] at hc
    exact List.mem_takeWhile_imp hc
  · intro c hc
    rw [String.toList_ofList] at hc
    exact List.mem_rtakeWhile_imp hc
  · have hend : trimChars s.toList ++ (trimStartChars s.toList).rtakeWhile isBlank =
        trimStartChars s.toList := List.rdropWhile_append_rtakeWhile ..
    rw [← String.toList_inj, trim, String.toList_append, String.toList_append, String.toList_ofList,
      String.toList_ofList, String.toList_ofList, hend, trimStartChars,
      List.takeWhile_append_dropWhile]

theorem trim_append_blanks {blanks : String} (hblanks : AllBlank blanks) (s : String) :
    trim (s ++ blanks) = trim s := by
  have hend (cs : List Char) : trimEndChars (cs ++ blanks.toList) = trimEndChars cs := by
    rw [trimEndChars, List.reverse_append,
      List.dropWhile_append_of_pos fun c hc => hblanks c (List.mem_reverse.mp hc), trimEndChars]
  have hnil : blanks.toList.dropWhile isBlank = [] := List.dropWhile_eq_nil_iff.mpr hblanks
  rw [trim, String.toList_append, trim, trimChars, trimChars, trimStartChars, List.dropWhile_append,
    trimStartChars]
  split
  case isTrue hempty => rw [hnil, List.isEmpty_iff.mp hempty]
  case isFalse => rw [hend]

theorem trim_eq_empty_iff {s : String} : trim s = "" ↔ AllBlank s := by
  constructor
  · intro hempty
    obtain ⟨lead, tail, hlead, htail, hsplit⟩ := exists_eq_trim s
    rw [hempty, String.empty_append] at hsplit
    intro c hc
    rw [hsplit, String.toList_append, List.mem_append] at hc
    exact hc.elim (hlead c) (htail c)
  · intro hblank
    have htrim := trim_append_blanks hblank ""
    rwa [String.empty_append] at htrim

theorem trim_blanks_append {blanks : String} (hblanks : AllBlank blanks) (s : String) :
    trim (blanks ++ s) = trim s := by
  rw [trim, String.toList_append, trimChars, trimStartChars, List.dropWhile_append_of_pos hblanks,
    ← trimStartChars, ← trimChars, ← trim]

theorem indentation_blanks_append {blanks : String} (hblanks : AllBlank blanks) (s : String) :
    indentation (blanks ++ s) = blanks.toList.length + indentation s := by
  rw [indentation, String.toList_append, List.takeWhile_append_of_pos hblanks, List.length_append,
    indentation]

theorem indentation_append {blanks s : String} (hs : trim s ≠ "") :
    indentation (s ++ blanks) = indentation s := by
  have hstart : trimStartChars s.toList ≠ [] := by
    intro hnil
    rw [trim, trimChars, hnil] at hs
    exact hs rfl
  have hnotAll : (s.toList.takeWhile isBlank).length ≠ s.toList.length := by
    intro hlength
    have hsplit := congrArg List.length
      (List.takeWhile_append_dropWhile (p := isBlank) (l := s.toList))
    rw [List.length_append, hlength] at hsplit
    exact hstart (List.length_eq_zero_iff.mp (by rw [trimStartChars]; omega))
  rw [indentation, String.toList_append, List.takeWhile_append, if_neg hnotAll, indentation]

/-! ### Indentation by spaces -/

def spaces (n : Nat) : String := .ofList (List.replicate n ' ')

theorem isBlank_of_mem_spaces {n : Nat} : ∀ c ∈ List.replicate n ' ', isBlank c = true := by
  intro c hc
  rw [List.eq_of_mem_replicate hc]
  decide

theorem allBlank_spaces (n : Nat) : AllBlank (spaces n) := by
  rw [AllBlank, spaces, String.toList_ofList]
  exact isBlank_of_mem_spaces

theorem trim_spaces_append {s : String} (hs : trim s = s) (n : Nat) : trim (spaces n ++ s) = s := by
  rw [trim_blanks_append (allBlank_spaces n), hs]

theorem takeWhile_spaces_append {s : String} (hs : trim s = s) (hne : s ≠ "") (n : Nat) :
    (spaces n ++ s).toList.takeWhile isBlank = List.replicate n ' ' := by
  rw [spaces, String.toList_append, String.toList_ofList,
    List.takeWhile_append_of_pos isBlank_of_mem_spaces]
  cases hcs : s.toList with
  | nil => exact absurd (String.toList_eq_nil_iff.mp hcs) hne
  | cons c cs =>
    have hc : isBlank c = false := (trim_eq_self_iff.mp hs).1 c (by simp [hcs])
    simp [hc]

theorem indentation_spaces_append {s : String} (hs : trim s = s) (hne : s ≠ "") (n : Nat) :
    indentation (spaces n ++ s) = n := by
  rw [indentation, takeWhile_spaces_append hs hne, List.length_replicate]

end RamlSchema.Text
