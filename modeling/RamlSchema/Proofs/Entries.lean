import Mathlib.Data.List.Nodup
import Mathlib.Data.List.Perm.Subperm
import RamlSchema.Entries
import RamlSchema.Proofs.Lists

/-!
# Look-ups in entries

A map is determined by its look-ups up to the order of its keys, and agreement of two maps is
agreement of their look-ups. Everything that is written only adds to what was there before.
-/

namespace RamlSchema.Entries

variable {κ α : Type} [DecidableEq κ]

/-! ### Look-ups after writing -/

theorem get?_append (m n : Entries κ α) (key : κ) :
    (m ++ n).get? key = (m.get? key).or (n.get? key) := by
  induction m with
  | nil => rfl
  | cons head rest ih =>
    obtain ⟨k, v⟩ := head
    by_cases hk : k = key
    · simp [get?, hk]
    · simpa [get?, hk] using ih

theorem get?_putNew (m : Entries κ α) (key other : κ) (value : α) :
    (m.putNew key value).get? other =
      (m.get? other).or (if key = other then some value else none) := by
  unfold putNew
  split
  · rename_i hkey
    by_cases ho : key = other
    · subst ho
      obtain ⟨old, hold⟩ := Option.isSome_iff_exists.mp hkey
      simp [hold]
    · simp [ho]
  · rw [get?_append]
    simp [get?]

theorem put_eq_append {m : Entries κ α} {key : κ} (hkey : key ∉ m.keys) (value : α) :
    m.put key value = m ++ [(key, value)] := by
  induction m with
  | nil => rfl
  | cons head rest ih =>
    obtain ⟨k, v⟩ := head
    rw [keys, List.map_cons, List.mem_cons, not_or] at hkey
    rw [put, if_neg (Ne.symm hkey.1), ih hkey.2]
    rfl

/-- Only the keys decide whether a pair is kept, so a look-up sees the kept keys as before. -/
theorem get?_filter (m : Entries κ α) (p : κ → Bool) (key : κ) :
    get? (m.filter fun pair => p pair.1) key = if p key then m.get? key else none := by
  induction m with
  | nil => simp [get?]
  | cons head rest ih =>
    obtain ⟨k, v⟩ := head
    by_cases hk : k = key
    · subst hk
      by_cases hp : p k
      · simp [get?, hp]
      · simpa [hp] using ih
    · by_cases hp : p k
      · simpa [get?, hk, hp] using ih
      · simpa [get?, hk, hp] using ih

/-- A write shows among the kept keys exactly if its own key is kept. -/
theorem filter_put (m : Entries κ α) (p : κ → Bool) (key : κ) (value : α) :
    (m.put key value).filter (fun pair => p pair.1) =
      if p key then put (m.filter fun pair => p pair.1) key value
      else m.filter fun pair => p pair.1 := by
  induction m with
  | nil => cases hkey : p key <;> simp [put, hkey]
  | cons head rest ih =>
    obtain ⟨k, v⟩ := head
    by_cases hk : k = key
    · subst hk
      cases hkey : p k <;> simp [put, hkey]
    · rw [put, if_neg hk, List.filter_cons, List.filter_cons, ih]
      by_cases hkey : p key
      · cases hp : p k <;> simp [put, hk, hkey]
      · simp [hkey]

theorem length_put (m : Entries κ α) (key : κ) (value : α) :
    (m.put key value).length = m.length + if key ∈ m.keys then 0 else 1 := by
  have hkeys := congrArg List.length (keys_put m key value)
  have hlength : ∀ n : Entries κ α, n.keys.length = n.length := fun n => List.length_map _
  rw [hlength] at hkeys
  rw [hkeys]
  split
  · exact hlength m
  · rw [List.length_append, hlength, List.length_singleton]

theorem mem_of_get?_eq_some {m : Entries κ α} {key : κ} {value : α}
    (hget : m.get? key = some value) : (key, value) ∈ m := by
  induction m with
  | nil => simp [get?] at hget
  | cons head rest ih =>
    obtain ⟨k, v⟩ := head
    by_cases hk : k = key
    · simp only [get?, hk, if_true, Option.some.injEq] at hget
      simp [hk, hget]
    · simp only [get?, hk, if_false] at hget
      exact List.mem_cons_of_mem _ (ih hget)

theorem eq_or_mem_of_mem_put {m : Entries κ α} {key : κ} {value : α} {pair : κ × α}
    (hpair : pair ∈ m.put key value) : pair = (key, value) ∨ pair ∈ m := by
  induction m with
  | nil => exact Or.inl (by simpa [put] using hpair)
  | cons head rest ih =>
    obtain ⟨k, v⟩ := head
    by_cases hk : k = key
    · simp only [put, hk, if_true, List.mem_cons] at hpair
      exact hpair.imp_right (List.mem_cons_of_mem _)
    · simp only [put, hk, if_false, List.mem_cons] at hpair
      rcases hpair with rfl | hrest
      · exact Or.inr (by simp)
      · exact (ih hrest).imp_right (List.mem_cons_of_mem _)

theorem mem_or_mem_of_mem_putAll {m : Entries κ α} {pairs : List (κ × α)} {pair : κ × α}
    (hpair : pair ∈ m.putAll pairs) : pair ∈ pairs ∨ pair ∈ m := by
  induction pairs generalizing m with
  | nil => exact Or.inr hpair
  | cons first pairs ih =>
    rcases ih (m := m.put first.1 first.2) hpair with hmem | hput
    · exact Or.inl (List.mem_cons_of_mem _ hmem)
    · rcases eq_or_mem_of_mem_put hput with rfl | hold
      · exact Or.inl (by simp)
      · exact Or.inr hold

theorem putAll_append (m : Entries κ α) (pairs others : List (κ × α)) :
    m.putAll (pairs ++ others) = (m.putAll pairs).putAll others := List.foldl_append ..

theorem ofList_concat (pairs : List (κ × α)) (key : κ) (value : α) :
    ofList (pairs ++ [(key, value)]) = (ofList pairs).put key value := putAll_append ..

/-- Of several writes under one key the last one counts. -/
theorem get?_putAll (m : Entries κ α) (pairs : List (κ × α)) (key : κ) :
    (m.putAll pairs).get? key =
      ((pairs.reverse.find? (·.1 = key)).map Prod.snd).or (m.get? key) := by
  induction pairs generalizing m with
  | nil => rfl
  | cons first pairs ih =>
    obtain ⟨k, v⟩ := first
    change ((m.put k v).putAll pairs).get? key = _
    rw [ih, get?_put, List.reverse_cons, List.find?_append]
    cases pairs.reverse.find? (·.1 = key) with
    | some last => rfl
    | none => by_cases hk : k = key <;> simp [hk]

theorem get?_ofList (pairs : List (κ × α)) (key : κ) :
    (ofList pairs).get? key = (pairs.reverse.find? (·.1 = key)).map Prod.snd := by
  rw [ofList, get?_putAll]
  exact Option.or_none

theorem get?_ofList_append_cons {key : κ} {after : List (κ × α)}
    (hlast : ∀ pair ∈ after, pair.1 ≠ key) (before : List (κ × α)) (value : α) :
    (ofList (before ++ (key, value) :: after)).get? key = some value := by
  have hnone : after.reverse.find? (·.1 = key) = none := by
    rw [List.find?_eq_none]
    intro pair hpair
    simpa using hlast pair (List.mem_reverse.mp hpair)
  rw [get?_ofList, List.reverse_append, List.reverse_cons, List.append_assoc, List.find?_append,
    hnone, Option.none_or, List.singleton_append, List.find?_cons_of_pos (by simp), Option.map_some]

/-- Every value is found under its key exactly if values that share a key are equal. -/
theorem forall_get?_ofList_map_iff {β : Type} (key : β → κ) (value : β → α) (xs : List β) :
    (∀ x ∈ xs, (ofList (xs.map fun x => (key x, value x))).get? (key x) = some (value x)) ↔
      ∀ x ∈ xs, ∀ y ∈ xs, key x = key y → value x = value y := by
  constructor
  · intro hall x hx y hy hkey
    have hget := hall x hx
    rw [hkey, hall y hy] at hget
    exact (Option.some_inj.mp hget).symm
  · intro hall x hx
    rw [get?_ofList, ← List.map_reverse, List.find?_map]
    obtain ⟨y, hfind⟩ : ∃ y, xs.reverse.find? (fun y => key y = key x) = some y := by
      rw [← Option.isSome_iff_exists, List.find?_isSome]
      exact ⟨x, List.mem_reverse.mpr hx, by simp⟩
    have hy : y ∈ xs := List.mem_reverse.mp (List.mem_of_find?_eq_some hfind)
    have hkey : key y = key x := by simpa using List.find?_some hfind
    change ((xs.reverse.find? fun y => key y = key x).map _).map _ = _
    rw [hfind]
    exact congrArg some (hall y hy x hx hkey)

theorem mem_keys_iff (m : Entries κ α) (key : κ) :
    key ∈ m.keys ↔ ∃ value, m.get? key = some value := by
  rw [← Option.isSome_iff_exists, Option.isSome_iff_ne_none, ne_eq, get?_eq_none_iff, not_not]

theorem mem_keys_ofList_iff (pairs : List (κ × α)) (key : κ) :
    key ∈ (ofList pairs).keys ↔ key ∈ pairs.map Prod.fst := by
  rw [mem_keys_iff, get?_ofList, ← Option.isSome_iff_exists, Option.isSome_map, List.find?_isSome]
  simp

theorem keys_ofList (pairs : List (κ × α)) :
    (ofList pairs).keys = (pairs.map Prod.fst).eraseDups := by
  induction pairs using List.reverseRecOn with
  | nil => rfl
  | append_singleton pairs pair ih =>
    obtain ⟨key, value⟩ := pair
    rw [ofList_concat, keys_put, List.map_append, List.map_singleton, eraseDups_concat, ih]
    simp only [List.mem_eraseDups]

/-! ### Maps without repeated keys -/

def NodupKeys (m : Entries κ α) : Prop := m.keys.Nodup

omit [DecidableEq κ] in
theorem nodupKeys_nil : NodupKeys ([] : Entries κ α) := List.nodup_nil

theorem NodupKeys.putNew {m : Entries κ α} (hm : m.NodupKeys) (key : κ) (value : α) :
    (m.putNew key value).NodupKeys := by
  unfold Entries.putNew
  split
  · exact hm
  · rename_i hkey
    have hnone : m.get? key = none := by simpa using hkey
    have hnew : key ∉ m.keys := (get?_eq_none_iff m key).mp hnone
    have hkeys : keys (m ++ [(key, value)]) = m.keys ++ [key] := by simp [keys]
    rw [NodupKeys, hkeys]
    exact List.Nodup.append hm (List.nodup_singleton key) (by simpa using hnew)

theorem NodupKeys.put {m : Entries κ α} (hm : m.NodupKeys) (key : κ) (value : α) :
    (m.put key value).NodupKeys := by
  rw [NodupKeys, keys_put]
  split
  case isTrue => exact hm
  case isFalse hkey =>
    exact List.Nodup.append hm (List.nodup_singleton key) (by simpa using hkey)

theorem NodupKeys.putAll {m : Entries κ α} (hm : m.NodupKeys) (pairs : List (κ × α)) :
    (m.putAll pairs).NodupKeys := by
  induction pairs generalizing m with
  | nil => exact hm
  | cons first pairs ih => exact ih (hm.put first.1 first.2)

omit [DecidableEq κ] in
theorem NodupKeys.filter {m : Entries κ α} (hm : m.NodupKeys) (p : κ × α → Bool) :
    NodupKeys (m.filter p) :=
  List.Nodup.sublist (List.filter_sublist.map Prod.fst) hm

theorem nodupKeys_ofList (pairs : List (κ × α)) : (ofList pairs).NodupKeys :=
  nodupKeys_nil.putAll pairs

theorem ofList_eq_self {pairs : Entries κ α} (hpairs : pairs.NodupKeys) : ofList pairs = pairs := by
  induction pairs using List.reverseRecOn with
  | nil => rfl
  | append_singleton pairs pair ih =>
    obtain ⟨key, value⟩ := pair
    rw [NodupKeys, keys, List.map_append, List.map_singleton, List.nodup_append_comm,
      List.singleton_append, List.nodup_cons] at hpairs
    rw [ofList_concat, ih hpairs.2, put_eq_append hpairs.1]

theorem NodupKeys.get?_eq_some_iff {m : Entries κ α} (hm : m.NodupKeys) {key : κ} {value : α} :
    m.get? key = some value ↔ (key, value) ∈ m := by
  refine ⟨mem_of_get?_eq_some, fun hmem => ?_⟩
  induction m with
  | nil => simp at hmem
  | cons head rest ih =>
    obtain ⟨k, v⟩ := head
    have hnodup : k ∉ keys rest ∧ (keys rest).Nodup := List.nodup_cons.mp hm
    rcases List.mem_cons.mp hmem with heq | hrest
    · obtain ⟨rfl, rfl⟩ := Prod.mk.inj heq
      simp [get?]
    · have hne : k ≠ key := by
        intro hk
        exact hnodup.1 (hk ▸ List.mem_map_of_mem hrest)
      simpa [get?, hne] using ih hnodup.2 hrest

/-- Pairs without repeated keys are found as they are among what was there before. -/
theorem get?_putAll_of_nodupKeys {m n : Entries κ α} (hn : n.NodupKeys) (key : κ) :
    (m.putAll n).get? key = (n.get? key).or (m.get? key) := by
  induction n generalizing m with
  | nil => rfl
  | cons head rest ih =>
    obtain ⟨k, v⟩ := head
    have hnodup : k ∉ keys rest ∧ (keys rest).Nodup := List.nodup_cons.mp hn
    change ((m.put k v).putAll rest).get? key = _
    rw [ih hnodup.2, get?_put, get?]
    by_cases hk : k = key
    · subst hk
      rw [if_pos rfl, if_pos rfl, (get?_eq_none_iff rest k).mpr hnodup.1, Option.none_or,
        Option.some_or]
    · rw [if_neg hk, if_neg hk]

/-! ### Agreement -/

def SameLookups (m n : Entries κ α) : Prop := ∀ key, m.get? key = n.get? key

theorem SameLookups.trans {l m n : Entries κ α} (hlm : SameLookups l m) (hmn : SameLookups m n) :
    SameLookups l n :=
  fun key => (hlm key).trans (hmn key)

theorem SameLookups.perm {m n : Entries κ α} (hm : m.NodupKeys) (hn : n.NodupKeys)
    (h : SameLookups m n) : m.Perm n := by
  refine (List.perm_ext_iff_of_nodup (List.Nodup.of_map _ hm) (List.Nodup.of_map _ hn)).mpr ?_
  rintro ⟨key, value⟩
  rw [← hm.get?_eq_some_iff, ← hn.get?_eq_some_iff, h key]

/-- A map whose pairs another one of the same size has as well gives the same look-ups: there is
no room for a further key. -/
theorem agrees_iff [DecidableEq α] {m n : Entries κ α} (hm : m.NodupKeys) (hn : n.NodupKeys) :
    m.agrees n = true ↔ SameLookups m n := by
  constructor
  · intro hagrees
    simp only [agrees, Bool.and_eq_true, beq_iff_eq, List.all_eq_true, decide_eq_true_eq]
      at hagrees
    obtain ⟨hlength, hall⟩ := hagrees
    have hsubset : m ⊆ n := by
      rintro ⟨key, value⟩ hmem
      exact mem_of_get?_eq_some (hall (key, value) hmem)
    have hperm : m.Perm n :=
      (List.subperm_of_subset (List.Nodup.of_map _ hm) hsubset).perm_of_length_le
        (Nat.le_of_eq hlength.symm)
    intro key
    refine Option.ext fun value => ?_
    rw [hm.get?_eq_some_iff, hn.get?_eq_some_iff, hperm.mem_iff]
  · intro hsame
    have hperm := hsame.perm hm hn
    simp only [agrees, Bool.and_eq_true, beq_iff_eq, List.all_eq_true, decide_eq_true_eq]
    refine ⟨hperm.length_eq, ?_⟩
    rintro ⟨key, value⟩ hmem
    rw [← hsame key]
    exact hm.get?_eq_some_iff.mpr hmem

end RamlSchema.Entries
