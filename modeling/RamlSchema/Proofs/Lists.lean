import Mathlib.Data.List.Induction
import Mathlib.Data.List.Nodup

/-!
# Lists cut at an element

A list in front of an element and behind it: the last element of a kind has none of its kind behind
it, and a relation between earlier and later elements is one between an element and what follows.
What some elements yield stands in the order of all. A list without repetitions keeps each element
where it stands first, and one that is sorted stays so when elements are left out.
-/

namespace RamlSchema

theorem exists_last_of_exists {α : Type} {p : α → Prop} {xs : List α} (hxs : ∃ x ∈ xs, p x) :
    ∃ before x after, xs = before ++ x :: after ∧ p x ∧ ∀ y ∈ after, ¬p y := by
  induction xs with
  | nil => simp at hxs
  | cons x xs ih =>
    by_cases hlater : ∃ y ∈ xs, p y
    · obtain ⟨before, y, after, rfl, hy, hafter⟩ := ih hlater
      exact ⟨x :: before, y, after, rfl, hy, hafter⟩
    · obtain ⟨y, hy, hpy⟩ := hxs
      refine ⟨[], x, xs, rfl, ?_, fun y hy hpy => hlater ⟨y, hy, hpy⟩⟩
      rcases List.mem_cons.mp hy with rfl | hy
      · exact hpy
      · exact absurd ⟨y, hy, hpy⟩ hlater

theorem pairwise_iff_forall_append {α : Type} {R : α → α → Prop} {xs : List α} :
    xs.Pairwise R ↔ ∀ before x after, xs = before ++ x :: after → ∀ y ∈ after, R x y := by
  constructor
  · rintro hxs before x after rfl y hy
    exact List.rel_of_pairwise_cons (List.pairwise_append.mp hxs).2.1 hy
  · intro hxs
    induction xs with
    | nil => exact .nil
    | cons x xs ih =>
      refine .cons (hxs [] x xs rfl) (ih fun before y after hsplit => ?_)
      exact hxs (x :: before) y after (congrArg (x :: ·) hsplit)

theorem filterMap_sublist_map {α β : Type} {f : α → Option β} {g : α → β}
    (hsome : ∀ x y, f x = some y → y = g x) (xs : List α) :
    (xs.filterMap f).Sublist (xs.map g) := by
  induction xs with
  | nil => exact List.nil_sublist _
  | cons x xs ih =>
    cases hx : f x with
    | none =>
      rw [List.filterMap_cons_none hx]
      exact ih.cons _
    | some y =>
      rw [List.filterMap_cons_some hx, List.map_cons, hsome x y hx]
      exact ih.cons_cons _

/-- A fold does not depend on the order of elements of different kinds, if steps of different kinds
commute. -/
theorem foldl_eq_of_perm {α β κ : Type} {f : β → α → β} {kind : α → κ} {xs ys : List α}
    (hperm : xs.Perm ys) (hdistinct : (xs.map kind).Nodup)
    (hcomm : ∀ x ∈ xs, ∀ y ∈ xs, kind x ≠ kind y → ∀ z, f (f z x) y = f (f z y) x) (z : β) :
    xs.foldl f z = ys.foldl f z := by
  apply hperm.foldl_eq'
  intro x hx y hy z
  by_cases hkind : kind x = kind y
  · rw [List.inj_on_of_nodup_map hdistinct hx hy hkind]
  · exact hcomm x hx y hy hkind z

theorem mem_of_lookup_eq_some {α β : Type} [BEq α] [LawfulBEq α] {xs : List (α × β)} {a : α} {b : β}
    (hlookup : xs.lookup a = some b) : (a, b) ∈ xs := by
  obtain ⟨before, after, rfl, -⟩ := List.lookup_eq_some_iff.mp hlookup
  exact List.mem_append_right _ List.mem_cons_self

/-! ### Without repetitions -/

section EraseDups

variable {α : Type} [DecidableEq α]

theorem eraseDups_concat (xs : List α) (x : α) :
    (xs ++ [x]).eraseDups = if x ∈ xs then xs.eraseDups else xs.eraseDups ++ [x] := by
  rw [List.eraseDups_append]
  by_cases hx : x ∈ xs <;> simp [List.removeAll, hx, List.eraseDups_cons]

theorem nodup_eraseDups (xs : List α) : xs.eraseDups.Nodup := by
  induction xs using List.reverseRecOn with
  | nil => simp
  | append_singleton xs x ih =>
    rw [eraseDups_concat]
    split
    case isTrue => exact ih
    case isFalse hx => exact ih.append (List.nodup_singleton x) (by simpa using hx)

end EraseDups

/-! ### Sorted lists -/

section MergeSort

variable {α : Type} {le : α → α → Bool}

theorem takeWhile_not_le {a : α} {before after : List α}
    (hbefore : ∀ b ∈ before, (!le a b) = true) (hafter : ∀ b ∈ after, le a b = true) :
    (before ++ after).takeWhile (fun b => !le a b) = before := by
  rw [List.takeWhile_append_of_pos hbefore]
  cases after with
  | nil => exact List.append_nil before
  | cons b after => simp [hafter b List.mem_cons_self]

theorem le_of_mergeSort_cons (htrans : ∀ a b c, le a b → le b c → le a c)
    (htotal : ∀ a b, le a b || le b a) {a : α} {xs before after : List α}
    (hsort : (a :: xs).mergeSort le = before ++ a :: after) : ∀ b ∈ after, le a b = true := by
  have hsorted := List.pairwise_mergeSort htrans htotal (a :: xs)
  rw [hsort] at hsorted
  intro b hb
  exact List.rel_of_pairwise_cons (List.pairwise_append.mp hsorted).2.1 hb

/-- Sorting is stable, so that elements may be left out before or after it. -/
theorem filter_mergeSort (htrans : ∀ a b c, le a b → le b c → le a c)
    (htotal : ∀ a b, le a b || le b a) (p : α → Bool) (xs : List α) :
    (xs.mergeSort le).filter p = (xs.filter p).mergeSort le := by
  induction xs with
  | nil => simp
  | cons a xs ih =>
    obtain ⟨before, after, hsort, hrest, hbefore⟩ := List.mergeSort_cons htrans htotal a xs
    rw [hrest, List.filter_append] at ih
    rw [hsort, List.filter_append]
    cases ha : p a with
    | false =>
      rw [List.filter_cons_of_neg (by simp [ha]), List.filter_cons_of_neg (by simp [ha]), ih]
    | true =>
      obtain ⟨before', after', hsort', hrest', hbefore'⟩ :=
        List.mergeSort_cons htrans htotal a (xs.filter p)
      -- Both lists are cut in front of the first element that `a` may precede.
      have hcut : before.filter p ++ after.filter p = before' ++ after' := ih.trans hrest'
      have hafter := le_of_mergeSort_cons htrans htotal hsort
      have hfront : before.filter p = before' := by
        rw [← takeWhile_not_le (fun b hb => hbefore b (List.mem_of_mem_filter hb))
          (fun b hb => hafter b (List.mem_of_mem_filter hb)), hcut,
          takeWhile_not_le hbefore' (le_of_mergeSort_cons htrans htotal hsort')]
      rw [hfront] at hcut
      rw [List.filter_cons_of_pos ha, List.filter_cons_of_pos ha, hsort', hfront,
        List.append_cancel_left hcut]

end MergeSort

end RamlSchema
