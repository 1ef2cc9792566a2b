import Mathlib.Logic.Function.Basic
import RamlSchema.Text.Base64

/-!
# Sextets

Bytes in base 64 are numbers below sixty-four, and no two sequences of bytes have the same ones. All
but the last two of these numbers are written as letters and digits, so the letters and digits of an
encoding tell the numbers below sixty-two, and nothing about the others.
-/

namespace RamlSchema.Text.Base64

/-- The numbers below sixty-four that bytes are cut into, without the padding behind them. -/
def sextets : List UInt8 → List Nat
  | a :: b :: c :: rest =>
    a.toNat / 4 :: (a.toNat % 4 * 16 + b.toNat / 16) :: (b.toNat % 16 * 4 + c.toNat / 64) ::
      c.toNat % 64 :: sextets rest
  | [a, b] => [a.toNat / 4, a.toNat % 4 * 16 + b.toNat / 16, b.toNat % 16 * 4]
  | [a] => [a.toNat / 4, a.toNat % 4 * 16]
  | [] => []

/-- The sextets that are written as letters and digits. -/
def keptSextets (bytes : List UInt8) : List Nat := (sextets bytes).filter (· < 62)

/-! ### Letters and digits -/

def place (c : Char) : Nat := ((List.range 64).map symbol).idxOf c

theorem place_symbol : ∀ n < 64, place (symbol n) = n := by decide +kernel

theorem isAlphanum_symbol : ∀ n < 64, (symbol n).isAlphanum = decide (n < 62) := by decide

theorem filter_symbol_cons {n : Nat} (hn : n < 64) {cs : List Char} {ns : List Nat}
    (hrest : cs.filter Char.isAlphanum = (ns.filter (· < 62)).map symbol) :
    (symbol n :: cs).filter Char.isAlphanum = ((n :: ns).filter (· < 62)).map symbol := by
  rw [List.filter_cons, List.filter_cons, isAlphanum_symbol n hn, hrest]
  split <;> rfl

theorem filter_encode (bytes : List UInt8) :
    (encode bytes).filter Char.isAlphanum = (keptSextets bytes).map symbol := by
  rw [keptSextets]
  fun_induction encode bytes with
  | case1 a b c rest ih =>
    have ha := a.toNat_lt
    have hb := b.toNat_lt
    have hc := c.toNat_lt
    refine filter_symbol_cons (by omega) (filter_symbol_cons (by omega) ?_)
    exact filter_symbol_cons (by omega) (filter_symbol_cons (by omega) ih)
  | case2 a b =>
    have ha := a.toNat_lt
    have hb := b.toNat_lt
    refine filter_symbol_cons (by omega) (filter_symbol_cons (by omega) ?_)
    exact filter_symbol_cons (by omega) rfl
  | case3 a =>
    have ha := a.toNat_lt
    exact filter_symbol_cons (by omega) (filter_symbol_cons (by omega) rfl)
  | case4 => rfl

theorem map_place_map_symbol (bytes : List UInt8) :
    ((keptSextets bytes).map symbol).map place = keptSextets bytes := by
  rw [List.map_map]
  refine (List.map_congr_left fun n hn => ?_).trans (List.map_id _)
  have hlt : n < 62 := of_decide_eq_true (List.mem_filter.mp hn).2
  exact place_symbol n (by omega)

/-- The letters and digits of two encodings agree exactly if the sextets that they stand for do. -/
theorem filter_encode_eq_iff (xs ys : List UInt8) :
    (encode xs).filter Char.isAlphanum = (encode ys).filter Char.isAlphanum ↔
      keptSextets xs = keptSextets ys := by
  rw [filter_encode, filter_encode]
  refine ⟨fun h => ?_, congrArg _⟩
  rw [← map_place_map_symbol xs, ← map_place_map_symbol ys, h]

/-! ### Bytes -/

/-- The first two sextets of a group fix its first byte and the upper half of the second. -/
theorem byte_eq_of_parts {a a' b b' : UInt8} (hupper : a.toNat / 4 = a'.toNat / 4)
    (hlower : a.toNat % 4 * 16 + b.toNat / 16 = a'.toNat % 4 * 16 + b'.toNat / 16) :
    a = a' ∧ b.toNat / 16 = b'.toNat / 16 := by
  have hb := b.toNat_lt
  have hb' := b'.toNat_lt
  exact ⟨UInt8.toNat_inj.mp (by omega), by omega⟩

theorem sextets_injective : Function.Injective sextets := by
  intro xs
  fun_induction sextets xs with
  | case1 a b c rest ih =>
    rintro (- | ⟨a', - | ⟨b', - | ⟨c', rest'⟩⟩⟩) heq
    all_goals simp only [sextets, List.cons.injEq, reduceCtorEq, and_false] at heq
    obtain ⟨hone, htwo, hthree, hfour, hrest⟩ := heq
    obtain ⟨rfl, hb⟩ := byte_eq_of_parts hone htwo
    have hc := c.toNat_lt
    have hc' := c'.toNat_lt
    obtain rfl : b = b' := UInt8.toNat_inj.mp (by omega)
    obtain rfl : c = c' := UInt8.toNat_inj.mp (by omega)
    rw [ih hrest]
  | case2 a b =>
    rintro (- | ⟨a', - | ⟨b', - | ⟨c', rest'⟩⟩⟩) heq
    all_goals simp only [sextets, List.cons.injEq, reduceCtorEq, and_false] at heq
    obtain ⟨hone, htwo, hthree, -⟩ := heq
    obtain ⟨rfl, hb⟩ := byte_eq_of_parts hone htwo
    obtain rfl : b = b' := UInt8.toNat_inj.mp (by omega)
    rfl
  | case3 a =>
    rintro (- | ⟨a', - | ⟨b', - | ⟨c', rest'⟩⟩⟩) heq
    all_goals simp only [sextets, List.cons.injEq, reduceCtorEq, and_false] at heq
    obtain rfl : a = a' := UInt8.toNat_inj.mp (by omega)
    rfl
  | case4 =>
    rintro (- | ⟨a', - | ⟨b', - | ⟨c', rest'⟩⟩⟩) heq
    all_goals first | rfl | cases heq

/-- Bytes of seven bits make no sextet above sixty-one but at the end of a group, where the lower
six bits are one. -/
theorem sextets_lt_of_small {bytes : List UInt8}
    (hbytes : ∀ b ∈ bytes, b.toNat < 0x80 ∧ b.toNat % 64 < 62) : ∀ n ∈ sextets bytes, n < 62 := by
  fun_induction sextets bytes with
  | case1 a b c rest ih =>
    simp only [List.forall_mem_cons] at hbytes ⊢
    obtain ⟨ha, hb, hc, hrest⟩ := hbytes
    exact ⟨by omega, by omega, by omega, hc.2, ih hrest⟩
  | case2 a b =>
    simp only [List.forall_mem_cons] at hbytes ⊢
    obtain ⟨ha, hb, -⟩ := hbytes
    exact ⟨by omega, by omega, by omega, List.forall_mem_nil _⟩
  | case3 a =>
    simp only [List.forall_mem_cons] at hbytes ⊢
    exact ⟨by omega, by omega, List.forall_mem_nil _⟩
  | case4 => exact List.forall_mem_nil _

/-- Where every sextet is kept, nothing is lost. -/
theorem keptSextets_injOn {xs ys : List UInt8} (hxs : ∀ n ∈ sextets xs, n < 62)
    (hys : ∀ n ∈ sextets ys, n < 62) (h : keptSextets xs = keptSextets ys) : xs = ys := by
  have hall : ∀ {bytes : List UInt8}, (∀ n ∈ sextets bytes, n < 62) →
      keptSextets bytes = sextets bytes := fun hbytes =>
    List.filter_eq_self.mpr fun n hn => decide_eq_true (hbytes n hn)
  rw [hall hxs, hall hys] at h
  exact sextets_injective h

/-! ### Whole groups -/

theorem sextets_append {xs : List UInt8} (hxs : xs.length % 3 = 0) (ys : List UInt8) :
    sextets (xs ++ ys) = sextets xs ++ sextets ys := by
  fun_induction sextets xs with
  | case1 a b c rest ih =>
    have hrest : rest.length % 3 = 0 := by
      simp only [List.length_cons] at hxs
      omega
    simp only [List.cons_append, sextets, ih hrest]
  | case2 a b => simp at hxs
  | case3 a => simp at hxs
  | case4 => rfl

/-- A small byte that ends a group adds itself as a sextet and changes no other. -/
theorem sextets_concat {xs : List UInt8} (hxs : xs.length % 3 = 2) {c : UInt8} (hc : c.toNat < 64) :
    sextets (xs ++ [c]) = sextets xs ++ [c.toNat] := by
  fun_induction sextets xs with
  | case1 a b d rest ih =>
    have hrest : rest.length % 3 = 2 := by
      simp only [List.length_cons] at hxs
      omega
    simp only [List.cons_append, sextets, ih hrest]
  | case2 a b =>
    simp only [List.cons_append, List.nil_append, sextets, Nat.mod_eq_of_lt hc, Nat.div_eq_of_lt hc,
      Nat.add_zero]
  | case3 a => simp at hxs
  | case4 => simp at hxs

/-- A byte at the end of a group that makes one of the last two sextets leaves no trace. -/
theorem keptSextets_append_cons {xs : List UInt8} (hxs : xs.length % 3 = 2) {c : UInt8}
    (hc : c.toNat = 62 ∨ c.toNat = 63) (ys : List UInt8) :
    keptSextets (xs ++ c :: ys) = keptSextets xs ++ keptSextets ys := by
  have hgroup : (xs ++ [c]).length % 3 = 0 := by
    rw [List.length_append, List.length_singleton]
    omega
  have hnot : decide (c.toNat < 62) = false := decide_eq_false (by omega)
  rw [List.append_cons, keptSextets, sextets_append hgroup, sextets_concat hxs (by omega)]
  simp [keptSextets, hnot]

end RamlSchema.Text.Base64
