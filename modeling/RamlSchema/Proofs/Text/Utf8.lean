import Mathlib.Data.List.Forall2
import RamlSchema.Text.Utf8

/-!
# Texts and bytes

Bytes are read as a text exactly if they are the bytes of that text. A first byte asks for further
bytes in certain ranges, and these ranges are the ones that the bytes of characters have: no
character has two forms, and no form stands for anything but a character.
-/

namespace RamlSchema.Text.Utf8

/-! ### Forms -/

def InRanges (ranges : List (Nat × Nat)) (bytes : List UInt8) : Prop :=
  List.Forall₂ (fun range byte => range.1 ≤ byte.toNat ∧ byte.toNat ≤ range.2) ranges bytes

/-- A first byte and the bytes that it asks for. -/
def IsForm (first : UInt8) (tails : List UInt8) : Prop :=
  ∃ ranges, tailRanges? first = some ranges ∧ InRanges ranges tails

theorem takeTails_append {ranges : List (Nat × Nat)} {tails : List UInt8}
    (htails : InRanges ranges tails) (rest : List UInt8) :
    takeTails ranges (tails ++ rest) = (tails, rest) := by
  induction htails with
  | nil => cases rest <;> rfl
  | cons hbyte _ ih => rw [List.cons_append, takeTails, if_pos hbyte, ih]

theorem append_takeTails (ranges : List (Nat × Nat)) (bytes : List UInt8) :
    (takeTails ranges bytes).1 ++ (takeTails ranges bytes).2 = bytes := by
  fun_induction takeTails ranges bytes with
  | case1 low high ranges b bs hb found rest htails ih =>
    rw [htails] at ih
    rw [← ih, List.cons_append]
  | case2 => rfl
  | case3 => rfl

theorem inRanges_takeTails {ranges : List (Nat × Nat)} {bytes : List UInt8}
    (hlength : (takeTails ranges bytes).1.length = ranges.length) :
    InRanges ranges (takeTails ranges bytes).1 := by
  fun_induction takeTails ranges bytes with
  | case1 low high ranges b bs hb found rest htails ih =>
    rw [htails] at ih
    exact .cons hb (ih (by simpa using hlength))
  | case2 => cases hlength
  | case3 ranges bs hother =>
    obtain rfl : ranges = [] := List.length_eq_zero_iff.mp hlength.symm
    exact .nil

/-! ### Characters -/

theorem toNat_ofNat_of_valid {n : Nat} (hn : n < 0xD800 ∨ 0xDFFF < n ∧ n < 0x110000) :
    (Char.ofNat n).val.toNat = n := by
  have hvalid : n.isValidChar := hn
  rw [Char.ofNat, dif_pos hvalid]
  rfl

theorem eq_ofNat {b : UInt8} {n : Nat} (hn : n = b.toNat) : UInt8.ofNat n = b := by
  rw [hn, UInt8.ofNat_toNat]

theorem encodeChar_charOf_one {b : UInt8} (hb : b.toNat < 0x80) :
    String.utf8EncodeChar (charOf b []) = [b] := by
  have hcode : (charOf b []).val.toNat = b.toNat := toNat_ofNat_of_valid (by simp; omega)
  rw [String.utf8EncodeChar]
  simp only [hcode]
  rw [if_pos (by omega), UInt8.ofNat_toNat]

theorem encodeChar_charOf_two {b t : UInt8} (hb : 0xC2 ≤ b.toNat ∧ b.toNat < 0xE0)
    (ht : 0x80 ≤ t.toNat ∧ t.toNat ≤ 0xBF) :
    String.utf8EncodeChar (charOf b [t]) = [b, t] := by
  have hcode : (charOf b [t]).val.toNat = b.toNat % 0x20 * 0x40 + t.toNat % 0x40 :=
    toNat_ofNat_of_valid (by simp; omega)
  rw [String.utf8EncodeChar]
  simp only [hcode]
  rw [if_neg (by omega), if_pos (by omega), eq_ofNat (b := b) (by omega),
    eq_ofNat (b := t) (by omega)]

theorem encodeChar_charOf_three {b t u : UInt8} (hb : 0xE0 ≤ b.toNat ∧ b.toNat < 0xF0)
    (ht : 0x80 ≤ t.toNat ∧ t.toNat ≤ 0xBF) (hu : 0x80 ≤ u.toNat ∧ u.toNat ≤ 0xBF)
    (hlong : b.toNat = 0xE0 → 0xA0 ≤ t.toNat) (hsurrogate : b.toNat = 0xED → t.toNat ≤ 0x9F) :
    String.utf8EncodeChar (charOf b [t, u]) = [b, t, u] := by
  have hcode : (charOf b [t, u]).val.toNat =
      (b.toNat % 0x10 * 0x40 + t.toNat % 0x40) * 0x40 + u.toNat % 0x40 :=
    toNat_ofNat_of_valid (by simp; omega)
  rw [String.utf8EncodeChar]
  simp only [hcode]
  rw [if_neg (by omega), if_neg (by omega), if_pos (by omega), eq_ofNat (b := b) (by omega),
    eq_ofNat (b := t) (by omega), eq_ofNat (b := u) (by omega)]

theorem encodeChar_charOf_four {b t u w : UInt8} (hb : 0xF0 ≤ b.toNat ∧ b.toNat < 0xF5)
    (ht : 0x80 ≤ t.toNat ∧ t.toNat ≤ 0xBF) (hu : 0x80 ≤ u.toNat ∧ u.toNat ≤ 0xBF)
    (hw : 0x80 ≤ w.toNat ∧ w.toNat ≤ 0xBF) (hlong : b.toNat = 0xF0 → 0x90 ≤ t.toNat)
    (hlast : b.toNat = 0xF4 → t.toNat ≤ 0x8F) :
    String.utf8EncodeChar (charOf b [t, u, w]) = [b, t, u, w] := by
  have hcode : (charOf b [t, u, w]).val.toNat =
      ((b.toNat % 0x08 * 0x40 + t.toNat % 0x40) * 0x40 + u.toNat % 0x40) * 0x40 +
        w.toNat % 0x40 :=
    toNat_ofNat_of_valid (by simp; omega)
  rw [String.utf8EncodeChar]
  simp only [hcode]
  rw [if_neg (by omega), if_neg (by omega), if_neg (by omega), eq_ofNat (b := b) (by omega),
    eq_ofNat (b := t) (by omega), eq_ofNat (b := u) (by omega),
    eq_ofNat (b := w) (by omega)]

/-- A form is the bytes of its character. -/
theorem IsForm.encodeChar_charOf {first : UInt8} {tails : List UInt8} (hform : IsForm first tails) :
    String.utf8EncodeChar (charOf first tails) = first :: tails := by
  obtain ⟨ranges, hranges, htails⟩ := hform
  unfold tailRanges? at hranges
  dsimp only at hranges
  split_ifs at hranges with hone hearly htwo he0 hed hthree hf0 hfour hf4 <;>
    obtain rfl := Option.some_inj.mp hranges
  · cases htails
    exact encodeChar_charOf_one hone
  · obtain - | ⟨ht, - | -⟩ := htails
    exact encodeChar_charOf_two ⟨by omega, htwo⟩ ht
  · obtain - | ⟨ht, - | ⟨hu, - | -⟩⟩ := htails
    dsimp only at ht
    exact encodeChar_charOf_three (by omega) (by omega) hu (by omega) (by omega)
  · obtain - | ⟨ht, - | ⟨hu, - | -⟩⟩ := htails
    dsimp only at ht
    exact encodeChar_charOf_three (by omega) (by omega) hu (by omega) (by omega)
  · obtain - | ⟨ht, - | ⟨hu, - | -⟩⟩ := htails
    exact encodeChar_charOf_three (by omega) ht hu (by omega) (by omega)
  · obtain - | ⟨ht, - | ⟨hu, - | ⟨hw, - | -⟩⟩⟩ := htails
    dsimp only at ht
    exact encodeChar_charOf_four (by omega) (by omega) hu hw (by omega) (by omega)
  · obtain - | ⟨ht, - | ⟨hu, - | ⟨hw, - | -⟩⟩⟩ := htails
    exact encodeChar_charOf_four (by omega) ht hu hw (by omega) (by omega)
  · obtain - | ⟨ht, - | ⟨hu, - | ⟨hw, - | -⟩⟩⟩ := htails
    dsimp only at ht
    exact encodeChar_charOf_four (by omega) (by omega) hu hw (by omega) (by omega)

theorem isForm_two {b t : UInt8} (hb : 0xC2 ≤ b.toNat ∧ b.toNat < 0xE0)
    (ht : 0x80 ≤ t.toNat ∧ t.toNat ≤ 0xBF) : IsForm b [t] := by
  refine ⟨[(0x80, 0xBF)], ?_, .cons ht .nil⟩
  rw [tailRanges?, if_neg (by omega), if_neg (by omega), if_pos (by omega)]

theorem isForm_three {b t u : UInt8} (hb : 0xE0 ≤ b.toNat ∧ b.toNat < 0xF0)
    (ht : 0x80 ≤ t.toNat ∧ t.toNat ≤ 0xBF) (hu : 0x80 ≤ u.toNat ∧ u.toNat ≤ 0xBF)
    (hlong : b.toNat = 0xE0 → 0xA0 ≤ t.toNat) (hsurrogate : b.toNat = 0xED → t.toNat ≤ 0x9F) :
    IsForm b [t, u] := by
  unfold IsForm tailRanges?
  rw [if_neg (by omega), if_neg (by omega), if_neg (by omega)]
  by_cases he0 : b.toNat = 0xE0
  · rw [if_pos he0]
    exact ⟨_, rfl, .cons ⟨hlong he0, ht.2⟩ (.cons hu .nil)⟩
  · rw [if_neg he0]
    by_cases hed : b.toNat = 0xED
    · rw [if_pos hed]
      exact ⟨_, rfl, .cons ⟨ht.1, hsurrogate hed⟩ (.cons hu .nil)⟩
    · rw [if_neg hed, if_pos hb.2]
      exact ⟨_, rfl, .cons ht (.cons hu .nil)⟩

theorem isForm_four {b t u w : UInt8} (hb : 0xF0 ≤ b.toNat ∧ b.toNat < 0xF5)
    (ht : 0x80 ≤ t.toNat ∧ t.toNat ≤ 0xBF) (hu : 0x80 ≤ u.toNat ∧ u.toNat ≤ 0xBF)
    (hw : 0x80 ≤ w.toNat ∧ w.toNat ≤ 0xBF) (hlong : b.toNat = 0xF0 → 0x90 ≤ t.toNat)
    (hlast : b.toNat = 0xF4 → t.toNat ≤ 0x8F) : IsForm b [t, u, w] := by
  unfold IsForm tailRanges?
  rw [if_neg (by omega), if_neg (by omega), if_neg (by omega), if_neg (by omega), if_neg (by omega),
    if_neg (by omega)]
  split_ifs with hf0 hfour hf4
  · exact ⟨_, rfl, .cons ⟨hlong hf0, ht.2⟩ (.cons hu (.cons hw .nil))⟩
  · exact ⟨_, rfl, .cons ht (.cons hu (.cons hw .nil))⟩
  · exact ⟨_, rfl, .cons ⟨ht.1, hlast hf4⟩ (.cons hu (.cons hw .nil))⟩
  · omega

/-- The bytes of every character are a form. -/
theorem exists_isForm (c : Char) :
    ∃ first tails, String.utf8EncodeChar c = first :: tails ∧ IsForm first tails := by
  have hvalid : c.val.toNat < 0xD800 ∨ 0xDFFF < c.val.toNat ∧ c.val.toNat < 0x110000 := c.valid
  have hbyte : ∀ n < 0x100, (UInt8.ofNat n).toNat = n := fun n hn => by
    rw [UInt8.toNat_ofNat', Nat.mod_eq_of_lt hn]
  rw [String.utf8EncodeChar]
  generalize c.val.toNat = v at hvalid
  split_ifs with hone htwo hthree
  · refine ⟨_, _, rfl, [], ?_, .nil⟩
    rw [tailRanges?, if_pos (by rw [hbyte v (by omega)]; omega)]
  · refine ⟨_, _, rfl, isForm_two ?_ ?_⟩ <;> rw [hbyte _ (by omega)] <;> omega
  · refine ⟨_, _, rfl, isForm_three ?_ ?_ ?_ ?_ ?_⟩ <;>
      simp only [hbyte (v / 4096 % 0x10 + 0xe0) (by omega), hbyte (v / 64 % 0x40 + 0x80) (by omega),
        hbyte (v % 0x40 + 0x80) (by omega)] <;> omega
  · refine ⟨_, _, rfl, isForm_four ?_ ?_ ?_ ?_ ?_ ?_⟩ <;>
      simp only [hbyte (v / 262144 % 0x08 + 0xf0) (by omega),
        hbyte (v / 4096 % 0x40 + 0x80) (by omega), hbyte (v / 64 % 0x40 + 0x80) (by omega),
        hbyte (v % 0x40 + 0x80) (by omega)] <;> omega

/-- A character of seven bits is the byte of its number. -/
theorem encodeChar_of_lt {c : Char} (hc : c.toNat < 0x80) :
    String.utf8EncodeChar c = [UInt8.ofNat c.toNat] := by
  rw [String.utf8EncodeChar]
  exact if_pos (Nat.le_of_lt_succ hc)

theorem encode_append (s t : String) : encode (s ++ t) = encode s ++ encode t := by
  rw [encode, encodeChars, String.toList_append, List.flatMap_append]
  rfl

theorem size_append (s t : String) : size (s ++ t) = size s + size t := by
  rw [size, encode_append, List.length_append, size, size]

theorem encodeChars_injective : Function.Injective encodeChars := by
  intro cs ds heq
  have hbytes : cs.utf8Encode = ds.utf8Encode := congrArg List.toByteArray heq
  have hchars : some cs.toArray = some ds.toArray := by
    rw [← List.utf8Decode?_utf8Encode, ← List.utf8Decode?_utf8Encode, hbytes]
  exact List.toArray_inj (Option.some_inj.mp hchars)

theorem encode_injective : Function.Injective encode :=
  fun _ _ heq => String.toList_inj.mp (encodeChars_injective heq)

theorem IsForm.charOf_eq {first : UInt8} {tails : List UInt8} (hform : IsForm first tails)
    {c : Char} (hc : String.utf8EncodeChar c = first :: tails) : charOf first tails = c := by
  have hbytes : encodeChars [charOf first tails] = encodeChars [c] := by
    simp [encodeChars, hform.encodeChar_charOf, hc]
  exact List.singleton_inj.mp (encodeChars_injective hbytes)

/-! ### Whole texts -/

theorem IsForm.decodeFrom {first : UInt8} {tails : List UInt8} (hform : IsForm first tails)
    (position : Nat) (rest : List UInt8) :
    decodeFrom position (first :: (tails ++ rest)) =
      (decodeFrom (position + 1 + tails.length) rest).map (charOf first tails :: ·) := by
  obtain ⟨ranges, hranges, htails⟩ := hform
  rw [Utf8.decodeFrom, hranges]
  simp only [takeTails_append htails, if_pos htails.length_eq.symm]

theorem decodeFrom_encodeChars (position : Nat) (cs : List Char) :
    decodeFrom position (encodeChars cs) = .ok cs := by
  induction cs generalizing position with
  | nil => rw [encodeChars, List.flatMap_nil, decodeFrom]
  | cons c cs ih =>
    obtain ⟨first, tails, hbytes, hform⟩ := exists_isForm c
    have hcons : encodeChars (c :: cs) = first :: (tails ++ encodeChars cs) := by
      rw [encodeChars, List.flatMap_cons, hbytes, List.cons_append, encodeChars]
    rw [hcons, hform.decodeFrom, ih, hform.charOf_eq hbytes]
    rfl

theorem eq_encodeChars_of_decodeFrom {position : Nat} {bytes : List UInt8} {cs : List Char}
    (hdecode : decodeFrom position bytes = .ok cs) : bytes = encodeChars cs := by
  fun_induction decodeFrom position bytes generalizing cs with
  | case1 =>
    obtain rfl := Except.ok.inj hdecode
    rfl
  | case2 => cases hdecode
  | case3 position b bs ranges hranges found rest _ hlength =>
    rename_i ih
    cases hrest : decodeFrom (position + 1 + found.length) rest with
    | error fault =>
      rw [hrest] at hdecode
      cases hdecode
    | ok others =>
      rw [hrest] at hdecode
      obtain rfl := Except.ok.inj hdecode
      have hform : IsForm b found := ⟨ranges, hranges, inRanges_takeTails hlength⟩
      rw [encodeChars, List.flatMap_cons, hform.encodeChar_charOf, ← encodeChars, ← ih hrest,
        List.cons_append, append_takeTails]
  | case4 => cases hdecode

/-- **Bytes are read as a text exactly if they are its bytes.** -/
theorem decode_eq_ok_iff {bytes : List UInt8} {text : String} :
    decode bytes = .ok text ↔ bytes = encode text := by
  rw [decode]
  constructor
  · intro hdecode
    cases hchars : decodeFrom 0 bytes with
    | error fault =>
      rw [hchars] at hdecode
      cases hdecode
    | ok cs =>
      rw [hchars] at hdecode
      obtain rfl := Except.ok.inj hdecode
      rw [encode, String.toList_ofList, eq_encodeChars_of_decodeFrom hchars]
  · rintro rfl
    rw [encode, decodeFrom_encodeChars]
    exact congrArg Except.ok String.ofList_toList

end RamlSchema.Text.Utf8
