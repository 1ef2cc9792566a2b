import Mathlib.Data.List.Basic
import RamlSchema.Text.Basic
import RamlSchema.Text.Lines

/-!
# Lines written and read back

A text that is written line by line is cut into the same lines again, as long as no line has a line
break in it.
-/

namespace RamlSchema.Text

def IsUnbroken (s : String) : Prop := ∀ c ∈ s.toList, isLineBreak c = false

instance (s : String) : Decidable (IsUnbroken s) :=
  List.decidableBAll (isLineBreak · = false) s.toList

theorem isUnbroken_append {s t : String} :
    IsUnbroken (s ++ t) ↔ IsUnbroken s ∧ IsUnbroken t := by
  simp [IsUnbroken, or_imp, forall_and]

theorem linesOfChars_cons {c : Char} (hc : isLineBreak c = false) (cs : List Char) :
    linesOfChars (c :: cs) = consLine c (linesOfChars cs) := by
  have hreturn : c ≠ '\r' := by
    rintro rfl
    exact absurd hc (by decide)
  rw [linesOfChars.eq_3 c cs (fun _ heq _ => hreturn heq), hc]
  rfl

/-- The characters in front of a line feed are the first line. -/
theorem linesOfChars_append {line : List Char} (hline : ∀ c ∈ line, isLineBreak c = false)
    (rest : List Char) : linesOfChars (line ++ '\n' :: rest) = line :: linesOfChars rest := by
  induction line with
  | nil =>
    rw [List.nil_append, linesOfChars.eq_3 '\n' rest (fun _ heq _ => absurd heq (by decide))]
    rfl
  | cons c line ih =>
    rw [List.cons_append, linesOfChars_cons (hline c List.mem_cons_self),
      ih fun d hd => hline d (List.mem_cons_of_mem c hd)]
    rfl

theorem unlines_cons (line : String) (rest : List String) :
    unlines (line :: rest) = line ++ "\n" ++ unlines rest := by
  rw [unlines, List.map_cons, String.join_cons]
  rfl

theorem lines_unlines {sources : List String} (hsources : ∀ s ∈ sources, IsUnbroken s) :
    lines (unlines sources) = sources := by
  induction sources with
  | nil => rfl
  | cons line rest ih =>
    have hchars : (unlines (line :: rest)).toList =
        line.toList ++ '\n' :: (unlines rest).toList := by
      rw [unlines_cons, String.toList_append, String.toList_append, List.append_assoc]
      rfl
    have hrest : lines (unlines rest) = rest :=
      ih fun s hs => hsources s (List.mem_cons_of_mem _ hs)
    rw [lines, hchars, linesOfChars_append (hsources line List.mem_cons_self), List.map_cons,
      String.ofList_toList]
    exact congrArg _ hrest

end RamlSchema.Text
