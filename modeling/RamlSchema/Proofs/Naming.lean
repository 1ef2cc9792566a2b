import RamlSchema.Proofs.Text.Case

/-!
# Names in a convention

A convention writes hyphens, underscores and letters only, so what is neither stands in a written
name only if it stands in the name itself.
-/

namespace RamlSchema.Naming

open Text.Case (eq_of_mem_lowerChar eq_of_mem_upperChar inRanges mem_of_mem_lowerFrom noCapitals
  noSmallLetters)

variable {cs : List Char} {d mark : Char}

theorem mem_of_mem_splitHumps (hmark : d ≠ mark) (hmem : d ∈ splitHumps mark cs) : d ∈ cs := by
  fun_induction splitHumps mark cs with
  | case1 a b rest hhump ih =>
    simp only [List.mem_cons, hmark, false_or] at hmem ⊢
    exact hmem.imp_right fun h => List.mem_cons.mp (ih h)
  | case2 a b rest hhump ih =>
    simp only [List.mem_cons] at hmem ⊢
    exact hmem.imp_right fun h => List.mem_cons.mp (ih h)
  | case3 cs hcs => exact hmem

theorem mem_of_mem_collapse {kind : Char → Bool} {within : Bool} (hmark : d ≠ mark)
    (hmem : d ∈ collapse kind mark within cs) : d ∈ cs := by
  induction cs generalizing within with
  | nil => exact hmem
  | cons c cs ih =>
    rw [collapse] at hmem
    split at hmem
    case isTrue =>
      rw [List.mem_append] at hmem
      rcases hmem with hmem | hmem
      · cases within <;> simp_all
      · exact List.mem_cons_of_mem c (ih hmem)
    case isFalse => exact List.mem_cons.mpr ((List.mem_cons.mp hmem).imp_right ih)

theorem mem_of_mem_joinWords {pending : Bool} (hd : inRanges noCapitals d = true)
    (hmem : d ∈ joinWords pending cs) : d ∈ cs := by
  induction cs generalizing pending with
  | nil => exact hmem
  | cons c cs ih =>
    rw [joinWords] at hmem
    split at hmem
    case isTrue => exact List.mem_cons_of_mem c (ih hmem)
    case isFalse =>
      rw [List.mem_append] at hmem
      rcases hmem with hmem | hmem
      · refine List.mem_cons.mpr (.inl ?_)
        cases pending with
        | true => exact eq_of_mem_upperChar hd hmem
        | false => exact List.mem_singleton.mp hmem
      · exact List.mem_cons_of_mem c (ih hmem)

theorem mem_of_mem_mapFirst {f : Char → List Char} (hf : ∀ c, d ∈ f c → d = c)
    (hmem : d ∈ mapFirst f cs) : d ∈ cs := by
  cases cs with
  | nil => exact hmem
  | cons c cs =>
    rw [mapFirst, List.mem_append] at hmem
    exact List.mem_cons.mpr (hmem.imp_left (hf c))

/-- What is no letter of ASCII, no hyphen and no underscore comes from the name itself. -/
theorem mem_of_mem_applyChars {convention : Convention} (hupper : inRanges noCapitals d = true)
    (hlower : inRanges noSmallLetters d = true) (hhyphen : d ≠ '-') (hlow : d ≠ '_')
    (hmem : d ∈ convention.applyChars cs) : d ∈ cs := by
  cases convention with
  | kebab =>
    exact mem_of_mem_splitHumps hhyphen
      (mem_of_mem_lowerFrom hlower (mem_of_mem_collapse hhyphen hmem))
  | camel =>
    exact mem_of_mem_joinWords hupper
      (mem_of_mem_mapFirst (fun c => eq_of_mem_lowerChar hlower) hmem)
  | pascal =>
    exact mem_of_mem_joinWords hupper
      (mem_of_mem_mapFirst (fun c => eq_of_mem_upperChar hupper) hmem)
  | snake =>
    exact mem_of_mem_splitHumps hlow
      (mem_of_mem_lowerFrom hlower (mem_of_mem_collapse hlow hmem))

theorem notMem_apply (convention : Convention) {name : String}
    (hupper : inRanges noCapitals d = true) (hlower : inRanges noSmallLetters d = true)
    (hhyphen : d ≠ '-') (hlow : d ≠ '_') (hname : d ∉ name.toList) :
    d ∉ (convention.apply name).toList := by
  intro hmem
  rw [Convention.apply, String.toList_ofList] at hmem
  exact hname (mem_of_mem_applyChars hupper hlower hhyphen hlow hmem)

theorem slash_notMem_apply (convention : Convention) {name : String} (hname : '/' ∉ name.toList) :
    '/' ∉ (convention.apply name).toList :=
  notMem_apply convention (by decide) (by decide) (by decide) (by decide) hname

/-- A name in capitalised words starts with its own upper case form. -/
theorem upperChar_of_mem_head?_pascal {name : String}
    (hd : d ∈ (Convention.pascal.apply name).toList.head?) : Text.Case.upperChar d = [d] := by
  rw [Convention.apply, String.toList_ofList, Convention.applyChars, pascalChars] at hd
  cases hwords : joinWords false name.toList with
  | nil =>
    rw [hwords] at hd
    cases hd
  | cons c cs =>
    rw [hwords, mapFirst, List.head?_append_of_ne_nil _ (Text.Case.upperChar_ne_nil c)] at hd
    exact Text.Case.upperChar_of_mem_upperChar (List.mem_of_mem_head? hd)

theorem typeName_eq_empty_iff {name : String} : typeName name = "" ↔ name = "" := by
  constructor
  · intro hname
    have hchars : typeNameChars name.toList = [] := String.ofList_inj.mp hname
    cases hcs : name.toList with
    | nil => exact String.toList_inj.mp hcs
    | cons c cs =>
      rw [hcs, typeNameChars, List.append_eq_nil_iff] at hchars
      exact absurd hchars.1 (Text.Case.upperChar_ne_nil c)
  · rintro rfl
    rfl

end RamlSchema.Naming
