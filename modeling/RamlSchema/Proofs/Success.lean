import RamlSchema.Conversion.Writer

/-!
# Steps that succeed

A sequence of steps succeeds exactly if each of them does, one after another. What a successful
action has done is read off step by step with these.
-/

namespace RamlSchema

theorem bind_eq_ok_iff {ε α β : Type} {x : Except ε α} {f : α → Except ε β} {b : β} :
    x >>= f = .ok b ↔ ∃ a, x = .ok a ∧ f a = .ok b := by
  cases x with
  | error e => exact ⟨nofun, fun ⟨_, h, _⟩ => nomatch h⟩
  | ok a =>
    refine ⟨fun h => ⟨a, rfl, h⟩, fun ⟨_, h, hf⟩ => ?_⟩
    obtain rfl := Except.ok.inj h
    exact hf

theorem mapError_eq_ok_iff {ε ε' α : Type} {x : Except ε α} {f : ε → ε'} {a : α} :
    x.mapError f = .ok a ↔ x = .ok a := by
  cases x with
  | error e => exact ⟨nofun, nofun⟩
  | ok b => exact ⟨fun h => congrArg _ (Except.ok.inj h), fun h => congrArg _ (Except.ok.inj h)⟩

theorem eq_ok_of_toOption_eq_some {ε α : Type} {x : Except ε α} {a : α}
    (hx : x.toOption = some a) : x = .ok a := by
  cases x with
  | error e => cases hx
  | ok b => exact congrArg _ (Option.some_inj.mp hx)

/-! ### Selections that may fail -/

theorem filterAuxM_eq_ok {ε α : Type} {f : α → Except ε Bool} {g : α → Bool} {xs : List α}
    (hf : ∀ x ∈ xs, f x = .ok (g x)) (acc : List α) :
    List.filterAuxM f xs acc = .ok ((xs.filter g).reverse ++ acc) := by
  induction xs generalizing acc with
  | nil => rfl
  | cons x xs ih =>
    rw [List.filterAuxM, hf x List.mem_cons_self]
    have hrest := ih (fun y hy => hf y (List.mem_cons_of_mem x hy)) (cond (g x) (x :: acc) acc)
    refine hrest.trans ?_
    cases hx : g x <;> simp [hx]

theorem filterM_eq_ok {ε α : Type} {f : α → Except ε Bool} {g : α → Bool} {xs : List α}
    (hf : ∀ x ∈ xs, f x = .ok (g x)) : xs.filterM f = .ok (xs.filter g) := by
  rw [List.filterM, filterAuxM_eq_ok hf]
  simp [bind, Except.bind, pure, Except.pure]

theorem exists_of_filterAuxM_eq_ok {ε α : Type} {f : α → Except ε Bool} {xs acc ys : List α}
    (hys : List.filterAuxM f xs acc = .ok ys) : ∀ x ∈ xs, ∃ b, f x = .ok b := by
  induction xs generalizing acc with
  | nil => exact nofun
  | cons x xs ih =>
    rw [List.filterAuxM] at hys
    obtain ⟨b, hb, hys⟩ := bind_eq_ok_iff.mp hys
    exact List.forall_mem_cons.mpr ⟨⟨b, hb⟩, ih hys⟩

/-- A selection succeeds if every element can be decided. -/
theorem filterM_eq_ok_iff {ε α : Type} {f : α → Except ε Bool} {xs ys : List α} :
    xs.filterM f = .ok ys ↔
      ∃ g : α → Bool, (∀ x ∈ xs, f x = .ok (g x)) ∧ ys = xs.filter g := by
  constructor
  · intro hys
    have hall : ∀ x ∈ xs, f x = .ok ((f x).toOption.getD false) := by
      obtain ⟨zs, hzs, -⟩ := bind_eq_ok_iff.mp hys
      intro x hx
      obtain ⟨b, hb⟩ := exists_of_filterAuxM_eq_ok hzs x hx
      rw [hb]
      rfl
    refine ⟨_, hall, ?_⟩
    rw [filterM_eq_ok hall] at hys
    exact (Except.ok.inj hys).symm
  · rintro ⟨g, hg, rfl⟩
    exact filterM_eq_ok hg

/-- Steps over a list succeed together only if each of them does. -/
theorem map_eq_of_mapM_eq_ok {ε α β : Type} {f : α → Except ε β} {xs : List α} {ys : List β}
    (hys : xs.mapM f = .ok ys) : xs.map f = ys.map .ok := by
  induction xs generalizing ys with
  | nil =>
    rw [List.mapM_nil] at hys
    obtain rfl := Except.ok.inj hys
    rfl
  | cons x xs ih =>
    rw [List.mapM_cons] at hys
    obtain ⟨y, hy, hys⟩ := bind_eq_ok_iff.mp hys
    obtain ⟨rest, hrest, hys⟩ := bind_eq_ok_iff.mp hys
    obtain rfl := Except.ok.inj hys
    rw [List.map_cons, List.map_cons, hy, ih hrest]

theorem exists_mapM_eq_ok {ε α β : Type} {f : α → Except ε β} {xs : List α}
    (hf : ∀ x ∈ xs, ∃ y, f x = .ok y) : ∃ ys, xs.mapM f = .ok ys := by
  induction xs with
  | nil => exact ⟨[], List.mapM_nil⟩
  | cons x xs ih =>
    obtain ⟨⟨y, hy⟩, hrest⟩ := List.forall_mem_cons.mp hf
    obtain ⟨ys, hys⟩ := ih hrest
    refine ⟨y :: ys, ?_⟩
    rw [List.mapM_cons, hy, hys]
    rfl

/-! ### Actions on files -/

namespace Files.Action

open Files (FileTree)

variable {ε α β : Type} {tree tree' : FileTree}

/-- What a successful action returns, and the tree that it leaves. -/
def answer? (x : Action ε α) (tree : FileTree) : Option (α × FileTree) :=
  match x tree with
  | .ok a tree' => some (a, tree')
  | .error .. => none

theorem exists_of_map_answer?_eq_some {x : Action ε α} {f : α × FileTree → β} {b : β}
    (hanswer : (x.answer? tree).map f = some b) :
    ∃ a tree', x tree = .ok a tree' ∧ f (a, tree') = b := by
  unfold answer? at hanswer
  cases hx : x tree with
  | error e between =>
    rw [hx] at hanswer
    cases hanswer
  | ok a between =>
    rw [hx] at hanswer
    exact ⟨a, between, rfl, Option.some_inj.mp hanswer⟩

theorem exists_of_isSome_answer? {x : Action ε α} (hanswer : (x.answer? tree).isSome) :
    ∃ a tree', x tree = .ok a tree' := by
  unfold answer? at hanswer
  cases hx : x tree with
  | error e between =>
    rw [hx] at hanswer
    cases hanswer
  | ok a between => exact ⟨a, between, rfl⟩

theorem exists_error_of_isNone_answer? {x : Action ε α} (hanswer : (x.answer? tree).isNone) :
    ∃ e tree', x tree = .error e tree' := by
  unfold answer? at hanswer
  cases hx : x tree with
  | error e between => exact ⟨e, between, rfl⟩
  | ok a between =>
    rw [hx] at hanswer
    cases hanswer

theorem bind_of_eq_ok {x : Action ε α} {a : α} (hx : x tree = .ok a tree') (f : α → Action ε β) :
    (x >>= f) tree = f a tree' := by
  change EStateM.bind x f tree = _
  rw [EStateM.bind, hx]

theorem bind_of_eq_error {x : Action ε α} {e : ε} (hx : x tree = .error e tree')
    (f : α → Action ε β) : (x >>= f) tree = .error e tree' := by
  change EStateM.bind x f tree = _
  rw [EStateM.bind, hx]

theorem isSome_answer?_bind_pure (x : Action ε α) (b : β) (tree : FileTree) :
    ((x >>= fun _ => pure b).answer? tree).isSome = (x.answer? tree).isSome := by
  unfold answer?
  cases hx : x tree with
  | error e between =>
    rw [bind_of_eq_error hx]
    rfl
  | ok a between =>
    rw [bind_of_eq_ok hx]
    rfl

theorem bind_eq_ok_iff {x : Action ε α} {f : α → Action ε β} {b : β} :
    (x >>= f) tree = .ok b tree' ↔
      ∃ a between, x tree = .ok a between ∧ f a between = .ok b tree' := by
  change EStateM.bind x f tree = _ ↔ _
  unfold EStateM.bind
  cases x tree with
  | error e between => exact ⟨nofun, fun ⟨_, _, h, _⟩ => nomatch h⟩
  | ok a between =>
    refine ⟨fun h => ⟨a, between, rfl, h⟩, ?_⟩
    rintro ⟨a', between', h, hf⟩
    obtain ⟨rfl, rfl⟩ := EStateM.Result.ok.inj h
    exact hf

theorem bind_eq_error_iff {x : Action ε α} {f : α → Action ε β} {e : ε} :
    (x >>= f) tree = .error e tree' ↔
      x tree = .error e tree' ∨
        ∃ a between, x tree = .ok a between ∧ f a between = .error e tree' := by
  change EStateM.bind x f tree = _ ↔ _
  unfold EStateM.bind
  cases x tree with
  | error e' between =>
    constructor
    · intro h
      obtain ⟨rfl, rfl⟩ := EStateM.Result.error.inj h
      exact .inl rfl
    · rintro (h | ⟨_, _, h, _⟩)
      · obtain ⟨rfl, rfl⟩ := EStateM.Result.error.inj h
        rfl
      · cases h
  | ok a between =>
    constructor
    · exact fun h => .inr ⟨a, between, rfl, h⟩
    · rintro (h | ⟨a', between', h, hf⟩)
      · cases h
      · obtain ⟨rfl, rfl⟩ := EStateM.Result.ok.inj h
        exact hf

/-- A failure that is thrown leaves the tree as it is. -/
theorem eq_of_throw_eq_error {e e' : ε} (h : (throw e : Action ε α) tree = .error e' tree') :
    tree = tree' := (EStateM.Result.error.inj h).2

@[simp]
theorem pure_eq_ok_iff {a b : α} :
    (pure a : Action ε α) tree = .ok b tree' ↔ a = b ∧ tree = tree' :=
  ⟨fun h => EStateM.Result.ok.inj h, fun ⟨ha, ht⟩ => by rw [ha, ht]; rfl⟩

@[simp]
theorem get_bind (f : FileTree → Action ε β) : (get >>= f : Action ε β) tree = f tree tree := rfl

@[simp]
theorem modify_bind (g : FileTree → FileTree) (f : PUnit → Action ε β) :
    (modify g >>= f : Action ε β) tree = f ⟨⟩ (g tree) := rfl

@[simp]
theorem throw_bind_ne_ok {e : ε} {f : α → Action ε β} {b : β} :
    (throw e >>= f : Action ε β) tree ≠ .ok b tree' := nofun

@[simp]
theorem set_eq_ok_iff {given : FileTree} {u : PUnit} :
    (set given : Action ε PUnit) tree = .ok u tree' ↔ given = tree' :=
  ⟨fun h => (EStateM.Result.ok.inj h).2, fun h => by rw [← h]; rfl⟩

@[simp]
theorem modify_eq_ok_iff {f : FileTree → FileTree} {u : PUnit} :
    (modify f : Action ε PUnit) tree = .ok u tree' ↔ f tree = tree' :=
  ⟨fun h => (EStateM.Result.ok.inj h).2, fun h => by rw [← h]; rfl⟩

@[simp]
theorem throw_ne_ok {e : ε} {a : α} : (throw e : Action ε α) tree ≠ .ok a tree' := nofun

@[simp]
theorem fail_ne_ok {cause : Cause} {path : Path} {a : α} :
    (fail cause path : Action Fault α) tree ≠ .ok a tree' := nofun

@[simp]
theorem ofExcept_eq_ok_iff {x : Except ε α} {a : α} :
    (MonadExcept.ofExcept x : Action ε α) tree = .ok a tree' ↔ x = .ok a ∧ tree = tree' := by
  cases x with
  | error e => exact ⟨nofun, fun ⟨h, _⟩ => nomatch h⟩
  | ok b =>
    change (pure b : Action ε α) tree = _ ↔ _
    rw [pure_eq_ok_iff, Except.ok.injEq]

/-- Where the handler fails in the end, success is that of the action itself. -/
theorem tryCatch_eq_ok_iff {x : Action ε α} {handle : ε → Action ε α} {a : α}
    (hhandle : ∀ e between, handle e between ≠ .ok a tree') :
    (tryCatch x handle : Action ε α) tree = .ok a tree' ↔ x tree = .ok a tree' := by
  change EStateM.tryCatch x handle tree = _ ↔ _
  unfold EStateM.tryCatch
  cases x tree with
  | error e between => exact ⟨fun h => absurd h (hhandle e between), nofun⟩
  | ok b between => exact Iff.rfl

/-- The handler starts from the tree that the failed action has left. -/
theorem tryCatch_eq_error_iff {x : Action ε α} {handle : ε → Action ε α} {e : ε} :
    (tryCatch x handle : Action ε α) tree = .error e tree' ↔
      ∃ e' between, x tree = .error e' between ∧ handle e' between = .error e tree' := by
  change EStateM.tryCatch x handle tree = _ ↔ _
  unfold EStateM.tryCatch
  cases x tree with
  | error e' between =>
    constructor
    · exact fun h => ⟨e', between, rfl, h⟩
    · rintro ⟨_, _, h, hhandle⟩
      obtain ⟨rfl, rfl⟩ := EStateM.Result.error.inj h
      exact hhandle
  | ok a between => exact ⟨nofun, fun ⟨_, _, h, _⟩ => nomatch h⟩

end Files.Action

@[simp]
theorem Conversion.onFiles_eq_ok_iff {α : Type} {action : Files.Action Files.Fault α}
    {tree tree' : Files.FileTree} {a : α} :
    Conversion.onFiles action tree = .ok a tree' ↔ action tree = .ok a tree' := by
  change EStateM.adaptExcept _ action tree = _ ↔ _
  unfold EStateM.adaptExcept
  cases action tree with
  | error e between => exact ⟨nofun, nofun⟩
  | ok b between =>
    constructor <;> intro h <;> obtain ⟨rfl, rfl⟩ := EStateM.Result.ok.inj h <;> rfl

theorem Conversion.onFiles_eq_error_iff {α : Type} {action : Files.Action Files.Fault α}
    {tree tree' : Files.FileTree} {fault : Conversion.Fault} :
    Conversion.onFiles action tree = .error fault tree' ↔
      ∃ fault', fault = .files fault' ∧ action tree = .error fault' tree' := by
  change EStateM.adaptExcept _ action tree = _ ↔ _
  unfold EStateM.adaptExcept
  cases action tree with
  | error fault' between =>
    constructor
    · intro h
      obtain ⟨rfl, rfl⟩ := EStateM.Result.error.inj h
      exact ⟨fault', rfl, rfl⟩
    · rintro ⟨_, rfl, h⟩
      obtain ⟨rfl, rfl⟩ := EStateM.Result.error.inj h
      rfl
  | ok a between => exact ⟨nofun, fun ⟨_, _, h⟩ => nomatch h⟩

end RamlSchema
