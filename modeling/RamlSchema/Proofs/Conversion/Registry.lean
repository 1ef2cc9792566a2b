import Mathlib.Data.Finset.Card
import Mathlib.Data.Finset.Dedup
import RamlSchema.Proofs.Conversion.Completed

/-!
# What a registry holds

A registry never forgets a name, so what it holds can be read off the calls that have filled it. Its
schemas and origins are the maps that the calls write in turn, and these agree on which names there
are; so a call collides exactly if it repeats the kind and name of an earlier one. Every call adds
either a name or a collision, and that balances the two.
-/

namespace RamlSchema.Conversion

open Report (Collision Kind)

/-- One schema to be registered, with the file that its type comes from. -/
structure Registration where
  kind : Kind
  name : String
  schema : Json
  file : String

namespace Registration

def key (call : Registration) : Kind × String := (call.kind, call.name)

def collisionWith (call previous : Registration) : Collision where
  name := call.name
  kind := call.kind
  previousFile := previous.file
  file := call.file

end Registration

def lastCall? (key : Kind × String) (calls : List Registration) : Option Registration :=
  calls.reverse.find? (·.key = key)

def namesCalled (kind : Kind) (calls : List Registration) : List String :=
  (calls.filter (·.kind = kind)).map (·.name)

/-- The kinds and names that some calls have between them. -/
def keysCalled (calls : List Registration) : Finset (Kind × String) :=
  (calls.map (·.key)).toFinset

theorem mem_keysCalled {calls : List Registration} {key : Kind × String} :
    key ∈ keysCalled calls ↔ ∃ call ∈ calls, call.key = key := by
  rw [keysCalled, List.mem_toFinset, List.mem_map]

theorem card_keysCalled_concat (calls : List Registration) (call : Registration) :
    (keysCalled (calls ++ [call])).card =
      (keysCalled calls).card + if call.key ∈ keysCalled calls then 0 else 1 := by
  have hinsert : keysCalled (calls ++ [call]) = insert call.key (keysCalled calls) := by
    ext key
    simp [keysCalled]
  rw [hinsert, Finset.card_insert_eq_ite]
  split <;> rfl

namespace Registry

def enter (registry : Registry) (call : Registration) : Registry :=
  registry.register call.kind call.name call.schema call.file

def answer? (registry : Registry) (call : Registration) : Option Collision :=
  registry.collision? call.kind call.name call.file

def answers (registry : Registry) : List Registration → List (Option Collision)
  | [] => []
  | call :: calls => registry.answer? call :: (registry.enter call).answers calls

def enterAll (registry : Registry) (calls : List Registration) : Registry :=
  calls.foldl enter registry

def ofCalls (calls : List Registration) : Registry := enterAll {} calls

/-- What a registry holds of one kind. -/
def only (registry : Registry) (kind : Kind) : Registry where
  enums := if kind = .enum then registry.enums else []
  objects := if kind = .object then registry.objects else []
  origins := registry.origins.filter (·.1.1 = kind)
  collisions := registry.collisions.filter (·.kind = kind)

theorem ofCalls_concat (calls : List Registration) (call : Registration) :
    ofCalls (calls ++ [call]) = (ofCalls calls).enter call := List.foldl_append ..

theorem answers_append (registry : Registry) (calls others : List Registration) :
    registry.answers (calls ++ others) =
      registry.answers calls ++ (registry.enterAll calls).answers others := by
  induction calls generalizing registry with
  | nil => rfl
  | cons call calls ih => exact congrArg (registry.answer? call :: ·) (ih _)

theorem length_answers (registry : Registry) (calls : List Registration) :
    (registry.answers calls).length = calls.length := by
  induction calls generalizing registry with
  | nil => rfl
  | cons call calls ih => exact congrArg (· + 1) (ih _)

/-- Each call is answered by what the calls before it have left. -/
theorem getElem?_answers (before after : List Registration) (call : Registration) :
    (answers {} (before ++ call :: after))[before.length]? =
      some ((ofCalls before).answer? call) := by
  have hlength := length_answers {} before
  rw [answers_append, List.getElem?_append_right (Nat.le_of_eq hlength), hlength, Nat.sub_self]
  rfl

/-- The collisions of a registry are those that were reported, in the same order. -/
theorem collisions_enterAll (registry : Registry) (calls : List Registration) :
    (registry.enterAll calls).collisions =
      registry.collisions ++ (registry.answers calls).reduceOption := by
  induction calls generalizing registry with
  | nil => exact (List.append_nil _).symm
  | cons call calls ih =>
    have hcollisions : (registry.enter call).collisions =
        registry.collisions ++ (registry.answer? call).toList := rfl
    rw [enterAll, List.foldl_cons, ← enterAll, ih, hcollisions, answers, List.append_assoc]
    cases registry.answer? call <;> rfl

/-! ### Names, schemas and origins -/

/-- A registry holds what some calls have written, each kind in a map of its own. -/
structure Reflects (registry : Registry) (calls : List Registration) : Prop where
  schemas_eq : ∀ kind, registry.schemas kind =
    .ofList ((calls.filter (·.kind = kind)).map fun call => (call.name, call.schema))
  origins_eq : registry.origins = .ofList (calls.map fun call => (call.key, call.file))

theorem reflects_nil : Reflects {} [] where
  schemas_eq := by rintro (_ | _) <;> rfl
  origins_eq := rfl

theorem Reflects.enter {registry : Registry} {calls : List Registration}
    (h : registry.Reflects calls) (call : Registration) :
    (registry.enter call).Reflects (calls ++ [call]) where
  schemas_eq := by
    intro kind
    rw [Registry.enter, schemas_register, h.schemas_eq, List.filter_append]
    by_cases hkind : call.kind = kind
    · simp [hkind, Entries.ofList, Entries.putAll]
    · simp [hkind]
  origins_eq := by
    change registry.origins.put call.key call.file = _
    rw [h.origins_eq, List.map_append, List.map_singleton, Entries.ofList_concat]

theorem Reflects.enterAll {registry : Registry} {calls : List Registration}
    (h : registry.Reflects calls) (later : List Registration) :
    (registry.enterAll later).Reflects (calls ++ later) := by
  induction later generalizing registry calls with
  | nil => rwa [List.append_nil]
  | cons call later ih =>
    rw [← List.singleton_append, ← List.append_assoc]
    exact ih (h.enter call)

theorem reflects_ofCalls (calls : List Registration) : (ofCalls calls).Reflects calls :=
  reflects_nil.enterAll calls

section Reflects

variable {registry : Registry} {calls : List Registration} (h : registry.Reflects calls)
include h

theorem Reflects.keys_schemas (kind : Kind) :
    (registry.schemas kind).keys = (namesCalled kind calls).eraseDups := by
  rw [h.schemas_eq, Entries.keys_ofList, List.map_map]
  rfl

theorem Reflects.nodupKeys_schemas (kind : Kind) : (registry.schemas kind).NodupKeys := by
  rw [h.schemas_eq]
  exact Entries.nodupKeys_ofList _

theorem Reflects.get?_schemas (kind : Kind) (name : String) :
    (registry.schemas kind).get? name = (lastCall? (kind, name) calls).map (·.schema) := by
  rw [h.schemas_eq, Entries.get?_ofList, ← List.map_reverse, ← List.filter_reverse,
    List.find?_map, List.find?_filter, lastCall?, Option.map_map]
  simp [Function.comp_def, Registration.key]

theorem Reflects.get?_origins (key : Kind × String) :
    registry.origins.get? key = (lastCall? key calls).map (·.file) := by
  rw [h.origins_eq, Entries.get?_ofList, ← List.map_reverse, List.find?_map, lastCall?,
    Option.map_map]
  rfl

/-- A call collides with the last one before it of the same kind and name. -/
theorem Reflects.answer?_eq (call : Registration) :
    registry.answer? call = (lastCall? call.key calls).map call.collisionWith := by
  rw [answer?, collision?, ← Registration.key, h.get?_origins, Option.map_map]
  rfl

theorem Reflects.isSome_answer?_iff (call : Registration) :
    (registry.answer? call).isSome = true ↔ ∃ earlier ∈ calls, earlier.key = call.key := by
  rw [h.answer?_eq, Option.isSome_map, lastCall?, List.find?_isSome]
  simp

theorem Reflects.mem_keys_schemas_iff (kind : Kind) (name : String) :
    name ∈ (registry.schemas kind).keys ↔ ∃ call ∈ calls, call.key = (kind, name) := by
  rw [h.keys_schemas, List.mem_eraseDups, namesCalled, List.mem_map]
  simp [Registration.key, and_assoc]

end Reflects

/-! ### The balance of names and collisions -/

/-- A call adds a collision if it repeats an earlier one, and a new name otherwise. -/
theorem length_collisions_ofCalls (calls : List Registration) :
    (ofCalls calls).collisions.length + (keysCalled calls).card = calls.length := by
  induction calls using List.reverseRecOn with
  | nil => rfl
  | append_singleton calls call ih =>
    have hcollisions : ((ofCalls calls).enter call).collisions =
        (ofCalls calls).collisions ++ ((ofCalls calls).answer? call).toList := rfl
    have hreported : ((ofCalls calls).answer? call).toList.length =
        if call.key ∈ keysCalled calls then 1 else 0 := by
      have hrepeats := (reflects_ofCalls calls).isSome_answer?_iff call
      rw [Option.length_toList]
      simp only [hrepeats, mem_keysCalled]
    rw [ofCalls_concat, hcollisions, card_keysCalled_concat, List.length_append,
      List.length_append, List.length_singleton, hreported, ← ih]
    split <;> omega

theorem Reflects.length_schemas_enter {registry : Registry} {calls : List Registration}
    (h : registry.Reflects calls) (call : Registration) (kind : Kind) :
    ((registry.enter call).schemas kind).length = (registry.schemas kind).length +
      if call.kind = kind ∧ call.key ∉ keysCalled calls then 1 else 0 := by
  rw [Registry.enter, schemas_register]
  by_cases hkind : call.kind = kind
  · subst hkind
    have hkey : call.name ∈ (registry.schemas call.kind).keys ↔ call.key ∈ keysCalled calls :=
      (h.mem_keys_schemas_iff call.kind call.name).trans mem_keysCalled.symm
    rw [if_pos rfl, Entries.length_put]
    by_cases hmem : call.key ∈ keysCalled calls <;> simp [hkey, hmem]
  · simp [hkind]

theorem length_schemas_ofCalls (calls : List Registration) :
    (ofCalls calls).enums.length + (ofCalls calls).objects.length = (keysCalled calls).card := by
  induction calls using List.reverseRecOn with
  | nil => rfl
  | append_singleton calls call ih =>
    have hadded := (reflects_ofCalls calls).length_schemas_enter call
    have henums : ((ofCalls calls).enter call).enums.length = (ofCalls calls).enums.length + _ :=
      hadded .enum
    have hobjects : ((ofCalls calls).enter call).objects.length =
        (ofCalls calls).objects.length + _ := hadded .object
    rw [ofCalls_concat, card_keysCalled_concat, ← ih, henums, hobjects]
    cases call.kind <;> by_cases hmem : call.key ∈ keysCalled calls <;> simp [hmem] <;> omega

/-! ### The kinds apart -/

theorem eq_of_schemas_eq {registry other : Registry}
    (hschemas : ∀ kind, registry.schemas kind = other.schemas kind)
    (horigins : registry.origins = other.origins)
    (hcollisions : registry.collisions = other.collisions) : registry = other := by
  have henums : registry.enums = other.enums := hschemas .enum
  have hobjects : registry.objects = other.objects := hschemas .object
  cases registry
  cases other
  rw [Registry.mk.injEq]
  exact ⟨henums, hobjects, horigins, hcollisions⟩

theorem schemas_only (registry : Registry) (kind other : Kind) :
    (registry.only kind).schemas other = if kind = other then registry.schemas other else [] := by
  cases other <;> rfl

theorem answer?_only (registry : Registry) (call : Registration) :
    (registry.only call.kind).answer? call = registry.answer? call := by
  have horigin : (registry.only call.kind).origins.get? call.key =
      registry.origins.get? call.key := by
    refine (Entries.get?_filter registry.origins (fun key => decide (key.1 = call.kind)) _).trans ?_
    exact if_pos (decide_eq_true rfl)
  exact congrArg (Option.map _) horigin

theorem kind_of_mem_answer? {registry : Registry} {call : Registration} {collision : Collision}
    (hcollision : collision ∈ (registry.answer? call).toList) : collision.kind = call.kind := by
  rw [Option.mem_toList, answer?, collision?, Option.map_eq_some_iff] at hcollision
  obtain ⟨previous, -, rfl⟩ := hcollision
  rfl

theorem only_enter_same (registry : Registry) (call : Registration) :
    (registry.enter call).only call.kind = (registry.only call.kind).enter call := by
  refine eq_of_schemas_eq (fun other => ?_) ?_ ?_
  · rw [schemas_only, enter, enter, schemas_register, schemas_register, schemas_only]
    split <;> rfl
  · have hfilter := Entries.filter_put registry.origins (fun key => decide (key.1 = call.kind))
      (call.kind, call.name) call.file
    exact hfilter.trans (if_pos (decide_eq_true rfl))
  · change List.filter _ (registry.collisions ++ (registry.answer? call).toList) =
      List.filter _ _ ++ ((registry.only call.kind).answer? call).toList
    rw [answer?_only, List.filter_append]
    refine congrArg (_ ++ ·) (List.filter_eq_self.mpr fun collision hcollision => ?_)
    exact decide_eq_true (kind_of_mem_answer? hcollision)

theorem only_enter_other (registry : Registry) {call : Registration} {kind : Kind}
    (hkind : call.kind ≠ kind) : (registry.enter call).only kind = registry.only kind := by
  refine eq_of_schemas_eq (fun other => ?_) ?_ ?_
  · rw [schemas_only, schemas_only, enter, schemas_register]
    split
    case isTrue hother => rw [← hother, if_neg hkind]
    case isFalse => rfl
  · have hfilter := Entries.filter_put registry.origins (fun key => decide (key.1 = kind))
      (call.kind, call.name) call.file
    exact hfilter.trans (if_neg (ne_true_of_eq_false (decide_eq_false hkind)))
  · change List.filter _ (registry.collisions ++ (registry.answer? call).toList) = List.filter _ _
    rw [List.filter_append, List.append_right_eq_self, List.filter_eq_nil_iff]
    intro collision hcollision
    rw [kind_of_mem_answer? hcollision]
    simpa using hkind

/-- What is held of a kind comes from the calls of that kind, as if there were no others. -/
theorem only_ofCalls (calls : List Registration) (kind : Kind) :
    (ofCalls calls).only kind = ofCalls (calls.filter (·.kind = kind)) := by
  induction calls using List.reverseRecOn with
  | nil => cases kind <;> rfl
  | append_singleton calls call ih =>
    rw [ofCalls_concat, List.filter_append]
    by_cases hkind : call.kind = kind
    · subst hkind
      rw [only_enter_same, ih, ← ofCalls_concat]
      simp
    · rw [only_enter_other _ hkind, ih]
      simp [hkind]

end Registry

/-- **A registry reflects all calls that were made on it.** Each kind has its names in the order of
their first calls, with the schema of the last; every kind and name has the file of its last call;
and a kind is held as if the calls of the other had not been made. A call reports a collision
exactly if an earlier one had its kind and name, and then with the last such one. The collisions are
those reported, in order, and there are as many as there are calls beyond the different names. -/
theorem registry_reflects_calls (calls : List Registration) :
    let registry := Registry.ofCalls calls
    let answers := Registry.answers {} calls
    (∀ kind, (registry.schemas kind).keys = (namesCalled kind calls).eraseDups ∧
      ∀ name, (registry.schemas kind).get? name =
        (lastCall? (kind, name) calls).map (·.schema)) ∧
    (∀ key, registry.origins.get? key = (lastCall? key calls).map (·.file)) ∧
    (∀ kind, registry.only kind = Registry.ofCalls (calls.filter (·.kind = kind))) ∧
    (∀ before call after, calls = before ++ call :: after →
      answers[before.length]? = some ((lastCall? call.key before).map call.collisionWith) ∧
      ((∃ collision, answers[before.length]? = some (some collision)) ↔
        ∃ earlier ∈ before, earlier.key = call.key)) ∧
    answers.length = calls.length ∧
    registry.collisions = answers.reduceOption ∧
    registry.collisions.length + (keysCalled calls).card = calls.length := by
  have h := Registry.reflects_ofCalls calls
  refine ⟨fun kind => ⟨h.keys_schemas kind, h.get?_schemas kind⟩, h.get?_origins,
    Registry.only_ofCalls calls, fun before call after hcalls => ?_,
    Registry.length_answers {} calls, Registry.collisions_enterAll {} calls,
    Registry.length_collisions_ofCalls calls⟩
  have hbefore := Registry.reflects_ofCalls before
  have hanswer := Registry.getElem?_answers before after call
  rw [← hcalls] at hanswer
  refine ⟨by rw [hanswer, hbefore.answer?_eq], ?_⟩
  rw [← hbefore.isSome_answer?_iff, hanswer, Option.isSome_iff_exists]
  simp only [Option.some.injEq]

end RamlSchema.Conversion
