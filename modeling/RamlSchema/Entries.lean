/-!
# Entries

Maps that keep their keys in the order in which each was first written, as lists of key and value.
Writing a key again changes its value and leaves it in place (`keys_put`), and a look-up sees the
last value written (`get?_put`).
-/

namespace RamlSchema

abbrev Entries (κ : Type) (α : Type) := List (κ × α)

namespace Entries

variable {κ α : Type} [DecidableEq κ]

def keys (m : Entries κ α) : List κ := m.map Prod.fst

def values (m : Entries κ α) : List α := m.map Prod.snd

def get? (m : Entries κ α) (key : κ) : Option α :=
  match m with
  | [] => none
  | (k, v) :: rest => if k = key then some v else get? rest key

/-- Writes `value` under `key`: in the key's place if it has one, at the end otherwise. -/
def put (m : Entries κ α) (key : κ) (value : α) : Entries κ α :=
  match m with
  | [] => [(key, value)]
  | (k, v) :: rest => if k = key then (k, value) :: rest else (k, v) :: put rest key value

/-- Writes `value` under `key` only if the key is new, so that the first value stays. -/
def putNew (m : Entries κ α) (key : κ) (value : α) : Entries κ α :=
  if (m.get? key).isSome then m else m ++ [(key, value)]

def putAll (m : Entries κ α) (pairs : List (κ × α)) : Entries κ α :=
  pairs.foldl (fun m (k, v) => m.put k v) m

def ofList (pairs : List (κ × α)) : Entries κ α := putAll [] pairs

/-- Two maps agree when they give every key the same value, in whatever order. -/
def agrees [DecidableEq α] (m n : Entries κ α) : Bool :=
  m.length == n.length && m.all fun (k, v) => n.get? k = some v

theorem get?_put (m : Entries κ α) (key other : κ) (value : α) :
    (m.put key value).get? other = if key = other then some value else m.get? other := by
  induction m with
  | nil => simp [put, get?]
  | cons head rest ih =>
    obtain ⟨k, v⟩ := head
    by_cases hk : k = key
    · subst hk
      by_cases ho : k = other <;> simp [put, get?, ho]
    · by_cases ho : k = other
      · subst ho
        simp [put, get?, hk, Ne.symm hk]
      · simp [put, get?, hk, ho, ih]

theorem get?_eq_none_iff (m : Entries κ α) (key : κ) : m.get? key = none ↔ key ∉ m.keys := by
  induction m with
  | nil => simp [get?, keys]
  | cons head rest ih =>
    obtain ⟨k, v⟩ := head
    by_cases hk : k = key
    · simp [get?, keys, hk]
    · simp only [get?, hk, if_false, ih]
      simp [keys, Ne.symm hk]

theorem keys_put (m : Entries κ α) (key : κ) (value : α) :
    (m.put key value).keys = if key ∈ m.keys then m.keys else m.keys ++ [key] := by
  induction m with
  | nil => simp [put, keys]
  | cons head rest ih =>
    obtain ⟨k, v⟩ := head
    by_cases hk : k = key
    · simp [put, keys, hk]
    · have hput : (put ((k, v) :: rest) key value).keys = k :: (put rest key value).keys := by
        simp [put, hk, keys]
      have hkeys : keys ((k, v) :: rest) = k :: keys rest := rfl
      rw [hput, ih, hkeys]
      by_cases hin : key ∈ keys rest <;> simp [hin, Ne.symm hk]

end Entries

end RamlSchema
