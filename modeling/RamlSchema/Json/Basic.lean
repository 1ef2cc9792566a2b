import RamlSchema.Entries
import RamlSchema.Number.Basic

/-!
# JSON documents

Values whose objects keep the order of their members.
-/

namespace RamlSchema

inductive Json where
  | null
  | bool (value : Bool)
  | num (value : Number)
  | str (value : String)
  | arr (items : List Json)
  | obj (members : List (String × Json))
  deriving Repr

namespace Json

def int (n : Int) : Json := .num (.int n)

def nat (n : Nat) : Json := .int n

def optional : Option String → Json
  | none => .null
  | some s => .str s

def texts (items : List String) : Json := .arr (items.map .str)

def member? (key : String) : Json → Option Json
  | .obj members => Entries.get? members key
  | _ => none

/-- A value that counts as yes: all but null, false, zero and what is empty. -/
def isTruthy : Json → Bool
  | .null => false
  | .bool b => b
  | .num n => n.isNonzero
  | .str s => !s.isEmpty
  | .arr items => !items.isEmpty
  | .obj members => !members.isEmpty

/-! ### Equality -/

mutual

def same : Json → Json → Bool
  | .null, .null => true
  | .bool a, .bool b => a == b
  | .num m, .num n => m == n
  | .str s, .str t => s == t
  | .arr xs, .arr ys => sameItems xs ys
  | .obj xs, .obj ys => sameMembers xs ys
  | _, _ => false

def sameItems : List Json → List Json → Bool
  | [], [] => true
  | x :: xs, y :: ys => same x y && sameItems xs ys
  | _, _ => false

def sameMembers : List (String × Json) → List (String × Json) → Bool
  | [], [] => true
  | (k, x) :: xs, (l, y) :: ys => k == l && same x y && sameMembers xs ys
  | _, _ => false

end

mutual

theorem same_iff (x y : Json) : same x y = true ↔ x = y := by
  cases x <;> cases y <;> simp [same]
  case arr.arr xs ys => exact sameItems_iff xs ys
  case obj.obj xs ys => exact sameMembers_iff xs ys

theorem sameItems_iff (xs ys : List Json) : sameItems xs ys = true ↔ xs = ys := by
  match xs, ys with
  | [], [] => simp [sameItems]
  | [], _ :: _ => simp [sameItems]
  | _ :: _, [] => simp [sameItems]
  | x :: xs, y :: ys => simp [sameItems, same_iff x y, sameItems_iff xs ys]

theorem sameMembers_iff (xs ys : List (String × Json)) : sameMembers xs ys = true ↔ xs = ys := by
  match xs, ys with
  | [], [] => simp [sameMembers]
  | [], _ :: _ => simp [sameMembers]
  | _ :: _, [] => simp [sameMembers]
  | (k, x) :: xs, (l, y) :: ys =>
    simp [sameMembers, same_iff x y, sameMembers_iff xs ys]

end

instance : DecidableEq Json := fun x y => decidable_of_iff _ (same_iff x y)

/-! ### Equality of what documents say -/

mutual

/-- Whether two documents say the same: the order of an object's members does not count, and true
and false are one and zero. -/
def agrees : Json → Json → Bool
  | .bool a, .num n => n.agrees (.int (if a then 1 else 0))
  | .num m, .bool b => m.agrees (.int (if b then 1 else 0))
  | .num m, .num n => m.agrees n
  | .arr xs, .arr ys => agreeItems xs ys
  | .obj xs, .obj ys => xs.length == ys.length && agreeMembers xs ys
  | x, y => same x y

def agreeItems : List Json → List Json → Bool
  | [], [] => true
  | x :: xs, y :: ys => agrees x y && agreeItems xs ys
  | _, _ => false

/-- Whether every member of the first list has its like in the second. -/
def agreeMembers : List (String × Json) → List (String × Json) → Bool
  | [], _ => true
  | (k, x) :: xs, ys =>
    (match Entries.get? ys k with
      | some y => agrees x y
      | none => false) && agreeMembers xs ys

end

end Json

end RamlSchema
