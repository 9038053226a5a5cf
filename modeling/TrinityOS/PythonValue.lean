import TrinityOS.Dict
import Mathlib.Data.Int.Notation

namespace TrinityOS

/-- A Python integer. `bool` is a subclass of `int`: it compares and hashes by value,
and only its text differs. -/
inductive PyInt where
  | int (n : ℤ)
  | bool (b : Bool)
  deriving DecidableEq, Repr

namespace PyInt

def val : PyInt → ℤ
  | .int n => n
  | .bool b => if b then 1 else 0

def format : PyInt → String
  | .int n => toString n
  | .bool true => "True"
  | .bool false => "False"

end PyInt

theorem mem_toString_int {q : ℤ} {c : Char} (h : c ∈ (toString q).toList) : c.isDigit ∨ c = '-' := by
  have hdigit (n : ℕ) (hc : c ∈ n.repr.toList) : c.isDigit := by
    rw [Nat.toList_repr] at hc
    exact Nat.isDigit_of_mem_toDigits (by omega) (by omega) hc
  rw [Int.toString_eq_repr, Int.repr_eq_if] at h
  split at h
  · exact .inl (hdigit _ h)
  · rw [String.toList_append, List.mem_append] at h
    rcases h with h | h
    · exact .inr (List.mem_singleton.mp h)
    · exact .inl (hdigit _ h)

/-- The values a caller may pass in an argument record; `object` is a value of any other type,
which equals no integer and no string and is not ordered against integers. Floats are left out:
no parameter but `timeout` is annotated as one, and nothing reads `timeout`. -/
inductive PyValue where
  | none
  | num (n : PyInt)
  | str (s : String)
  | list (items : List PyValue)
  | dict (items : List (PyValue × PyValue))
  | object (id : ℕ) (truth hashable : Bool)

inductive TypeErrorKind where
  | missingArguments (callee : String) (names : List String)
  | unexpectedKeyword (callee name : String)
  | multipleValues (callee name : String)
  | unorderable (value : PyValue)
  | unhashable (value : PyValue)

inductive PyException where
  | typeError (kind : TypeErrorKind)
  | valueError (enumeration : String) (value : PyValue)
  | keyError (key : PyValue)

namespace PyValue

abbrev int (n : ℤ) : PyValue := .num (.int n)

abbrev bool (b : Bool) : PyValue := .num (.bool b)

def truthy : PyValue → Bool
  | .none => false
  | .num n => n.val ≠ 0
  | .str s => s ≠ ""
  | .list items => !items.isEmpty
  | .dict items => !items.isEmpty
  | .object _ truth _ => truth

def operand : PyValue → Except PyException PyInt
  | .num n => .ok n
  | v => .error (.typeError (.unorderable v))

def intKey : PyValue → Except PyException (Option PyInt)
  | .num n => .ok (some n)
  | .none | .str _ | .object _ _ true => .ok Option.none
  | v => .error (.typeError (.unhashable v))

def strKey : PyValue → Except PyException (Option String)
  | .str s => .ok (some s)
  | .none | .num _ | .object _ _ true => .ok Option.none
  | v => .error (.typeError (.unhashable v))

/-- `Enumeration(value)`: the member with that value, found by equality. -/
def member {α : Type} (enumeration : String) (ofValue? : ℤ → Option α) (v : PyValue) :
    Except PyException α :=
  match v with
  | .num n =>
    match ofValue? n.val with
    | some a => .ok a
    | Option.none => .error (.valueError enumeration v)
  | v => .error (.valueError enumeration v)

end PyValue

/-- `max(a, v)`: the second operand wins only when it is strictly larger. -/
def pyMax (a : PyInt) (v : PyValue) : Except PyException PyInt :=
  match v.operand with
  | .ok b => .ok (if b.val > a.val then b else a)
  | .error e => .error e

def pyMin (a b : PyInt) : PyInt := if b.val < a.val then b else a

abbrev Kwargs := Dict String PyValue

/-- Bind `**args` to a bound method whose first parameters `self` and `process_id` are
already filled: keywords are matched in order, then the required ones are counted. -/
def bindKeywords (callee : String) (required optional : List String) (args : Kwargs) :
    Except PyException Unit :=
  match args.keys.find? (fun name => name ∉ required ++ optional) with
  | some name =>
    if name = "self" ∨ name = "process_id" then .error (.typeError (.multipleValues callee name))
    else .error (.typeError (.unexpectedKeyword callee name))
  | none =>
    match required.filter (fun name => name ∉ args) with
    | [] => .ok ()
    | names => .error (.typeError (.missingArguments callee names))

end TrinityOS
