import Mathlib
import Omi.Foundation.Table

/-! Python objects as they travel through JSON and document stores, with the dictionary
operations, truth test and numeric view of the language. A float is its exact value. -/
namespace Omi.Foundation

inductive PyVal where
  | none
  | bool (b : Bool)
  | int (i : ℤ)
  | float (q : ℚ)
  | str (s : String)
  | datetime (micros : ℤ)
  | list (xs : List PyVal)
  | dict (kvs : List (String × PyVal))
  deriving Repr, Inhabited

/-- A dictionary in insertion order. -/
abbrev PyDict := List (String × PyVal)

namespace PyVal

mutual
private def beq : PyVal → PyVal → Bool
  | .none, .none => true
  | .bool a, .bool b => a == b
  | .int a, .int b => a == b
  | .float a, .float b => a == b
  | .str a, .str b => a == b
  | .datetime a, .datetime b => a == b
  | .list a, .list b => beqList a b
  | .dict a, .dict b => beqDict a b
  | _, _ => false

private def beqList : List PyVal → List PyVal → Bool
  | [], [] => true
  | a :: as, b :: bs => beq a b && beqList as bs
  | _, _ => false

private def beqDict : List (String × PyVal) → List (String × PyVal) → Bool
  | [], [] => true
  | (k, a) :: as, (l, b) :: bs => k == l && beq a b && beqDict as bs
  | _, _ => false
end

mutual
private theorem beq_iff : ∀ a b : PyVal, beq a b = true ↔ a = b
  | .list a, b => by cases b <;> simp [beq, beqList_iff]
  | .dict a, b => by cases b <;> simp [beq, beqDict_iff]
  | .none, b | .bool _, b | .int _, b | .float _, b | .str _, b | .datetime _, b => by
    cases b <;> simp [beq]

private theorem beqList_iff : ∀ a b : List PyVal, beqList a b = true ↔ a = b
  | [], b => by cases b <;> simp [beqList]
  | x :: xs, b => by cases b <;> simp [beqList, beq_iff, beqList_iff]

private theorem beqDict_iff : ∀ a b : List (String × PyVal), beqDict a b = true ↔ a = b
  | [], b => by cases b <;> simp [beqDict]
  | (k, x) :: xs, b => by
    rcases b with _ | ⟨⟨l, y⟩, ys⟩ <;> simp [beqDict, beq_iff, beqDict_iff]
end

instance : DecidableEq PyVal := fun a b => decidable_of_iff _ (beq_iff a b)

/-- `bool(value)`. -/
def truthy : PyVal → Bool
  | .none => false
  | .bool b => b
  | .int i => i != 0
  | .float q => q != 0
  | .str s => s != ""
  | .datetime _ => true
  | .list xs => !xs.isEmpty
  | .dict kvs => !kvs.isEmpty

/-- `a or b`. -/
def orElse (a b : PyVal) : PyVal := if a.truthy then a else b

/-- The number behind `isinstance(value, (int, float))`; a bool is an int. -/
def number? : PyVal → Option ℚ
  | .bool b => some (if b then 1 else 0)
  | .int i => some i
  | .float q => some q
  | _ => Option.none

/-- `isinstance(value, int) and not isinstance(value, bool)`. -/
def int? : PyVal → Option ℤ
  | .int i => some i
  | _ => Option.none

/-- Equality as `==` decides it between scalars: numbers compare by value. -/
def pyEq (a b : PyVal) : Bool :=
  match a.number?, b.number? with
  | some p, some q => p == q
  | _, _ => a == b

@[simp] theorem pyEq_int (a b : ℤ) : (PyVal.int a).pyEq (.int b) = decide (a = b) := by
  simp [pyEq, number?, beq_eq_decide]

@[simp] theorem pyEq_int_none (a : ℤ) : (PyVal.int a).pyEq .none = false := by
  simp [pyEq, number?]

/-- `isinstance(value, int)`, where a bool is an int. -/
def integer? : PyVal → Option ℤ
  | .bool b => some (if b then 1 else 0)
  | .int i => some i
  | _ => Option.none

mutual
/-- `a == b`, containers included: numbers by value, dictionaries in any order. -/
def deepEq : PyVal → PyVal → Bool
  | .list xs, .list ys => deepEqAll xs ys
  | .dict xs, .dict ys => xs.length == ys.length && deepEqFields xs ys
  | a, b => a.pyEq b

def deepEqAll : List PyVal → List PyVal → Bool
  | [], [] => true
  | x :: xs, y :: ys => x.deepEq y && deepEqAll xs ys
  | _, _ => false

/-- Every field of the first dictionary is in the second with an equal value. -/
def deepEqFields : List (String × PyVal) → List (String × PyVal) → Bool
  | [], _ => true
  | (key, x) :: xs, ys => (Table.get ys key).any x.deepEq && deepEqFields xs ys
end

/-- The text of a `str`. -/
def str? : PyVal → Option String
  | .str s => some s
  | _ => Option.none

/-- The texts of a list of `str`. -/
def strs? : PyVal → Option (List String)
  | .list xs => xs.mapM str?
  | _ => Option.none

/-- The entries of a `dict`. -/
def dict? : PyVal → Option PyDict
  | .dict kvs => some kvs
  | _ => Option.none

/-- `hash(value)` is defined. -/
def hashable : PyVal → Bool
  | .list _ | .dict _ => false
  | _ => true

end PyVal

namespace PyDict

/-- `d.get(key)`, with `None` for a missing key. -/
def get (d : PyDict) (key : String) : PyVal := (Table.get d key).getD .none

/-- A keyword argument of a model, with the default of its field. -/
def field (d : PyDict) (key : String) (fallback : PyVal) : PyVal :=
  (Table.get d key).getD fallback

/-- `key in d`. -/
def has (d : PyDict) (key : String) : Bool := (Table.get d key).isSome

/-- `d[key] = value`. -/
def set (d : PyDict) (key : String) (value : PyVal) : PyDict := Table.set d key value

/-- `d.update(other)`. -/
def update (d other : PyDict) : PyDict := other.foldl (fun d kv => set d kv.1 kv.2) d

@[simp] theorem get_set (d : PyDict) (key k : String) (value : PyVal) :
    (d.set key value).get k = if k = key then value else d.get k := by
  simp only [get, set, Table.get_set]
  split_ifs <;> rfl

end PyDict

mutual
/-- The value a field holds after a document store merged `new` into it: maps are
merged key by key, anything else (and an empty map) replaces what was there. -/
def PyVal.merge : PyVal → PyVal → PyVal
  | .dict _, .dict [] => .dict []
  | .dict old, .dict (kv :: new) => .dict (PyDict.merge old (kv :: new))
  | _, new => new

def PyDict.merge : PyDict → PyDict → PyDict
  | old, [] => old
  | old, (key, value) :: new =>
    PyDict.merge (PyDict.set old key (PyVal.merge (PyDict.get old key) value)) new
end

@[simp] theorem PyVal.merge_none (new : PyVal) : PyVal.merge .none new = new := by
  unfold PyVal.merge; rfl

/-- How scalars without a JSON form of their own are written: `repr` of a float, `str` of a
datetime. -/
structure ScalarText where
  float : ℚ → String
  datetime : ℤ → String

private def hex4 (n : ℕ) : List Char :=
  let digits := Nat.toDigits 16 n
  Char.ofNat 92 :: 'u' :: (List.replicate (4 - digits.length) '0' ++ digits)

/-- A character as `json.dumps` writes it, with everything outside printable ASCII escaped. -/
private def jsonChar (c : Char) : List Char :=
  let n := c.toNat
  if n = 34 ∨ n = 92 then [Char.ofNat 92, c]
  else if 32 ≤ n ∧ n ≤ 126 then [c]
  else if n = 8 then [Char.ofNat 92, 'b']
  else if n = 9 then [Char.ofNat 92, 't']
  else if n = 10 then [Char.ofNat 92, 'n']
  else if n = 12 then [Char.ofNat 92, 'f']
  else if n = 13 then [Char.ofNat 92, 'r']
  else if n < 0x10000 then hex4 n
  else hex4 (0xd800 + (n - 0x10000) / 0x400) ++ hex4 (0xdc00 + (n - 0x10000) % 0x400)

def jsonString (text : String) : String :=
  let quote := [Char.ofNat 34]
  String.ofList (quote ++ text.toList.flatMap jsonChar ++ quote)

mutual
/-- `json.dumps(value, sort_keys=True, separators=(",", ":"), default=str)`. -/
def PyVal.jsonText (scalars : ScalarText) : PyVal → String
  | .none => "null"
  | .bool b => if b then "true" else "false"
  | .int i => toString i
  | .float q => scalars.float q
  | .str s => jsonString s
  | .datetime t => jsonString (scalars.datetime t)
  | .list xs => "[" ++ ",".intercalate (PyVal.jsonTexts scalars xs) ++ "]"
  | .dict kvs =>
    "\x7b" ++ ",".intercalate (((PyVal.jsonEntries scalars kvs).insertionSort
      (fun a b => a.1 ≤ b.1)).map Prod.snd) ++ "\x7d"

def PyVal.jsonTexts (scalars : ScalarText) : List PyVal → List String
  | [] => []
  | x :: xs => x.jsonText scalars :: PyVal.jsonTexts scalars xs

/-- The entries of an object, each with the key it sorts by. -/
def PyVal.jsonEntries (scalars : ScalarText) : List (String × PyVal) → List (String × String)
  | [] => []
  | (key, value) :: kvs =>
    (key, jsonString key ++ ":" ++ value.jsonText scalars) :: PyVal.jsonEntries scalars kvs
end

mutual
/-- No datetime occurs in the value, so `json.dumps` without a default accepts it. -/
def PyVal.jsonable : PyVal → Bool
  | .datetime _ => false
  | .list xs => PyVal.allJsonable xs
  | .dict kvs => PyVal.allValuesJsonable kvs
  | _ => true

def PyVal.allJsonable : List PyVal → Bool
  | [] => true
  | x :: xs => x.jsonable && PyVal.allJsonable xs

def PyVal.allValuesJsonable : List (String × PyVal) → Bool
  | [] => true
  | (_, value) :: kvs => value.jsonable && PyVal.allValuesJsonable kvs
end

end Omi.Foundation
