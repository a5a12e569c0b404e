import Mathlib.Data.String.Basic
import Mathlib.Order.Basic

/-! JSON values as the crate handles them. An object is a list of fields in the order of their names,
which is how `serde_json` keeps its map here; `Object.insert` and `Object.remove` maintain that order.
Numbers are never read from a document, so they carry no more than their identity. -/

namespace AnpIdentity

inductive Value where
  | null
  | bool (b : Bool)
  | number (n : Int)
  | string (s : String)
  | array (items : List Value)
  | object (fields : List (String × Value))
  deriving Repr, Inhabited

namespace Value

mutual
def decEq : (a b : Value) → Decidable (a = b)
  | .null, .null => isTrue rfl
  | .bool a, .bool b => decidable_of_iff (a = b) (by simp)
  | .number a, .number b => decidable_of_iff (a = b) (by simp)
  | .string a, .string b => decidable_of_iff (a = b) (by simp)
  | .array a, .array b => @decidable_of_iff _ (a = b) (by simp) (decEqItems a b)
  | .object a, .object b => @decidable_of_iff _ (a = b) (by simp) (decEqFields a b)
  | .null, .bool _ | .null, .number _ | .null, .string _ | .null, .array _ | .null, .object _
  | .bool _, .null | .bool _, .number _ | .bool _, .string _ | .bool _, .array _ | .bool _, .object _
  | .number _, .null | .number _, .bool _ | .number _, .string _ | .number _, .array _ | .number _, .object _
  | .string _, .null | .string _, .bool _ | .string _, .number _ | .string _, .array _ | .string _, .object _
  | .array _, .null | .array _, .bool _ | .array _, .number _ | .array _, .string _ | .array _, .object _
  | .object _, .null | .object _, .bool _ | .object _, .number _ | .object _, .string _ | .object _, .array _ =>
    isFalse (by simp)
termination_by structural a => a

def decEqItems : (a b : List Value) → Decidable (a = b)
  | [], [] => isTrue rfl
  | x :: xs, y :: ys =>
    match decEq x y, decEqItems xs ys with
    | isTrue h, isTrue t => isTrue (by rw [h, t])
    | isFalse h, _ => isFalse (fun e => h (List.cons.inj e).1)
    | _, isFalse t => isFalse (fun e => t (List.cons.inj e).2)
  | [], _ :: _ => isFalse (by simp)
  | _ :: _, [] => isFalse (by simp)
termination_by structural a => a

def decEqField : (a b : String × Value) → Decidable (a = b)
  | (k, x), (l, y) =>
    match decEq x y with
    | isTrue h => decidable_of_iff (k = l) (by simp [h])
    | isFalse h => isFalse (fun e => h (Prod.mk.inj e).2)
termination_by structural a => a

def decEqFields : (a b : List (String × Value)) → Decidable (a = b)
  | [], [] => isTrue rfl
  | x :: xs, y :: ys =>
    match decEqField x y, decEqFields xs ys with
    | isTrue h, isTrue t => isTrue (by rw [h, t])
    | isFalse h, _ => isFalse (fun e => h (List.cons.inj e).1)
    | _, isFalse t => isFalse (fun e => t (List.cons.inj e).2)
  | [], _ :: _ => isFalse (by simp)
  | _ :: _, [] => isFalse (by simp)
termination_by structural a => a
end

instance : DecidableEq Value := decEq

mutual
/-- How deep arrays and objects are nested in a value. -/
def levels : Value → Nat
  | .array items => itemLevels items + 1
  | .object fields => fieldLevels fields + 1
  | _ => 0
termination_by structural value => value

def itemLevels : List Value → Nat
  | [] => 0
  | item :: rest => max item.levels (itemLevels rest)
termination_by structural items => items

def fieldLevels : List (String × Value) → Nat
  | [] => 0
  | field :: rest => max (valueLevels field) (fieldLevels rest)
termination_by structural fields => fields

def valueLevels : String × Value → Nat
  | (_, value) => value.levels
termination_by structural field => field
end

end Value

abbrev Object := List (String × Value)

namespace Object

def get (object : Object) (name : String) : Option Value :=
  (object.find? (fun field => field.1 == name)).map Prod.snd

def insert (name : String) (value : Value) : Object → Object
  | [] => [(name, value)]
  | (key, old) :: rest =>
    if name < key then (name, value) :: (key, old) :: rest
    else if key < name then (key, old) :: insert name value rest
    else (name, value) :: rest

def remove (object : Object) (name : String) : Object := object.filter (fun field => field.1 != name)

/-- The object of the `json!` macro: its fields, ordered by name. -/
def of (fields : List (String × Value)) : Object := fields.foldl (fun object field => insert field.1 field.2 object) []

@[simp] theorem get_insert_self (name : String) (value : Value) (object : Object) :
    (insert name value object).get name = some value := by
  induction object with
  | nil => simp [insert, get]
  | cons field rest ih =>
    obtain ⟨key, old⟩ := field
    unfold insert
    split
    · simp [get]
    · split
      · rename_i less
        have different : (key == name) = false := by simpa using less.ne
        simpa [get, different] using ih
      · simp [get]

theorem get_insert_of_ne {name other : String} (different : other ≠ name) (value : Value) (object : Object) :
    (insert name value object).get other = object.get other := by
  have apart : (name == other) = false := by simpa using different.symm
  induction object with
  | nil => simp [insert, get, apart]
  | cons field rest ih =>
    obtain ⟨key, old⟩ := field
    unfold insert
    split
    · simp [get, apart]
    · split
      · simp only [get, List.find?_cons] at ih ⊢
        cases key == other with
        | true => rfl
        | false => exact ih
      · rename_i notLess notGreater
        have same : key = name := le_antisymm (not_lt.mp notLess) (not_lt.mp notGreater)
        have away : (key == other) = false := by rw [same]; exact apart
        simp [get, apart, away]

@[simp] theorem get_remove_self (name : String) (object : Object) : (object.remove name).get name = none := by
  simp [get, remove, List.find?_filter]

theorem get_remove_of_ne {name other : String} (different : other ≠ name) (object : Object) :
    (object.remove name).get other = object.get other := by
  unfold get remove
  rw [List.find?_filter]
  congr 2
  funext field
  by_cases same : field.1 = other
  · simp [same, different]
  · simp [same]

end Object

namespace Value

def asStr : Value → Option String
  | .string s => some s
  | _ => none

def asArray : Value → Option (List Value)
  | .array items => some items
  | _ => none

def asObject : Value → Option Object
  | .object fields => some fields
  | _ => none

def get (value : Value) (name : String) : Option Value := value.asObject.bind (·.get name)

/-- The string at a field, the shape of `value.get(name).and_then(Value::as_str)`. -/
def getStr (value : Value) (name : String) : Option String := (value.get name).bind asStr

end Value
end AnpIdentity
