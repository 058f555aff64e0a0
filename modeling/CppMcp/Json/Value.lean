import CppMcp.Json.Double
import CppMcp.Lib.SortedMap

namespace CppMcp

/-- An `nlohmann::json` value. A string is valid Unicode, as the parser guarantees,
    and an object lists its members in key order. -/
inductive Json where
  | null
  | bool (b : Bool)
  | integer (n : Int64)
  | unsigned (n : UInt64)
  | float (d : Double)
  | string (s : String)
  | array (elems : List Json)
  | object (members : List (String × Json))

/-- What C++ code throws here: an `McpException`, another `std::exception` with its
    `what()`, or anything else. -/
inductive Exn where
  | mcp (code : Int) (message : String) (data : Option Json)
  | std (what : String)
  | other

namespace Json

mutual
def same : Json → Json → Bool
  | null, null => true
  | bool a, bool b => a == b
  | integer a, integer b => a == b
  | unsigned a, unsigned b => a == b
  | float a, float b => a == b
  | string a, string b => a == b
  | array a, array b => sameElems a b
  | object a, object b => sameMembers a b
  | _, _ => false

def sameElems : List Json → List Json → Bool
  | [], [] => true
  | a :: as, b :: bs => same a b && sameElems as bs
  | _, _ => false

def sameMembers : List (String × Json) → List (String × Json) → Bool
  | [], [] => true
  | (k, a) :: as, (l, b) :: bs => k == l && same a b && sameMembers as bs
  | _, _ => false
end

mutual
theorem same_iff : ∀ a b : Json, same a b = true ↔ a = b
  | null, b | bool _, b | integer _, b | unsigned _, b | float _, b | string _, b => by
    cases b <;> simp [same]
  | array a, b => by
    cases b <;> simp [same]
    exact sameElems_iff a _
  | object a, b => by
    cases b <;> simp [same]
    exact sameMembers_iff a _

theorem sameElems_iff : ∀ as bs : List Json, sameElems as bs = true ↔ as = bs
  | [], bs => by cases bs <;> simp [sameElems]
  | a :: as, bs => by
    cases bs <;> simp [sameElems, same_iff a, sameElems_iff as]

theorem sameMembers_iff : ∀ as bs : List (String × Json), sameMembers as bs = true ↔ as = bs
  | [], bs => by cases bs <;> simp [sameMembers]
  | (k, a) :: as, bs => by
    cases bs with
    | nil => simp [sameMembers]
    | cons b bs => simp [sameMembers, same_iff a, sameMembers_iff as, Prod.ext_iff]
end

instance : DecidableEq Json := fun a b => decidable_of_iff _ (same_iff a b)

end Json

deriving instance DecidableEq for Exn

namespace Json

def typeName : Json → String
  | null => "null"
  | bool _ => "boolean"
  | integer _ | unsigned _ | float _ => "number"
  | string _ => "string"
  | array _ => "array"
  | object _ => "object"

def isNull : Json → Bool
  | null => true
  | _ => false

def isString : Json → Bool
  | string _ => true
  | _ => false

def isArray : Json → Bool
  | array _ => true
  | _ => false

def isObject : Json → Bool
  | object _ => true
  | _ => false

def isBoolean : Json → Bool
  | bool _ => true
  | _ => false

def isNumberInteger : Json → Bool
  | integer _ | unsigned _ => true
  | _ => false

def isNumber : Json → Bool
  | integer _ | unsigned _ | float _ => true
  | _ => false

mutual
/-- `operator==`: numbers of two types are compared as doubles if one is a `double`, else
    as `int64_t`. -/
def equals : Json → Json → Bool
  | null, null => true
  | bool a, bool b => a == b
  | string a, string b => a == b
  | array a, array b => equalElems a b
  | object a, object b => equalMembers a b
  | integer a, integer b => a == b
  | unsigned a, unsigned b => a == b
  | float a, float b => a.equals b
  | integer a, float b => (Double.ofInt a.toInt).equals b
  | float a, integer b => a.equals (Double.ofInt b.toInt)
  | unsigned a, float b => (Double.ofInt a.toNat).equals b
  | float a, unsigned b => a.equals (Double.ofInt b.toNat)
  | unsigned a, integer b => a.toInt64 == b
  | integer a, unsigned b => a == b.toInt64
  | _, _ => false

def equalElems : List Json → List Json → Bool
  | [], [] => true
  | a :: as, b :: bs => equals a b && equalElems as bs
  | _, _ => false

def equalMembers : List (String × Json) → List (String × Json) → Bool
  | [], [] => true
  | (k, a) :: as, (l, b) :: bs => k == l && equals a b && equalMembers as bs
  | _, _ => false
end

/-- `find(key)`: the member of an object, nothing for any other value. -/
def find? : Json → String → Option Json
  | object members, key => members.lookup key
  | _, _ => none

/-- `contains(key)`. -/
def contains (j : Json) (key : String) : Bool := (j.find? key).isSome

/-- `empty()`. -/
def isEmpty : Json → Bool
  | null => true
  | array elems => elems.isEmpty
  | object members => members.isEmpty
  | _ => false

/-- What a range-based `for` visits: a value that is no container is visited itself. -/
def items : Json → List Json
  | null => []
  | array elems => elems
  | object members => members.map Prod.snd
  | j => [j]

/-- `j[key] = value` on an object: `std::map` keeps its keys sorted. -/
def insertMember (key : String) (value : Json) (members : List (String × Json)) :
    List (String × Json) :=
  Lib.insertSorted key value members

/-- `j[key] = value`, which turns a null into an object. No caller writes to another kind. -/
def set : Json → String → Json → Json
  | object members, key, value => object (insertMember key value members)
  | null, key, value => object [(key, value)]
  | j, _, _ => j

/-- An object from an initializer list of pairs. -/
def mk (members : List (String × Json)) : Json :=
  object (members.foldl (fun acc m => insertMember m.1 m.2 acc) [])

/-- The `type_error` of `get` and `at` on a value of the wrong type. -/
def typeError (number : Nat) (what : String) (j : Json) : Exn :=
  .std ("[json.exception.type_error." ++ toString number ++ "] " ++ what ++ j.typeName)

/-- `at(key)`. -/
def atKey (j : Json) (key : String) : Except Exn Json :=
  match j with
  | object members =>
    match members.lookup key with
    | some value => .ok value
    | none => .error (.std ("[json.exception.out_of_range.403] key '" ++ key ++ "' not found"))
  | _ => .error (typeError 304 "cannot use at() with " j)

/-- `value(key, default)`. -/
def value {α : Type} (get : Json → Except Exn α) (j : Json) (key : String) (default : α) :
    Except Exn α :=
  match j with
  | object members =>
    match members.lookup key with
    | some member => get member
    | none => .ok default
  | _ => .error (typeError 306 "cannot use value() with " j)

/-- `get<std::string>()`. -/
def getString : Json → Except Exn String
  | string s => .ok s
  | j => .error (typeError 302 "type must be string, but is " j)

/-- `get<bool>()`. -/
def getBool : Json → Except Exn Bool
  | bool b => .ok b
  | j => .error (typeError 302 "type must be boolean, but is " j)

/-- `get<int64_t>()`: an unsigned value keeps its bits. -/
def getInt64 : Json → Except Exn Int
  | integer n => .ok n.toInt
  | unsigned n => .ok n.toInt64.toInt
  | float d => .ok (Int.bmod d.trunc (2 ^ 64))
  | j => .error (typeError 302 "type must be number, but is " j)

/-- `get<int>()`. This overload also takes a boolean, `get<int64_t>()` and
    `get<double>()` do not. -/
def getInt : Json → Except Exn Int
  | integer n => .ok (Int.bmod n.toInt (2 ^ 32))
  | unsigned n => .ok (Int.bmod n.toNat (2 ^ 32))
  | float d => .ok (Int.bmod d.trunc (2 ^ 32))
  | bool b => .ok (if b then 1 else 0)
  | j => .error (typeError 302 "type must be number, but is " j)

/-- `get<double>()`. -/
def getDouble : Json → Except Exn Double
  | integer n => .ok (Double.ofInt n.toInt)
  | unsigned n => .ok (Double.ofInt n.toNat)
  | float d => .ok d
  | j => .error (typeError 302 "type must be number, but is " j)

/-- `get_to` of a `std::vector`. -/
def getVector {α : Type} (get : Json → Except Exn α) : Json → Except Exn (List α)
  | array elems => elems.mapM get
  | j => .error (typeError 302 "type must be array, but is " j)

/-- A JSON number that holds an `int` or an `int64_t`. -/
def ofInt (n : Int) : Json := integer (Int64.ofInt n)

@[simp] theorem find?_object (members : List (String × Json)) (key : String) :
    (object members).find? key = members.lookup key := rfl

@[simp] theorem contains_object (members : List (String × Json)) (key : String) :
    (object members).contains key = (members.lookup key).isSome := rfl

theorem contains_isObject {j : Json} {key : String} (h : j.contains key = true) :
    j.isObject = true := by
  cases j <;> simp_all [contains, find?, isObject]

/-- `get<double>()` throws exactly on the values that are not numbers. -/
theorem getDouble_ok_iff (j : Json) : (∃ d, j.getDouble = .ok d) ↔ j.isNumber = true := by
  cases j <;> simp [getDouble, isNumber]

/-- `get<int>()` throws on a value that is no number and no boolean. -/
theorem getInt_ok_iff (j : Json) :
    (∃ n, j.getInt = .ok n) ↔ j.isNumber = true ∨ j.isBoolean = true := by
  cases j <;> simp [getInt, isNumber, isBoolean]

theorem getString_ok_iff (j : Json) : (∃ s, j.getString = .ok s) ↔ j.isString = true := by
  cases j <;> simp [getString, isString]

/-- `value` on an object throws exactly where the member is there and `get` throws on it. -/
theorem value_ok_iff {α : Type} {get : Json → Except Exn α} {good : Json → Prop}
    (reads : ∀ j, (∃ a, get j = .ok a) ↔ good j) {j : Json} (keyed : j.isObject = true)
    (key : String) (default : α) :
    (∃ a, j.value get key default = .ok a) ↔ ∀ member, j.find? key = some member → good member := by
  cases j with
  | object members =>
    simp only [value, find?_object]
    cases members.lookup key with
    | none => simp
    | some member => simpa using reads member
  | _ => cases keyed

theorem lookup_insertMember (key other : String) (v : Json) (members : List (String × Json)) :
    (insertMember key v members).lookup other =
      if other = key then some v else members.lookup other :=
  Lib.lookup_insertSorted key other v members

end Json

theorem find?_mk (members : List (String × Json)) (key : String) :
    (Json.mk members).find? key = (members.reverse.lookup key) := by
  have fold : ∀ acc : List (String × Json),
      (members.foldl (fun acc m => Json.insertMember m.1 m.2 acc) acc).lookup key =
        (members.reverse.lookup key).or (acc.lookup key) := by
    induction members with
    | nil => simp
    | cons m rest ih =>
      intro acc
      obtain ⟨k, v⟩ := m
      rw [List.foldl_cons, ih, Json.lookup_insertMember, List.reverse_cons, List.lookup_append]
      cases rest.reverse.lookup key with
      | some found => rfl
      | none =>
        by_cases same : key = k
        · subst same
          simp
        · simp [same]
  simpa [Json.mk] using fold []

end CppMcp
