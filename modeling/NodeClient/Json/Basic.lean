import NodeClient.Number.Binary64

/-!
# Json — values, members and number kinds

A value of the JSON data model.  Numbers come in two kinds that never mix: integers of up to 64 bits
and doubles.  An object is the list of its members; readers and builders keep the members in
ascending order of their keys, one per key (`Json.Ordered`).
-/

namespace NodeClient

namespace Json

/-- A number: an integer between `-2^63` and `2^64 - 1`, or a double. -/
inductive Number where
  | integer (value : Int) (range : -0x8000000000000000 ≤ value ∧ value < 0x10000000000000000)
  | double (value : Binary64)
deriving DecidableEq

end Json

/-- A JSON value. -/
inductive Json where
  | null
  | bool (value : Bool)
  | number (value : Json.Number)
  | string (value : String)
  | array (items : List Json)
  | object (members : List (String × Json))
deriving Inhabited

namespace Json

/-! ### Numbers -/

namespace Number

/-- The integer as a number, if it has at most 64 bits. -/
def ofInt? (n : Int) : Option Number :=
  if h : -0x8000000000000000 ≤ n ∧ n < 0x10000000000000000 then some (.integer n h) else none

/-- An unsigned word as a number. -/
def ofUInt64 (n : UInt64) : Number :=
  .integer n.toNat ⟨by have := n.toNat_lt; omega, by have := n.toNat_lt; omega⟩

/-- A signed word as a number. -/
def ofInt64 (n : Int64) : Number :=
  .integer n.toInt ⟨by have := n.le_toInt; omega, by have := n.toInt_lt; omega⟩

/-- The number as a signed word; none for a double or an integer beyond it. -/
def int64? : Number → Option Int64
  | .integer n _ => if n < 0x8000000000000000 then some (Int64.ofInt n) else none
  | .double _ => none

/-- Equality of numbers of the same kind. -/
def same : Number → Number → Bool
  | .integer m _, .integer n _ => m == n
  | .double x, .double y => x.same y
  | _, _ => false

end Number

/-- A signed word as a value. -/
def ofInt64 (n : Int64) : Json :=
  .number (.ofInt64 n)

/-- An integer as a value; `null` if it has more than 64 bits. -/
def ofInt (n : Int) : Json :=
  match Number.ofInt? n with
  | some m => .number m
  | none => .null

/-- A natural as a value; `null` if it has more than 64 bits. -/
def ofNat (n : Nat) : Json :=
  ofInt n

/-! ### Members -/

/-- The value of the first member with this key. -/
def lookup (key : String) : List (String × Json) → Option Json
  | [] => none
  | (k, v) :: rest => if k = key then some v else lookup key rest

/-- The members with `key` set to `value`, in ascending order if they were. -/
def insert (key : String) (value : Json) : List (String × Json) → List (String × Json)
  | [] => [(key, value)]
  | (k, v) :: rest =>
    if key < k then (key, value) :: (k, v) :: rest
    else if k = key then (key, value) :: rest
    else (k, v) :: insert key value rest

/-- The members without those of this key. -/
def erase (key : String) (members : List (String × Json)) : List (String × Json) :=
  members.filter fun m => m.1 ≠ key

/-- The object with these members; the last of several with one key counts. -/
def ofMembers (members : List (String × Json)) : Json :=
  .object (members.foldl (fun acc m => insert m.1 m.2 acc) [])

/-- The members of an object. -/
def members? : Json → Option (List (String × Json))
  | .object members => some members
  | _ => none

/-- The member of an object with this key. -/
def get? (value : Json) (key : String) : Option Json :=
  match value with
  | .object members => lookup key members
  | _ => none

/-- The text of a string value. -/
def string? : Json → Option String
  | .string s => some s
  | _ => none

/-- The value as a signed word. -/
def int64? : Json → Option Int64
  | .number n => n.int64?
  | _ => none

/-! ### Order of members -/

mutual

/-- Every object in the value lists its members in ascending order, one per key. -/
def Ordered : Json → Prop
  | .array items => OrderedItems items
  | .object members => (members.map (·.1)).Pairwise (· < ·) ∧ OrderedMembers members
  | _ => True

/-- Every value of the list is ordered. -/
def OrderedItems : List Json → Prop
  | [] => True
  | v :: rest => v.Ordered ∧ OrderedItems rest

/-- The value of every member is ordered. -/
def OrderedMembers : List (String × Json) → Prop
  | [] => True
  | (_, v) :: rest => v.Ordered ∧ OrderedMembers rest

end

end Json
end NodeClient
