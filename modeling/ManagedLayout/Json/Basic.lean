import ManagedLayout.Json.Number

/-!
# JSON values

A value as it stands in a JSON text: the members of an object keep their order, and a key may occur
more than once. `Json.canonical` is the view in which it may not: of equal keys the last member
counts, and members are in the order of their keys.
-/

namespace ManagedLayout

/-- A JSON value as written. -/
inductive Json where
  | null
  | bool (value : Bool)
  | number (value : Json.Number)
  | string (value : String)
  | array (items : List Json)
  | object (members : List (String × Json))
  /-- A well-formed value without a meaning: a string, or an object with a key, in which half of a
  surrogate pair stands alone, or whose bytes are those of no text. -/
  | meaningless
  deriving Repr

namespace Json

instance : Inhabited Json := ⟨null⟩

def ofInt (value : Int) : Json := number (.integer value)

def ofNat (value : Nat) : Json := ofInt value

/-- Puts a member into an ordered list of members, in place of one with the same key. -/
def insertMember (key : String) (value : Json) : List (String × Json) → List (String × Json)
  | [] => [(key, value)]
  | (other, old) :: rest =>
    if key = other then (key, value) :: rest
    else if key < other then (key, value) :: (other, old) :: rest
    else (other, old) :: insertMember key value rest

mutual

/-- The value with one member for each key of an object, the last one written, in key order. -/
def canonical : Json → Json
  | array items => array (canonicalItems items)
  | object members => object (canonicalMembers members [])
  | value => value

/-- The canonical form of every item. -/
def canonicalItems : List Json → List Json
  | [] => []
  | item :: rest => item.canonical :: canonicalItems rest

/-- Adds the members of an object, in the order written, to an ordered list of members. -/
def canonicalMembers : List (String × Json) → List (String × Json) → List (String × Json)
  | [], done => done
  | (key, value) :: rest, done => canonicalMembers rest (insertMember key value.canonical done)

end

/-- The value of the first member with this key, if the value is an object with one. -/
def member? (value : Json) (key : String) : Option Json :=
  match value with
  | object members => members.lookup key
  | _ => none

end Json

end ManagedLayout
