import StandingQuery.Binary64
import StandingQuery.OrderedMap
import StandingQuery.Text.Quoted

/-!
# JSON values

A value is a tree; the members of an object are a list of keys and values. Values that come
from text have their members sorted by key, without repeated keys (`Value.Sorted`).

* `Value.member?_object`: the member of an object is the look-up of its key.
* `Value.kindText`: how a message names the kind of a value.
-/

namespace StandingQuery.Json

/-- A number is an integer of at most 64 bits or a number of double precision. -/
inductive Number
  | integer (n : Int)
  | double (x : Binary64)
  deriving DecidableEq, Repr

inductive Value
  | null
  | bool (b : Bool)
  | number (n : Number)
  | string (s : String)
  | array (items : List Value)
  | object (members : List (String × Value))
  deriving Inhabited

namespace Value

/-- The member of an object with a given key; other values have no members. -/
def member? (key : String) : Value → Option Value
  | object ms => ms.lookup key
  | _ => none

@[simp]
theorem member?_object (key : String) (ms : List (String × Value)) :
    (object ms).member? key = ms.lookup key := rfl

def items? : Value → Option (List Value)
  | array vs => some vs
  | _ => none

/-- How a message names the kind of a value that stands in the wrong place. -/
def kindText : Value → String
  | null => "null"
  | bool b => s!"boolean `{b}`"
  | number (.integer n) => s!"integer `{n}`"
  | number (.double x) => s!"floating point `{x.toText}`"
  | string s => "string " ++ Text.quoted s
  | array _ => "sequence"
  | object _ => "map"

mutual

/-- How many containers enclose each other at the deepest place of a value. -/
def depth : Value → Nat
  | array vs => depthOfItems vs + 1
  | object ms => depthOfMembers ms + 1
  | _ => 0

/-- The greatest depth among the items of an array. -/
def depthOfItems : List Value → Nat
  | [] => 0
  | v :: vs => max v.depth (depthOfItems vs)

/-- The greatest depth among the members of an object. -/
def depthOfMembers : List (String × Value) → Nat
  | [] => 0
  | (_, v) :: ms => max v.depth (depthOfMembers ms)

end

mutual

/-- Every object in the value has its members in strictly increasing order of their keys. -/
def Sorted : Value → Prop
  | array vs => SortedItems vs
  | object ms => Entries.Ordered ms ∧ SortedMembers ms
  | _ => True

/-- `Sorted` for the items of an array. -/
def SortedItems : List Value → Prop
  | [] => True
  | v :: vs => v.Sorted ∧ SortedItems vs

/-- `Sorted` for the members of an object. -/
def SortedMembers : List (String × Value) → Prop
  | [] => True
  | (_, v) :: ms => v.Sorted ∧ SortedMembers ms

end

end Value

end StandingQuery.Json
