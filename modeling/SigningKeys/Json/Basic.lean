import SigningKeys.Json.Numeral

/-!
# JSON values

JSON documents as values. A text may hold an escaped half of a surrogate pair: such a string is no
text, but a document that contains one is still well formed, so strings are optional texts.
-/

namespace SigningKeys.Json

/-- A JSON value. The members of an object are in the order in which they were written. -/
inductive Value where
  | null
  | bool (value : Bool)
  | number (value : Numeral)
  | string (text : Option String)
  | array (items : List Value)
  | object (members : List (Option String × Value))

namespace Value

/-- The string that is a given text. -/
def text (s : String) : Value := .string (some s)

/-- The object with the given members. -/
def ofMembers (members : List (String × Value)) : Value :=
  .object (members.map fun member ↦ (some member.1, member.2))

/-- The text that a value is. -/
def text? : Value → Option String
  | .string s => s
  | _ => none

/-- The name that a value gives: a text, or an object whose only member has the name and no
value. -/
def name? : Value → Option String
  | .string s => s
  | .object [(name, .null)] => name
  | _ => none

mutual

/-- How deeply arrays and objects are nested in a value. -/
def depth : Value → Nat
  | .array items => itemsDepth items + 1
  | .object members => membersDepth members + 1
  | _ => 0

/-- How deeply arrays and objects are nested in the items of an array. -/
def itemsDepth : List Value → Nat
  | [] => 0
  | item :: items => max item.depth (itemsDepth items)

/-- How deeply arrays and objects are nested in the members of an object. -/
def membersDepth : List (Option String × Value) → Nat
  | [] => 0
  | (_, value) :: members => max value.depth (membersDepth members)

end

mutual

/-- Every string in the value is a text and every number in the range of double precision. -/
def isPlain : Value → Bool
  | .string text => text.isSome
  | .number n => n.isDouble
  | .array items => arePlain items
  | .object members => membersArePlain members
  | _ => true

/-- All items are plain. -/
def arePlain : List Value → Bool
  | [] => true
  | item :: items => item.isPlain && arePlain items

/-- All members have plain values and texts for names. -/
def membersArePlain : List (Option String × Value) → Bool
  | [] => true
  | (name, value) :: members => name.isSome && value.isPlain && membersArePlain members

end

/-- How deeply a document may nest what is read from it. -/
def maxDepth : Nat := 127

end Value

/-- The members of an object. -/
abbrev Members := List (Option String × Value)

namespace Members

/-- The values of the members with a name. -/
def valuesOf (members : Members) (name : String) : List Value :=
  (members.filter fun member ↦ member.1 == some name).map (·.2)

/-- The member with a name, if there is one; there must not be two. -/
def unique? (members : Members) (name : String) : Option (Option Value) :=
  match members.valuesOf name with
  | [] => some none
  | [value] => some (some value)
  | _ => none

/-- The only member with a name, which has to be there. -/
def the? (members : Members) (name : String) : Option Value := do
  let value ← members.unique? name
  value

/-- Every member has a text for its name. -/
def areNamed (members : Members) : Bool := members.all fun member ↦ member.1.isSome

end Members

end SigningKeys.Json
