import SigningKeys.Json.Basic

/-!
# Members in order

JSON values with the members of every object in the order of their names.
-/

namespace SigningKeys.Json.Value

/-- The member comes no later than the other in the order of names. -/
def nameLe (left right : Option String × Value) : Bool :=
  decide (left.1.getD "" ≤ right.1.getD "")

mutual

/-- The value with the members of all its objects in order. -/
def sorted : Value → Value
  | .array items => .array (sortedItems items)
  | .object members => .object ((sortedMembers members).mergeSort nameLe)
  | value => value

/-- The items, each with its members in order. -/
def sortedItems : List Value → List Value
  | [] => []
  | item :: items => item.sorted :: sortedItems items

/-- The members, each with the members of its value in order. -/
def sortedMembers : List (Option String × Value) → List (Option String × Value)
  | [] => []
  | (name, value) :: members => (name, value.sorted) :: sortedMembers members

end

end SigningKeys.Json.Value
