import SigningKeys.Json.Order

/-!
# The order of members does not count

Members are found by their names, so an object has the same member of a name in whatever order its
members are written (`unique?_of_perm`), and sorting changes of a member only the order inside its
value (`the?_sorted`).
-/

namespace SigningKeys.Json

namespace Members

/-- Whether there is one value only does not depend on the order. -/
theorem unique?_of_perm {left right : Members} (h : left.Perm right) (name : String) :
    unique? left name = unique? right name := by
  have hvalues : (valuesOf left name).Perm (valuesOf right name) := (h.filter _).map _
  rw [unique?, unique?]
  generalize valuesOf left name = values at hvalues ⊢
  match values, hvalues with
  | [], hvalues => rw [hvalues.nil_eq]
  | [value], hvalues => rw [List.singleton_perm.1 hvalues]
  | first :: second :: rest, hvalues =>
      have hlength := hvalues.length_eq
      generalize valuesOf right name = others at hlength ⊢
      match others, hlength with
      | _ :: _ :: _, _ => rfl

/-- The only member with a name is the same in any order. -/
theorem the?_of_perm {left right : Members} (h : left.Perm right) (name : String) :
    the? left name = the? right name := by
  rw [the?, the?, unique?_of_perm h]

end Members

namespace Value

/-! ## Objects with their members in another order -/

/-- The values are objects with the same members, in whatever order. -/
def SameObject : Value → Value → Prop
  | .object left, .object right => left.Perm right
  | _, _ => False

/-- Members are plain when all of them have texts for names and plain values. -/
theorem membersArePlain_eq (members : Members) :
    membersArePlain members = members.all fun member ↦ member.1.isSome && member.2.isPlain := by
  induction members with
  | nil => rfl
  | cons member rest ih => rw [membersArePlain, ih, List.all_cons]

/-- Members are plain in any order. -/
theorem membersArePlain_of_perm {left right : Members} (h : left.Perm right) :
    membersArePlain left = membersArePlain right := by
  rw [membersArePlain_eq, membersArePlain_eq, h.all_eq]

/-! ## Sorting what a value is made of -/

/-- Sorting goes through the items. -/
theorem sortedItems_eq (items : List Value) : sortedItems items = items.map sorted := by
  induction items with
  | nil => rfl
  | cons item items ih => rw [sortedItems, ih, List.map_cons]

/-- Sorting goes through the values of the members. -/
theorem sortedMembers_eq (members : Members) :
    sortedMembers members = members.map fun member ↦ (member.1, member.2.sorted) := by
  induction members with
  | nil => rfl
  | cons member members ih => rw [sortedMembers, ih, List.map_cons]

/-- The members of a sorted object, sorted themselves, in some order. -/
theorem perm_sortedMembers (members : Members) :
    ((sortedMembers members).mergeSort nameLe).Perm
      (members.map fun member ↦ (member.1, member.2.sorted)) := by
  rw [← sortedMembers_eq]
  exact List.mergeSort_perm _ _

/-- A member of a sorted object is the member that was there, sorted. -/
theorem the?_sorted (members : Members) (name : String) :
    Members.the? ((sortedMembers members).mergeSort nameLe) name =
      (Members.the? members name).map sorted := by
  have hvalues : Members.valuesOf (members.map fun member ↦ (member.1, member.2.sorted)) name =
      (Members.valuesOf members name).map sorted := by
    rw [Members.valuesOf, List.filter_map, List.map_map, Members.valuesOf, List.map_map]
    rfl
  rw [Members.the?_of_perm (perm_sortedMembers members), Members.the?, Members.the?,
    Members.unique?, Members.unique?, hvalues]
  match Members.valuesOf members name with
  | [] => rfl
  | [value] => rfl
  | _ :: _ :: _ => rfl

/-- The members have texts for names in any order. -/
theorem areNamed_sorted (members : Members) :
    Members.areNamed ((sortedMembers members).mergeSort nameLe) = Members.areNamed members := by
  rw [Members.areNamed, (perm_sortedMembers members).all_eq, List.all_map]
  rfl

/-- Sorting leaves texts as they are. -/
@[simp]
theorem text?_sorted (value : Value) : value.sorted.text? = value.text? := by
  cases value <;> rfl

/-- Only an object with one member gives a name. -/
theorem name?_eq_none {members : Members} (h : members.length ≠ 1) :
    (object members).name? = none := by
  rw [name?]
  · rintro text ⟨⟩
  · rintro name ⟨⟩
    exact h rfl

/-- Sorting leaves names as they are. -/
@[simp]
theorem name?_sorted (value : Value) : value.sorted.name? = value.name? := by
  cases value with
  | object members =>
      rw [sorted]
      by_cases hlength : members.length = 1
      · obtain ⟨⟨name, value⟩, rfl⟩ := List.length_eq_one_iff.1 hlength
        show name? (.object (List.mergeSort [(name, value.sorted)] nameLe)) = _
        rw [List.mergeSort_singleton]
        cases value <;> rfl
      · rw [name?_eq_none hlength, name?_eq_none]
        rwa [(perm_sortedMembers members).length_eq, List.length_map]
  | _ => rfl

end Value

end SigningKeys.Json
