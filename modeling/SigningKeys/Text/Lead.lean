/-!
# Leading parts of a text

What is left of a text after a given beginning.
-/

namespace SigningKeys.Text

/-- The text after `lead`, if it begins with it. -/
def dropLead? : List Char → List Char → Option (List Char)
  | [], text => some text
  | _ :: _, [] => none
  | l :: lead, c :: text => if l = c then dropLead? lead text else none

/-- Dropping what was put in front leaves the rest. -/
@[simp]
theorem dropLead?_append (lead text : List Char) : dropLead? lead (lead ++ text) = some text := by
  induction lead with
  | nil => rfl
  | cons l lead ih => simp [dropLead?, ih]

/-- What is left after a beginning continues it to the whole text. -/
theorem eq_append_of_dropLead? {lead text rest : List Char} (h : dropLead? lead text = some rest) :
    text = lead ++ rest := by
  induction lead generalizing text with
  | nil => simpa [dropLead?] using h
  | cons l lead ih =>
      cases text with
      | nil => simp [dropLead?] at h
      | cons c text =>
          by_cases hc : l = c
          · subst hc
            simp only [dropLead?, if_true] at h
            simp [ih h]
          · simp [dropLead?, hc] at h

end SigningKeys.Text
