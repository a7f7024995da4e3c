/-!
# Key algorithms

The two kinds of signing key, their tags in texts, and the signature algorithm each signs with.
-/

namespace SigningKeys

/-- A kind of key: a key on the curve P-256, or an RSA key. -/
inductive Algorithm where
  | ec
  | rsa
  deriving DecidableEq

namespace Algorithm

/-- Every kind of key, in the order in which generators are assembled. -/
def all : List Algorithm := [.ec, .rsa]

/-- The tag that stands for the kind of key in stored records and in messages. -/
def tag : Algorithm → String
  | .ec => "EC"
  | .rsa => "RSA"

/-- Kinds of key have different tags. -/
theorem tag_injective {left right : Algorithm} (h : left.tag = right.tag) : left = right := by
  cases left <;> cases right <;> first | rfl | exact absurd h (by decide)

/-- The tag of the kind comes no later than that of the other in the order of texts. -/
def tagLe (left right : Algorithm) : Bool := decide (left.tag ≤ right.tag)

/-- The order of tags is transitive. -/
theorem tagLe_trans (first second third : Algorithm) (h : first.tagLe second = true)
    (h' : second.tagLe third = true) : first.tagLe third = true :=
  decide_eq_true (String.le_trans (of_decide_eq_true h) (of_decide_eq_true h'))

/-- Any two tags are in order one way or the other. -/
theorem tagLe_total (left right : Algorithm) : (left.tagLe right || right.tagLe left) = true := by
  simpa [tagLe] using String.le_total left.tag right.tag

/-- Kinds whose tags are in order both ways are the same. -/
theorem tagLe_antisymm {left right : Algorithm} (h : left.tagLe right = true)
    (h' : right.tagLe left = true) : left = right :=
  tag_injective (String.le_antisymm (of_decide_eq_true h) (of_decide_eq_true h'))

/-- The capitalised word for the kind of key in descriptions of values. -/
def label : Algorithm → String
  | .ec => "Ec"
  | .rsa => "Rsa"

/-- The signature algorithm that a key of this kind signs with. -/
def signature : Algorithm → String
  | .ec => "ES256"
  | .rsa => "RS256"

/-- The kind of key that a tag names, whatever the case of its ASCII letters. -/
def ofTag? (text : String) : Option Algorithm :=
  all.find? fun algorithm ↦ text.toList.map Char.toUpper == algorithm.tag.toList

end Algorithm

end SigningKeys
