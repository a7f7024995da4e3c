/-!
# Lines

A text as its lines. A line ends with a line feed, a carriage return, or a carriage return followed
by a line feed.
-/

namespace SigningKeys.Text

/-- A way to end a line. -/
inductive Newline where
  | lf
  | crlf
  | cr
  deriving DecidableEq

/-- The characters that end a line. -/
def Newline.chars : Newline → List Char
  | .lf => ['\n']
  | .crlf => ['\r', '\n']
  | .cr => ['\r']

/-- Puts a character before the first line. -/
def consLine (c : Char) : List (List Char) → List (List Char)
  | [] => [[c]]
  | line :: more => (c :: line) :: more

/-- The lines of a text; a text that ends with a newline has an empty last line. -/
def lines : List Char → List (List Char)
  | [] => [[]]
  | '\r' :: '\n' :: rest => [] :: lines rest
  | c :: rest => if c = '\r' ∨ c = '\n' then [] :: lines rest else consLine c (lines rest)

end SigningKeys.Text
