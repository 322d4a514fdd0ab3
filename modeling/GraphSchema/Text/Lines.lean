/-
  GraphSchema.Text.Lines — the lines of a text.

  A line ends at a line feed, which is not part of it, nor is a carriage return right
  before that line feed. What follows the last line feed is a line unless it is empty; a
  carriage return at its end stays.
-/

namespace GraphSchema

def linesOf : List Char → List (List Char)
  | [] => []
  | '\r' :: '\n' :: rest => [] :: linesOf rest
  | c :: rest =>
    if c = '\n' then [] :: linesOf rest
    else
      match linesOf rest with
      | [] => [[c]]
      | line :: lines => (c :: line) :: lines

/-- Texts one after another with a separator between them. -/
def joinWith (separator : String) : List String → String
  | [] => ""
  | [text] => text
  | text :: rest => text ++ separator ++ joinWith separator rest

end GraphSchema
