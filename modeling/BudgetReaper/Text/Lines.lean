/-!
# Text — lines

A text is a sequence of lines, each ended by a line feed.  The last line needs none, and an empty
text has no line.
-/

namespace BudgetReaper.Text

/-- `ls` with `c` in front of its first line. -/
def extendFirst (c : Char) : List (List Char) → List (List Char)
  | [] => [[c]]
  | l :: ls => (c :: l) :: ls

/-- The lines of a text, without their line feeds. -/
def lines : List Char → List (List Char)
  | [] => []
  | c :: rest => if c = '\n' then [] :: lines rest else extendFirst c (lines rest)

end BudgetReaper.Text
