/-!
# Lines

A text falls into lines at every character that ends one. A line end of two characters counts once,
and nothing after the last line end is no line of its own.
-/

namespace Vigil.Text

/-- The characters that end a line. -/
def isLineEnd (c : Char) : Bool :=
  ['\n', '\r', '\x0b', '\x0c', '\x1c', '\x1d', '\x1e', '\u0085', '\u2028', '\u2029'].contains c

/-- The lines of a text; `line` is the part of the current line that was read, the last character
first. -/
def linesFrom (line : List Char) : List Char → List String
  | [] => if line.isEmpty then [] else [String.ofList line.reverse]
  | '\r' :: '\n' :: cs => String.ofList line.reverse :: linesFrom [] cs
  | c :: cs =>
      if isLineEnd c then String.ofList line.reverse :: linesFrom [] cs
      else linesFrom (c :: line) cs

/-- The lines of a text. -/
def lines (s : String) : List String := linesFrom [] s.toList

end Vigil.Text
