/-!
# Texts, comments and blanks in a configuration file

A text stands on one line between one mark, or on several lines between three. Between quotation
marks a backslash begins an escape; between apostrophes nothing does. Control characters are not
allowed in either, nor in a comment.

Each reader takes the characters from where it stands and gives back those that it left.
-/

namespace Vigil.Toml

/-- Blanks may stand between the parts of a line. -/
def isBlank (c : Char) : Bool := c == ' ' || c == '\t'

/-- Blanks and line ends may stand between the items of a list. -/
def isBlankOrBreak (c : Char) : Bool := isBlank c || c == '\n'

/-- Control characters but the tab. -/
def isForbidden (c : Char) : Bool := (decide (c.toNat < 32) || c.toNat == 127) && c != '\t'

/-- Control characters but the tab and the line end. -/
def isForbiddenInBlock (c : Char) : Bool := isForbidden c && c != '\n'

/-- Passes over blanks. -/
def skipBlanks (cs : List Char) : List Char := cs.dropWhile isBlank

/-- Passes over a comment, if one begins here. -/
def skipComment : List Char → Option (List Char)
  | '#' :: cs =>
      if (cs.takeWhile (· != '\n')).any isForbidden then none
      else some (cs.dropWhile (· != '\n'))
  | cs => some cs

/-- Passes over blanks, line ends and comments. -/
def skipFiller : Nat → List Char → Option (List Char)
  | 0, cs => some cs
  | fuel + 1, cs =>
      match cs.dropWhile isBlankOrBreak with
      | '#' :: rest => do skipFiller fuel (← skipComment ('#' :: rest))
      | rest => some rest

/-- The value of a hexadecimal digit. -/
def hexValue? (c : Char) : Option Nat :=
  if '0' ≤ c ∧ c ≤ '9' then some (c.toNat - '0'.toNat)
  else if 'a' ≤ c ∧ c ≤ 'f' then some (c.toNat - 'a'.toNat + 10)
  else if 'A' ≤ c ∧ c ≤ 'F' then some (c.toNat - 'A'.toNat + 10)
  else none

/-- The character with a code point given in hexadecimal digits. Surrogates are no characters. -/
def charOfHex? (digits : List Char) : Option Char := do
  let code ← digits.foldlM (fun acc c => do return acc * 16 + (← hexValue? c)) 0
  if h : code.isValidChar then some (Char.ofNatAux code h) else none

/-- The character that a short escape stands for. -/
def shortEscape? : Char → Option Char
  | 'b' => some '\x08'
  | 't' => some '\t'
  | 'n' => some '\n'
  | 'f' => some '\x0c'
  | 'r' => some '\r'
  | '"' => some '"'
  | '\\' => some '\\'
  | _ => none

/-- Puts a character in front of what a reader read. -/
def consTo (c : Char) (result : Option (List Char × List Char)) : Option (List Char × List Char) :=
  result.map fun (read, rest) => (c :: read, rest)

/-- The rest of a quoted text on one line, after its opening mark. -/
def quotedLine : List Char → Option (List Char × List Char)
  | [] => none
  | '"' :: cs => some ([], cs)
  | '\\' :: 'u' :: a :: b :: c :: d :: cs => do
      let e ← charOfHex? [a, b, c, d]
      consTo e (quotedLine cs)
  | '\\' :: 'U' :: a :: b :: c :: d :: e :: f :: g :: h :: cs => do
      let e ← charOfHex? [a, b, c, d, e, f, g, h]
      consTo e (quotedLine cs)
  | '\\' :: c :: cs => do
      let e ← shortEscape? c
      consTo e (quotedLine cs)
  | c :: cs => if isForbidden c || c == '\\' then none else consTo c (quotedLine cs)

/-- After the three closing marks, up to two more belong to the text. -/
def closingMarks (mark : Char) : List Char → List Char × List Char
  | c :: d :: cs =>
      if c = mark then if d = mark then ([c, d], cs) else ([c], d :: cs) else ([], c :: d :: cs)
  | c :: cs => if c = mark then ([c], cs) else ([], c :: cs)
  | [] => ([], [])

/-- Where a quoted block stands in a backslash that joins lines. -/
inductive Joining where
  | none
  /-- Only blanks may stand before the line ends. -/
  | beforeBreak
  /-- Blanks and further line ends are passed over. -/
  | afterBreak
  deriving DecidableEq

/-- The rest of a quoted text on several lines, after its opening marks. -/
def quotedBlock : Joining → List Char → Option (List Char × List Char)
  | .beforeBreak, '\n' :: cs => quotedBlock .afterBreak cs
  | .beforeBreak, c :: cs => if isBlank c then quotedBlock .beforeBreak cs else none
  | .beforeBreak, [] => none
  | .afterBreak, ' ' :: cs => quotedBlock .afterBreak cs
  | .afterBreak, '\t' :: cs => quotedBlock .afterBreak cs
  | .afterBreak, '\n' :: cs => quotedBlock .afterBreak cs
  | _, [] => none
  | _, '"' :: '"' :: '"' :: cs => some (closingMarks '"' cs)
  | _, '\\' :: 'u' :: a :: b :: c :: d :: cs => do
      let e ← charOfHex? [a, b, c, d]
      consTo e (quotedBlock .none cs)
  | _, '\\' :: 'U' :: a :: b :: c :: d :: e :: f :: g :: h :: cs => do
      let e ← charOfHex? [a, b, c, d, e, f, g, h]
      consTo e (quotedBlock .none cs)
  | _, '\\' :: '\n' :: cs => quotedBlock .afterBreak cs
  | _, '\\' :: ' ' :: cs => quotedBlock .beforeBreak cs
  | _, '\\' :: '\t' :: cs => quotedBlock .beforeBreak cs
  | _, '\\' :: c :: cs => do
      let e ← shortEscape? c
      consTo e (quotedBlock .none cs)
  | _, c :: cs =>
      if isForbiddenInBlock c || c == '\\' then none else consTo c (quotedBlock .none cs)

/-- The rest of a plain text on one line, after its opening mark. -/
def plainLine : List Char → Option (List Char × List Char)
  | [] => none
  | '\'' :: cs => some ([], cs)
  | c :: cs => if isForbidden c then none else consTo c (plainLine cs)

/-- The rest of a plain text on several lines, after its opening marks. -/
def plainBlock : List Char → Option (List Char × List Char)
  | [] => none
  | '\'' :: '\'' :: '\'' :: cs => some (closingMarks '\'' cs)
  | c :: cs => if isForbiddenInBlock c then none else consTo c (plainBlock cs)

/-- A line end right after the opening marks of a block does not belong to it. -/
def dropFirstBreak : List Char → List Char
  | '\n' :: cs => cs
  | cs => cs

/-- A text, if one begins here. -/
def text? : List Char → Option (Option (List Char × List Char))
  | '"' :: '"' :: '"' :: cs => some (quotedBlock .none (dropFirstBreak cs))
  | '"' :: cs => some (quotedLine cs)
  | '\'' :: '\'' :: '\'' :: cs => some (plainBlock (dropFirstBreak cs))
  | '\'' :: cs => some (plainLine cs)
  | _ => none

end Vigil.Toml
