/-!
# Upper case, as far as it can spell a plain word

Words such as the names of log levels consist of the letters `A` to `Z`. Besides `a` to `z` a few
characters elsewhere have such letters in their upper case form; the table lists them all. Any
other character is left alone, since no form of it occurs in a plain word.
-/

namespace Vigil.Text

/-- The characters beyond `a` to `z` whose upper case form has a letter from `A` to `Z`. -/
def foreignUpperCase : List (Char × List Char) :=
  [('\u00df', ['S', 'S']), ('\u0131', ['I']), ('\u0149', ['\u02bc', 'N']), ('\u017f', ['S']),
   ('\u01f0', ['J', '\u030c']), ('\u1e96', ['H', '\u0331']), ('\u1e97', ['T', '\u0308']),
   ('\u1e98', ['W', '\u030a']), ('\u1e99', ['Y', '\u030a']), ('\u1e9a', ['A', '\u02be']),
   ('\ufb00', ['F', 'F']), ('\ufb01', ['F', 'I']), ('\ufb02', ['F', 'L']),
   ('\ufb03', ['F', 'F', 'I']), ('\ufb04', ['F', 'F', 'L']), ('\ufb05', ['S', 'T']),
   ('\ufb06', ['S', 'T'])]

/-- The upper case form of one character. -/
def upperChar (c : Char) : List Char :=
  if c.toNat < 128 then [c.toUpper] else (foreignUpperCase.lookup c).getD [c]

/-- The upper case form of a text. -/
def upperCase (s : String) : String := String.ofList (s.toList.flatMap upperChar)

end Vigil.Text
