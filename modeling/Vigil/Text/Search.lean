/-!
# Finding one text in another

An error says that a resource is gone by how its message begins or by a phrase anywhere in its text.
-/

namespace Vigil.Text

/-- The phrase stands somewhere in the list of characters. -/
def occursIn (phrase : List Char) : List Char → Bool
  | [] => phrase.isEmpty
  | c :: cs => phrase.isPrefixOf (c :: cs) || occursIn phrase cs

/-- The phrase stands somewhere in the text. -/
def contains (text phrase : String) : Bool := occursIn phrase.toList text.toList

/-- The text begins with the phrase. -/
def startsWith (text phrase : String) : Bool := phrase.toList.isPrefixOf text.toList

/-- Finding a phrase means that the text is some beginning, the phrase, and some end. -/
theorem occursIn_iff (phrase text : List Char) :
    occursIn phrase text = true ↔ phrase <:+: text := by
  induction text with
  | nil => simp [occursIn]
  | cons c cs ih =>
      simp only [occursIn, Bool.or_eq_true, List.isPrefixOf_iff_prefix, ih, List.infix_cons_iff]

end Vigil.Text
