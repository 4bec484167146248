import Custody.Text.Blank

/-!
# Identifiers

A name that says something.  Names that come from outside are checked where they are used; an
`Identifier` is one that was made up for the purpose, and is known not to be blank.
-/

namespace Custody

/-- A text that is not blank. -/
structure Identifier where
  text : String
  content : Text.isBlank text = false

/-- The identifier with this text, unless that is blank. -/
def Identifier.ofString? (s : String) : Option Identifier :=
  if h : Text.isBlank s = false then some ⟨s, h⟩ else none

end Custody
