import StyledText.Text.Basic

/-!
# Tag names

A tag name is an ASCII letter or an underscore followed by letters, digits, underscores
and hyphens.
-/
namespace StyledText.Markup

def isNameStart (c : Char) : Bool := c.isAlpha || c == '_'

def isNameChar (c : Char) : Bool := c.isAlphanum || c == '_' || c == '-'

/-- The shape of a tag name. -/
def isName : Text → Bool
  | [] => false
  | c :: rest => isNameStart c && rest.all isNameChar

end StyledText.Markup
