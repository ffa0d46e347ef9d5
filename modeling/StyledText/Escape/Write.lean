import StyledText.Escape.Sequence

/-!
# Writing escape sequences
-/
namespace StyledText.Escape

/-- Select graphic rendition with the given parameters. -/
def sgr (parameters : Text) : Text := esc :: '[' :: parameters ++ ['m']

/-- Back to the default foreground. -/
def foregroundOff : Text := sgr "39"

/-- Back to the default background. -/
def backgroundOff : Text := sgr "49"

/-- The command that opens a link, or closes it when the address is empty. -/
def linkCommand (address : Text) : Text := esc :: ']' :: "8;;".toList ++ address ++ [esc, '\\']

/-- Text that links to an address. -/
def hyperlink (address text : Text) : Text := linkCommand address ++ text ++ linkCommand []

end StyledText.Escape
