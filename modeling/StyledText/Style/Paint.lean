import StyledText.Escape.Write
import StyledText.Style.Attributes
import StyledText.Style.Color

/-!
# Painting

Painting puts the sequences that turn a style on before a text and those that turn it off
behind it, innermost first. Each attribute is turned off by its own code, so no sequence
resets more than was set. A color that does not parse is left out on both sides.
-/
namespace StyledText.Style

def codes (ds : List Nat) : Text := ds.flatMap fun code => Escape.sgr (Text.ofNat code)

/-- The color that an attribute denotes, when it denotes one. -/
def color? (name : Option Text) : Option Color := name.bind fun t => (Color.parse t).toOption

def styleOn (a : Attributes) : Text :=
  ((color? a.color).map fun c => Escape.sgr c.foreground).getD [] ++
    (((color? a.background).map fun c => Escape.sgr c.background).getD [] ++
      codes (a.decorations.toList.map Decoration.onCode))

def styleOff (a : Attributes) : Text :=
  codes (a.decorations.toList.reverse.map Decoration.offCode) ++
    ((if (color? a.background).isSome then Escape.backgroundOff else []) ++
      (if (color? a.color).isSome then Escape.foregroundOff else []))

/-- The content between its style's sequences. -/
def paint (a : Attributes) (content : Text) : Text := styleOn a ++ content ++ styleOff a

/-- The content under a single decoration. -/
def decorate (d : Decoration) (content : Text) : Text :=
  Escape.sgr (Text.ofNat d.onCode) ++ content ++ Escape.sgr (Text.ofNat d.offCode)

end StyledText.Style
