import StyledText.Shortcode.Builtin

/-!
# Rendering context

Elements are rendered with tags, a theme and a layout width: the fixed one when it is set
and not zero, else the width that was detected.
-/
namespace StyledText

/-- The layout width where nothing is detected. -/
def defaultWidth : Nat := 80

structure Context where
  shortcodes : Shortcodes
  fixedWidth : Option Nat := none
  detectedWidth : Nat := defaultWidth
  deriving Inhabited

namespace Context

def theme (c : Context) : Theme := c.shortcodes.theme

def width (c : Context) : Nat := (c.fixedWidth.filter (· > 0)).getD c.detectedWidth

def expand (c : Context) (text : Text) : Text := c.shortcodes.expand text

/-- The context, as a description shows it. -/
def describe (c : Context) : Text :=
  let width : Text := match c.fixedWidth with
    | some n => "Some(".toList ++ Text.ofNat n ++ ")".toList
    | none => "None"
  "RenderContext \x7b shortcodes: ".toList ++ c.shortcodes.describe ++
    ", terminal_width: ".toList ++ width ++ " \x7d".toList

end Context
end StyledText
