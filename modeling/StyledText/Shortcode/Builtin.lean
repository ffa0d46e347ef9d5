import StyledText.Shortcode.Spacing
import StyledText.Style.Paint
import StyledText.Markup.Expansion

/-!
# Built-in tags

Decorations, links, colors and spacing. A color tag resolves its value through the theme;
without a value it leaves its content as it is.
-/
namespace StyledText

open Markup Style

namespace Shortcode

def decorationHandler (d : Decoration) : Handler Theme := fun invocation _ =>
  decorate d invocation.content

/-- A link to the parameter `href` or else to the unnamed value. -/
def anchorHandler : Handler Theme := fun invocation _ =>
  match invocation.parameters.get? "href" <|> invocation.parameters.unnamed with
  | some address => Escape.hyperlink address invocation.content
  | none => invocation.content

/-- Content in a color, set as the field that `put` fills. -/
def colorHandler (put : Text → Attributes) : Handler Theme := fun invocation theme =>
  match invocation.parameters.unnamed with
  | none => invocation.content
  | some [] => invocation.content
  | some name => paint (put (theme.resolveColor name)) invocation.content

/-- Decoration tags with their short names. -/
def decorationNames : List (Text × Decoration) :=
  [("bold", .bold), ("b", .bold), ("italic", .italic), ("i", .italic), ("underline", .underline),
    ("u", .underline), ("strikethrough", .strikethrough), ("s", .strikethrough), ("dim", .dim),
    ("d", .dim), ("blink", .blink), ("reverse", .reverse), ("invisible", .invisible)]

def decorationHandlers : List (Text × Handler Theme) :=
  decorationNames.map fun (name, d) => (name, decorationHandler d)

/-- Tags for links and colors. -/
def otherHandlers : List (Text × Handler Theme) :=
  [("anchor", anchorHandler), ("a", anchorHandler),
    ("color", colorHandler fun name => { color := some name }),
    ("bg", colorHandler fun name => { background := some name })]

/-- All built-in tags. -/
def builtin : Registry Theme := .ofList (decorationHandlers ++ otherHandlers ++ spacingHandlers)

end Shortcode

/-- Tags bound to a theme. -/
structure Shortcodes where
  registry : Registry Theme := Shortcode.builtin
  theme : Theme
  deriving Inhabited

namespace Shortcodes

/-- Expand every tag of a text. -/
def expand (s : Shortcodes) (text : Text) : Text := Markup.expand s.registry s.theme text

/-- The binding, as a description shows it. -/
def describe (s : Shortcodes) : Text :=
  let name : Text := match s.theme.name with
    | some name => "Some(".toList ++ Text.quoted name ++ ")".toList
    | none => "None"
  "Shortcodes \x7b registry: ".toList ++ s.registry.describe ++ ", theme: ".toList ++ name ++
    " \x7d".toList

end Shortcodes
end StyledText
