import StyledText.Element.Alert
import StyledText.Element.Heading
import StyledText.Element.Rule
import StyledText.Element.Link

/-!
# Elements
-/
namespace StyledText

inductive Element where
  | run (r : Run)
  | alert (a : Alert)
  | heading (h : Heading)
  | rule (r : Rule)
  | link (l : Link)
  deriving Repr, Inhabited

namespace Element

/-- The element as text with escape sequences. -/
def render (e : Element) (c : Context) : Text :=
  match e with
  | .run r => r.render c
  | .alert a => a.render c
  | .heading h => h.render c
  | .rule r => r.render c
  | .link l => l.render c

end Element
end StyledText
