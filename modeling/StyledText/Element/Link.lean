import StyledText.Element.Run

/-!
# Links

A link without text shows its address, brackets and all.
-/
namespace StyledText

open Style

structure Link where
  text : Text
  address : Text
  attributes : Attributes := {}
  deriving DecidableEq, Repr, Inhabited

namespace Link

def styles (l : Link) (a : Attributes) : Link := { l with attributes := l.attributes.merge a }

/-- The run that a link is. -/
def run (l : Link) : Run where
  value := if l.text = [] then Markup.escape l.address else l.text
  attributes := l.attributes
  link := some l.address

def render (l : Link) (c : Context) : Text := l.run.render c

end Link
end StyledText
