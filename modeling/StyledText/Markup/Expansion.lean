import StyledText.Markup.Node
import StyledText.Markup.Registry

/-!
# Expansion

A tree is expanded from the leaves up: a text stands for itself, an element for what its
handler makes of its expanded children, or for those children when no handler is
registered. Input without an opening bracket and without a doubled closing one has no
markup and is returned as it is.
-/
namespace StyledText.Markup

variable {C : Type}

mutual

def Node.expand (r : Registry C) (context : C) : Node → Text
  | .text content => content
  | .element name parameters selfClosing _ _ children =>
    let content := expandAll r context children
    match r.get? name with
    | some handler => handler ⟨name, parameters, content, selfClosing⟩ context
    | none => content

def expandAll (r : Registry C) (context : C) : List Node → Text
  | [] => []
  | node :: nodes => node.expand r context ++ expandAll r context nodes

end

def hasDoubledClosing : Text → Bool
  | ']' :: ']' :: _ => true
  | _ :: rest => hasDoubledClosing rest
  | [] => false

/-- The input can hold a tag or an escaped bracket. -/
def mayHoldMarkup (input : Text) : Bool := input.contains '[' || hasDoubledClosing input

def expand (r : Registry C) (context : C) (input : Text) : Text :=
  if mayHoldMarkup input then expandAll r context (parse input) else input

def describeExpander (r : Registry C) : Text :=
  "Processor \x7b registry: ".toList ++ r.describe ++ " \x7d".toList

end StyledText.Markup
