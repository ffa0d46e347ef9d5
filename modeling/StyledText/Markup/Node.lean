import StyledText.Markup.Token
import StyledText.Markup.Parameters

/-!
# Markup trees

A closing tag pairs with the nearest open tag of its name. Opening tags left open by the
pairing, closing tags without a partner and tags open at the end of the input are literal
text at the place where they were written.

The builder keeps one list of nodes for all open tags. Each open tag remembers where its
children begin, and a tally of open names decides at once whether a closing tag has a
partner. When a tag closes, the nodes from its beginning on become its children, and the
open tags above it are put back among them as text.
-/
namespace StyledText.Markup

inductive Node where
  | text (content : Text)
  | element (name : Text) (parameters : Parameters) (selfClosing : Bool) (opening : Text)
      (closing : Option Text) (children : List Node)
  deriving Repr, Inhabited

/-- The node of a tag with its children and the markup that closes it. -/
def Node.ofTag (tag : Tag) (children : List Node) (closing : Option Text) : Node :=
  .element tag.name (Parameters.parse tag.tail) (tag.kind = .selfClosing) tag.markup closing
    children

abbrev Tally := List (Text × Nat)

namespace Tally

def count (name : Text) (tally : Tally) : Nat := (tally.lookup name).getD 0

def change (f : Nat → Nat) (name : Text) : Tally → Tally
  | [] => [(name, f 0)]
  | (k, n) :: rest => if k = name then (k, f n) :: rest else (k, n) :: change f name rest

def increment : Text → Tally → Tally := change (· + 1)

def decrement : Text → Tally → Tally := change (· - 1)

end Tally

/-- An open tag and the number of nodes that stood before it. -/
structure Frame where
  tag : Tag
  start : Nat
  deriving Repr

/-- Nodes read so far, open tags from the innermost out, and a tally of their names. -/
structure Builder where
  nodes : Array Node := #[]
  frames : List Frame := []
  tally : Tally := []

namespace Builder

def push (b : Builder) (node : Node) : Builder := { b with nodes := b.nodes.push node }

def openTag (b : Builder) (tag : Tag) : Builder :=
  { b with
    frames := ⟨tag, b.nodes.size⟩ :: b.frames
    tally := b.tally.increment tag.name }

/-- The frames above the nearest one of a name, that one, and those below it. -/
def splitFrames (name : Text) : List Frame → Option (List Frame × Frame × List Frame)
  | [] => none
  | f :: fs =>
    if f.tag.name = name then some ([], f, fs)
    else (splitFrames name fs).map fun (above, found, below) => (f :: above, found, below)

/-- Put unclosed tags, outermost first, back among nodes as text. The nodes have consecutive
indices from `i`; a tag stands before the first node at or after its start. -/
def splice : List Frame → (i : Nat) → List Node → List Node
  | [], _, nodes => nodes
  | f :: fs, i, [] => .text f.tag.markup :: splice fs i []
  | f :: fs, i, n :: ns =>
    if f.start ≤ i then .text f.tag.markup :: splice fs i (n :: ns)
    else n :: splice (f :: fs) (i + 1) ns
termination_by frames _ nodes => frames.length + nodes.length

def forget (tally : Tally) (frames : List Frame) : Tally :=
  frames.foldl (fun t f => t.decrement f.tag.name) tally

def closeTag (b : Builder) (tag : Tag) : Builder :=
  if b.tally.count tag.name = 0 then b.push (.text tag.markup)
  else
    match splitFrames tag.name b.frames with
    | none => b.push (.text tag.markup)
    | some (above, frame, below) =>
      let children := splice above.reverse frame.start (b.nodes.toList.drop frame.start)
      { nodes := (b.nodes.take frame.start).push (.ofTag frame.tag children (some tag.markup))
        frames := below
        tally := forget b.tally (frame :: above) }

def step (b : Builder) : Token → Builder
  | .tag t =>
    match t.kind with
    | .opening => b.openTag t
    | .selfClosing => b.push (.ofTag t [] none)
    | .closing => b.closeTag t
  | token => b.push (.text token.text)

def finish (b : Builder) : List Node := splice b.frames.reverse 0 b.nodes.toList

end Builder

def treeOf (tokens : List Token) : List Node := (tokens.foldl Builder.step {}).finish

def parse (input : Text) : List Node := treeOf (tokenize input)

end StyledText.Markup
