import StyledText.Element.Basic
import StyledText.Output.Mode
import StyledText.Output.Sink

/-!
# Printers

A printer renders elements in a context, applies its output mode and writes the result to
its sink. It knows how its terminal answers: the columns that are detected stand in its context,
and whether color is shown beside its mode.
-/
namespace StyledText

open Markup

structure Printer where
  context : Context
  mode : OutputMode := .auto
  /-- The terminal shows color; the automatic mode depends on it. -/
  showsColor : Bool := false
  sink : Sink := {}
  deriving Inhabited

namespace Printer

/-- Replace the tags and the theme together. -/
def setShortcodes (p : Printer) (shortcodes : Shortcodes) : Printer :=
  { p with context.shortcodes := shortcodes }

/-- Render against another theme, with the same tags. -/
def setTheme (p : Printer) (theme : Theme) : Printer :=
  p.setShortcodes { p.context.shortcodes with theme }

/-- Register a handler in the tags, with the same theme. -/
def register (p : Printer) (name : Text) (handler : Handler Theme) :
    Except RegistryError Printer :=
  (p.context.shortcodes.registry.register name handler).map fun registry =>
    p.setShortcodes { p.context.shortcodes with registry }

/-- Fix the layout width; zero leaves it to detection. -/
def setWidth (p : Printer) (columns : Nat) : Printer :=
  { p with context.fixedWidth := some columns }

def setMode (p : Printer) (mode : OutputMode) : Printer := { p with mode := mode }

/-- What is written of rendered text. -/
def apply (p : Printer) (rendered : Text) : Text := p.mode.apply rendered p.showsColor

/-- What writing an element would write. -/
def render (p : Printer) (e : Element) : Text := p.apply (e.render p.context)

/-- What writing a line of markup would write before the newline. -/
def renderText (p : Printer) (text : Text) : Text := p.apply (p.context.expand text)

def send (p : Printer) (pieces : List Text) : Printer × Except SinkError Unit :=
  let (sink, result) := p.sink.writeAll (pieces.map Text.toUtf8)
  ({ p with sink := sink }, result)

/-- Write an element. -/
def write (p : Printer) (e : Element) : Printer × Except SinkError Unit := p.send [p.render e]

/-- Expand markup and write it with a newline. -/
def writeLine (p : Printer) (text : Text) : Printer × Except SinkError Unit :=
  p.send [p.renderText text, ['\n']]

/-- Write text without expanding it. -/
def writeText (p : Printer) (text : Text) : Printer × Except SinkError Unit :=
  p.send [p.apply text]

/-- The printer, as a description shows it. -/
def describe (p : Printer) : Text :=
  "Termage \x7b ctx: ".toList ++ p.context.describe ++ ", mode: ".toList ++ p.mode.title ++
    ", .. \x7d".toList

end Printer
end StyledText
