import StyledText.Element.Run

/-!
# Alerts

An alert is a message in a colored box three rows high. What is unset comes from the
theme's table `alert`; the colors of a kind are looked up there and then among the colors.
-/
namespace StyledText

open Style

inductive AlertKind where
  | info | warning | danger | success | primary | secondary
  deriving DecidableEq, Repr, Inhabited

/-- No kind of alert has this name. -/
structure AlertKindError where
  text : Text
  deriving DecidableEq, Repr

def AlertKindError.message (e : AlertKindError) : Text :=
  "unknown alert kind '".toList ++ e.text ++
    "' (expected info, warning, danger, success, primary or secondary)".toList

namespace AlertKind

def all : List AlertKind := [info, warning, danger, success, primary, secondary]

def name : AlertKind → Text
  | info => "info"
  | warning => "warning"
  | danger => "danger"
  | success => "success"
  | primary => "primary"
  | secondary => "secondary"

/-- Text color of a kind for which the theme has none. -/
def textColor : AlertKind → Text
  | danger | primary | secondary => "white"
  | info | warning | success => "black"

/-- The kind with a name, blanks around it and the case of its letters ignored. -/
def parse (t : Text) : Except AlertKindError AlertKind :=
  match all.find? fun kind => kind.name = Text.asciiLower (Text.trim t) with
  | some kind => .ok kind
  | none => .error ⟨t⟩

end AlertKind

structure Alert where
  value : Text
  kind : AlertKind := .info
  width : Option Nat := none
  full : Option Bool := none
  align : Option Align := none
  deriving DecidableEq, Repr, Inhabited

namespace Alert

/-- Columns left and right of the message. -/
def inset : Nat := 2

/-- Columns of the box. -/
def columns (a : Alert) (c : Context) : Nat :=
  Layout.boxWidth (a.width.getD (c.theme.getOr Yaml.Value.count? "alert.width" 50))
    (a.full.getD (c.theme.getOr Yaml.Value.bool? "alert.width-full" false)) c.width

def alignment (a : Alert) (c : Context) : Align :=
  a.align.getD (c.theme.getOr Yaml.Value.align? "alert.text-align" .left)

/-- A color of the kind in the theme. -/
def kindColor (a : Alert) (c : Context) (field fallback : Text) : Text :=
  (c.theme.getText? ("alert.type.".toList ++ a.kind.name ++ '.' :: field)).getD fallback

def background (a : Alert) (c : Context) : Text := a.kindColor c "bg" a.kind.name

def color (a : Alert) (c : Context) : Text := a.kindColor c "color" a.kind.textColor

/-- The empty row above and below the message. -/
def filler (a : Alert) (c : Context) : Run where
  value := []
  attributes :=
    { paddingLeft := some (a.columns c), background := some (a.background c),
      display := some .block }

/-- The row of the message. -/
def body (a : Alert) (c : Context) : Run where
  value := a.value
  attributes :=
    { width := some (.columns (a.columns c)), paddingLeft := some inset,
      paddingRight := some inset, background := some (a.background c), color := some (a.color c),
      display := some .block, align := some (a.alignment c) }

def render (a : Alert) (c : Context) : Text :=
  (a.filler c).render c ++ (a.body c).render c ++ (a.filler c).render c

end Alert
end StyledText
