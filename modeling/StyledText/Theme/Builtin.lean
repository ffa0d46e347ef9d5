import StyledText.Theme.Basic

/-!
# The built-in theme
-/
namespace StyledText.Theme

open Yaml

def baseColors : List Text :=
  ["black", "red", "green", "yellow", "blue", "magenta", "cyan", "white", "gray"].map
    String.toList

/-- Kinds of message: a name, the color it stands for, and the text color on it. -/
def messageColors : List (Text × Text × Text) :=
  [("info", "blue", "black"), ("warning", "yellow", "black"), ("danger", "red", "white"),
    ("success", "green", "black"), ("primary", "blue", "white"), ("secondary", "gray", "white")]

def string (t : Text) : Value := .string t

def integer (i : Int) : Value := .number (.integer i)

/-- A table with string keys. -/
def table (entries : List (Text × Value)) : Value :=
  .mapping (entries.map fun (key, value) => (.string key, value))

/-- The theme that is current unless another is set. -/
def builtin : Theme where
  name := some "default"
  entries :=
    [(string "colors",
        table (baseColors.map (fun c => (c, string c)) ++
          messageColors.map fun (kind, color, _) => (kind, string color))),
      (string "padding",
        table [("global", integer 1), ("left", integer 1), ("right", integer 1)]),
      (string "margin",
        table [("global", integer 1), ("left", integer 1), ("right", integer 1)]),
      (string "alert",
        table [("text-align", string "left"), ("width-full", .bool false), ("width", integer 50),
          ("type", table (messageColors.map fun (kind, _, text) =>
            (kind, table [("bg", string kind), ("color", string text)])))]),
      (string "el",
        table [("padding-left", integer 0), ("padding-right", integer 0),
          ("margin-left", integer 0), ("margin-right", integer 0),
          ("text-align", string "left"), ("display", string "inline")]),
      (string "heading", table [("size", integer 1), ("spacing", integer 1)]),
      (string "rule",
        table [("character", string "─"), ("text-align", string "left"),
          ("width-full", .bool true), ("width", integer 50)])]

end StyledText.Theme
