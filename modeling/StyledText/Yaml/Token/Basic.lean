import StyledText.Yaml.Source

/-!
# Tokens of a document
-/
namespace StyledText.Yaml

/-- How a scalar is written. -/
inductive ScalarStyle where
  | plain | singleQuoted | doubleQuoted | literal | folded
  deriving DecidableEq, Repr

/-- A tag or a part of one, in bytes: its escapes may spell bytes that form no text. A zero
byte ends it. -/
abbrev TagBytes := List UInt8

inductive Token where
  | version (major minor : Nat)
  | tagDirective (handle : Text) (start : TagBytes)
  | documentStart
  | documentEnd
  | blockSequenceStart
  | blockMappingStart
  | blockEnd
  | flowSequenceStart
  | flowSequenceEnd
  | flowMappingStart
  | flowMappingEnd
  | blockEntry
  | flowEntry
  | key
  | value
  | reference (name : Text)
  | anchor (name : Text)
  | tag (handle : Text) (suffix : TagBytes)
  | scalar (text : Text) (style : ScalarStyle)
  deriving DecidableEq, Repr

end StyledText.Yaml
