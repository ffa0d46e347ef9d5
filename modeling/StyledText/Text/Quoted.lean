import StyledText.Text.Unprinted

/-!
# Quoted text in descriptions

A description shows a text between double quotes. Line feed, carriage return, tab, null,
the quote and the backslash have short escapes; a character that has no printed form of
its own is written by its code point in braces.
-/
namespace StyledText.Text

/-- The form of one character between the quotes. -/
def quoteChar (c : Char) : Text :=
  if c = '"' then "\\\""
  else if c = '\\' then "\\\\"
  else if c = '\n' then "\\n"
  else if c = '\r' then "\\r"
  else if c = '\t' then "\\t"
  else if c = '\x00' then "\\0"
  else if isPrinted c then [c]
  else "\\u\x7b".toList ++ Nat.toDigits 16 c.toNat ++ "\x7d".toList

/-- A text between double quotes, with escapes. -/
def quoted (t : Text) : Text := '"' :: t.flatMap quoteChar ++ ['"']

end StyledText.Text
