import StyledText.Escape.Sequence

/-!
# Truncation to a width

A text wider than its limit keeps its first characters up to one less than the limit and
shows an ellipsis for the rest. Every escape sequence is kept, those behind the cut
included, so a style that was opened is closed.
-/
namespace StyledText.Escape

/-- The character that stands for what was cut off. -/
def ellipsis : Char := '…'

/-- Keep `room` more characters, then write `mark` once for all that follow. -/
def keepPieces (room : Nat) (mark : Text) : List Piece → Text
  | [] => []
  | .sequence s :: rest => s ++ keepPieces room mark rest
  | .visible c :: rest =>
    match room with
    | 0 => mark ++ keepPieces 0 [] rest
    | room + 1 => c :: keepPieces room mark rest

/-- The text cut to at most `limit` visible characters. -/
def truncate (limit : Nat) (t : Text) : Text :=
  if visibleWidth t ≤ limit then t
  else keepPieces (limit - 1) (if limit = 0 then [] else [ellipsis]) (pieces t)

end StyledText.Escape
