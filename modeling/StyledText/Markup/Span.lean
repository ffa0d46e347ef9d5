import StyledText.Markup.Token

/-!
# Spans of tokens

The tokens of an input stand side by side in it. A span places a token by the bytes of its
source in UTF-8; spans of consecutive tokens meet, and those of all tokens cover the input.
-/
namespace StyledText.Markup

/-- A token and the bytes that it covers, from `start` up to `stop`. -/
structure Span where
  token : Token
  start : Nat
  stop : Nat
  deriving DecidableEq, Repr

/-- Tokens placed side by side from an offset on. -/
def spansFrom (start : Nat) : List Token → List Span
  | [] => []
  | token :: tokens =>
    ⟨token, start, start + Text.utf8Size token.source⟩ ::
      spansFrom (start + Text.utf8Size token.source) tokens

/-- The tokens of an input with their places. -/
def spans (input : Text) : List Span := spansFrom 0 (tokenize input)

@[simp] theorem map_token_spansFrom (start : Nat) (tokens : List Token) :
    (spansFrom start tokens).map Span.token = tokens := by
  induction tokens generalizing start with
  | nil => rfl
  | cons token tokens ih => simp [spansFrom, ih]

theorem map_token_spans (input : Text) : (spans input).map Span.token = tokenize input :=
  map_token_spansFrom 0 (tokenize input)

end StyledText.Markup
