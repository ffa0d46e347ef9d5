import StyledText.Proofs.Shortcode.Builtin

/-!
# Texts on one line

No sequence and no spacing holds a newline, so the built-in tags expand a text on one line to one
line.
-/
namespace StyledText

open Markup Style Escape

namespace Escape

theorem newline_notMem_sgr {parameters : Text} (h : ∀ c ∈ parameters, isParameter c) :
    '\n' ∉ sgr parameters := by
  have inside : '\n' ∉ parameters := fun mem => absurd (h _ mem) (by decide)
  simp [sgr, esc, inside]

theorem newline_notMem_hyperlink {address content : Text} (link : '\n' ∉ address)
    (line : '\n' ∉ content) : '\n' ∉ hyperlink address content := by
  simp [hyperlink, linkCommand, esc, link, line]

end Escape

namespace Style

theorem newline_notMem_codes (ds : List ℕ) : '\n' ∉ codes ds := by
  intro mem
  obtain ⟨code, -, inside⟩ := List.mem_flatMap.1 mem
  exact newline_notMem_sgr (isParameter_ofNat code) inside

variable {content : Text} (line : '\n' ∉ content)
include line

theorem newline_notMem_decorate (d : Decoration) : '\n' ∉ decorate d content := by
  have on := newline_notMem_sgr (isParameter_ofNat d.onCode)
  have off := newline_notMem_sgr (isParameter_ofNat d.offCode)
  simp [decorate, on, off, line]

theorem newline_notMem_paint (a : Attributes) : '\n' ∉ paint a content := by
  have foreground (c : Color) : '\n' ∉ sgr c.foreground :=
    newline_notMem_sgr (isParameter_parameters 30 90 38 c)
  have background (c : Color) : '\n' ∉ sgr c.background :=
    newline_notMem_sgr (isParameter_parameters 40 100 48 c)
  have on : '\n' ∉ styleOn a := by
    rw [styleOn]
    cases color? a.color <;> cases color? a.background <;>
      simp [foreground, background, newline_notMem_codes]
  have off : '\n' ∉ styleOff a := by
    have foregroundOff : '\n' ∉ foregroundOff := by decide
    have backgroundOff : '\n' ∉ backgroundOff := by decide
    rw [styleOff]
    cases color? a.color <;> cases color? a.background <;>
      simp [foregroundOff, backgroundOff, newline_notMem_codes]
  simp [paint, on, off, line]

end Style

theorem Layout.newline_notMem_pad {content : Text} (line : '\n' ∉ content) (left right : ℕ) :
    '\n' ∉ pad content left right := by
  simp [pad, Text.spaces, line]

namespace Shortcode

variable (theme : Theme)

theorem Wrapped.newline_notMem {input content t : Text} (wrapped : Wrapped input content t)
    (link : '\n' ∉ input) (line : '\n' ∉ content) : '\n' ∉ t := by
  cases wrapped with
  | same => exact line
  | decorated d => exact newline_notMem_decorate line d
  | linked inside => exact newline_notMem_hyperlink (fun mem => link (inside mem)) line
  | painted a => exact newline_notMem_paint line a

theorem newline_notMem_apply {input name content : Text} {parameters : Parameters}
    (selfClosing : Bool) (within : parameters.Within input) (link : '\n' ∉ input)
    (line : '\n' ∉ content) :
    '\n' ∉ builtin.apply theme ⟨name, parameters, content, selfClosing⟩ := by
  by_cases spaces : name ∈ spacingNames
  · obtain ⟨left, right, padded⟩ := apply_spacing theme parameters selfClosing spaces
    rw [(padded content).1]
    exact Layout.newline_notMem_pad line left right
  · exact (wrapped_apply theme parameters selfClosing spaces within content).newline_notMem link line

theorem newline_notMem_expand {text : Text} (line : '\n' ∉ text) :
    '\n' ∉ Shortcodes.expand { theme := theme } text := by
  have keeps : Keeps text builtin builtin theme theme fun t _ => '\n' ∉ t := {
    text := fun t inside mem => line (inside mem)
    append := fun s _ t _ first second mem => (List.mem_append.1 mem).elim first second
    apply := fun _ _ selfClosing _ _ within inner =>
      newline_notMem_apply theme selfClosing within line inner }
  exact keeps.expand

end Shortcode
end StyledText
