import StyledText.Proofs.Style.Drawing

/-!
# Wrapped texts

A text shows the same painted, decorated or linked as it does alone. This holds of every text: an
ESC, a control sequence or a command that it leaves unfinished does not reach into the sequences
behind it, and those in front of it do not reach into the text.
-/
namespace StyledText.Style

open Escape

theorem strip_paint (a : Attributes) (content : Text) : strip (paint a content) = strip content := by
  have between {on off t : Text} (switch : Switch on off) (shown : strip t = strip content) :
      strip (on ++ t ++ off) = strip content := by
    rw [switch.strip_between, shown]
  exact Switch.around_paint (P := fun painted => strip painted = strip content) between rfl a

theorem strip_decorate (d : Decoration) (content : Text) :
    strip (decorate d content) = strip content :=
  (Switch.decoration d).strip_between content

theorem strip_hyperlink {address : Text} (plain : Plain address) (content : Text) :
    strip (hyperlink address content) = strip content :=
  (Switch.link plain).strip_between content

/-- What is put around a text is not seen, and takes no columns. -/
theorem strip_wrapped (content : Text) :
    (∀ a, strip (paint a content) = strip content ∧
        visibleWidth (paint a content) = visibleWidth content) ∧
      (∀ d, strip (decorate d content) = strip content ∧
        visibleWidth (decorate d content) = visibleWidth content) ∧
      ∀ address, Plain address → strip (hyperlink address content) = strip content ∧
        visibleWidth (hyperlink address content) = visibleWidth content := by
  have width {t : Text} (shown : strip t = strip content) : visibleWidth t = visibleWidth content :=
    congrArg List.length shown
  refine ⟨fun a => ?_, fun d => ?_, fun address plain => ?_⟩
  · exact ⟨strip_paint a content, width (strip_paint a content)⟩
  · exact ⟨strip_decorate d content, width (strip_decorate d content)⟩
  · exact ⟨strip_hyperlink plain content, width (strip_hyperlink plain content)⟩

/-- A command without an end, in front of the command that closes the link around it. -/
theorem strip_wrapped_command :
    strip (hyperlink "//x".toList "\x1b]0;t".toList) = strip "\x1b]0;t".toList := by
  have plain : Plain "//x".toList := ⟨by decide, by decide⟩
  exact ((strip_wrapped "\x1b]0;t".toList).2.2 _ plain).1

end StyledText.Style
