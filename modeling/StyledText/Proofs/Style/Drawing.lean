import StyledText.Layout
import StyledText.Proofs.Style.Paint

/-!
# Drawn texts

A text is drawn when it is put together from plain texts and from drawn texts between a sequence
that turns something on and the one that turns it off again. What a drawn text shows is the plain
text in it. Cut to a width, a drawn text is drawn again and shows what it showed cut to that width.
-/
namespace StyledText.Style

open Escape

/-- A sequence that turns something on, and the one that turns it off. -/
inductive Switch : Text → Text → Prop
  | decoration (d : Decoration) : Switch (sgr (Text.ofNat d.onCode)) (sgr (Text.ofNat d.offCode))
  | foreground (c : Color) : Switch (sgr c.foreground) foregroundOff
  | background (c : Color) : Switch (sgr c.background) backgroundOff
  | link {address : Text} (plain : Plain address) : Switch (linkCommand address) (linkCommand [])

/-- The first text is drawn and shows the second. -/
inductive Drawn : Text → Text → Prop
  | plain {t : Text} (h : Plain t) : Drawn t t
  | append {s t v w : Text} (first : Drawn s v) (second : Drawn t w) : Drawn (s ++ t) (v ++ w)
  | between {on off t v : Text} (switch : Switch on off) (inner : Drawn t v) :
      Drawn (on ++ t ++ off) v

theorem Switch.whole {on off : Text} (h : Switch on off) :
    (Piece.sequence on).Whole ∧ (Piece.sequence off).Whole := by
  cases h with
  | decoration d => exact ⟨whole_sgr_ofNat d.onCode, whole_sgr_ofNat d.offCode⟩
  | foreground c => exact ⟨whole_foreground c, whole_foregroundOff⟩
  | background c => exact ⟨whole_background c, whole_backgroundOff⟩
  | link plain => exact ⟨whole_linkCommand plain, whole_linkCommand plain_nil⟩

theorem Switch.off_eq {on off : Text} (h : Switch on off) :
    ∃ c rest, c ≠ '\\' ∧ off = esc :: c :: rest := by
  cases h with
  | link => exact ⟨']', _, by decide, rfl⟩
  | _ => exact ⟨'[', _, by decide, rfl⟩

/-- Between switches every text is cut as it is alone, whatever it leaves unfinished. -/
theorem Switch.pieces_between {on off : Text} (h : Switch on off) (t : Text) :
    pieces (on ++ t ++ off) = .sequence on :: (pieces t ++ [.sequence off]) := by
  have front : pieces (on ++ (t ++ off)) = .sequence on :: pieces (t ++ off) := h.whole.1 (t ++ off)
  have back : pieces off = [.sequence off] := h.whole.2.pieces_source
  obtain ⟨c, rest, other, rfl⟩ := h.off_eq
  rw [List.append_assoc, front, pieces_append_esc other, back]

theorem Switch.strip_between {on off : Text} (h : Switch on off) (t : Text) :
    strip (on ++ t ++ off) = strip t := by
  have shown : visibleOf (pieces t ++ [.sequence off]) = visibleOf (pieces t) := by simp
  rw [strip, h.pieces_between]
  exact shown

theorem Switch.sequences_between {on off : Text} (h : Switch on off) (t : Text) :
    sequences (on ++ t ++ off) = on :: (sequences t ++ [off]) := by
  have listed : sequencesOf (.sequence on :: (pieces t ++ [.sequence off])) =
      on :: (sequencesOf (pieces t) ++ [off]) := by simp
  rw [sequences, h.pieces_between]
  exact listed

theorem Switch.whole_between {on off : Text} (h : Switch on off) {t : Text} (inner : Whole t) :
    Whole (on ++ t ++ off) := by
  have front : Whole on := h.whole.1.source
  have back : Whole off := h.whole.2.source
  exact (front.append inner).append back

/-- Painting puts a text between switches, one attribute after the other. -/
theorem Switch.around_paint {P : Text → Prop}
    (between : ∀ {on off t : Text}, Switch on off → P t → P (on ++ t ++ off)) {content : Text}
    (h : P content) (a : Attributes) : P (paint a content) := by
  have decorated (ds : List Decoration) : P (ds.foldr decorate content) := by
    induction ds with
    | nil => exact h
    | cons d ds ih => exact between (.decoration d) ih
  have filled : P (paint { background := a.background }
      (a.decorations.toList.foldr decorate content)) := by
    rcases a.background with _ | name
    · rw [paint_plain]
      exact decorated _
    · rw [paint_background]
      split
      · next c _ => exact between (.background c) (decorated _)
      · exact decorated _
  rw [paint_eq_layers]
  rcases a.color with _ | name
  · rwa [paint_plain]
  · rw [paint_color]
    split
    · next c _ => exact between (.foreground c) filled
    · exact filled

theorem whole_paint {content : Text} (h : Whole content) (a : Attributes) :
    Whole (paint a content) :=
  Switch.around_paint (fun switch inner => switch.whole_between inner) h a

namespace Drawn

variable {t v : Text}

theorem whole (h : Drawn t v) : Escape.Whole t := by
  induction h with
  | plain h => exact whole_of_notMem h.1
  | append _ _ first second => exact first.append second
  | between switch _ inner => exact switch.whole_between inner

theorem strip_eq (h : Drawn t v) : strip t = v := by
  induction h with
  | plain h => exact strip_of_notMem h.1
  | append first _ ihFirst ihSecond => rw [strip_append first.whole, ihFirst, ihSecond]
  | between switch _ ih => rw [switch.strip_between, ih]

theorem plain_visible (h : Drawn t v) : Plain v := by
  induction h with
  | plain h => exact h
  | append _ _ first second => exact first.append second
  | between _ _ inner => exact inner

theorem visibleWidth_eq (h : Drawn t v) : visibleWidth t = visibleWidth v := by
  rw [visibleWidth, visibleWidth, h.strip_eq, strip_of_notMem h.plain_visible.1]

theorem visibleWidth_eq_length (h : Drawn t v) : visibleWidth t = v.length := by
  rw [visibleWidth, h.strip_eq]

/-! ### Drawing more -/

theorem inside (h : Drawn t v) {front back : Text} (before : Plain front) (behind : Plain back) :
    Drawn (front ++ t ++ back) (front ++ v ++ back) :=
  ((Drawn.plain before).append h).append (.plain behind)

theorem pad (h : Drawn t v) (left right : ℕ) :
    Drawn (Layout.pad t left right) (Layout.pad v left right) :=
  h.inside (plain_spaces left) (plain_spaces right)

theorem decorate (h : Drawn t v) (d : Decoration) : Drawn (Style.decorate d t) v :=
  .between (.decoration d) h

theorem hyperlink (h : Drawn t v) {address : Text} (plain : Plain address) :
    Drawn (Escape.hyperlink address t) v :=
  .between (.link plain) h

theorem paint (h : Drawn t v) (a : Attributes) : Drawn (Style.paint a t) v :=
  Switch.around_paint (P := fun painted => Drawn painted v) .between h a

/-! ### Truncation -/

theorem keepPieces (h : Drawn t v) (room : ℕ) {mark : Text} (plain : Plain mark) :
    Drawn (Escape.keepPieces room mark (pieces t)) (Escape.keepPieces room mark (pieces v)) := by
  induction h generalizing room mark with
  | plain h =>
    rw [pieces_of_notMem h.1]
    exact .plain ((plain.append h).mono (keepPieces_subset room mark _))
  | @append s t v w first second ihFirst ihSecond =>
    -- What a part shows says how much room it leaves, and it shows the same in both texts.
    have shown : (pieces s).filterMap Piece.visible? = v := first.strip_eq
    have plainShown : (pieces v).filterMap Piece.visible? = v :=
      strip_of_notMem first.plain_visible.1
    have behind : Plain (if room < v.length then [] else mark) := by
      split
      · exact plain_nil
      · exact plain
    rw [pieces_append first.whole, pieces_append (whole_of_notMem first.plain_visible.1),
      keepPieces_append, keepPieces_append, shown, plainShown]
    exact (ihFirst room plain).append (ihSecond (room - v.length) behind)
  | between switch inner ih =>
    rw [switch.pieces_between, Escape.keepPieces, keepPieces_append,
      ← List.append_assoc]
    simpa [Escape.keepPieces] using Drawn.between switch (ih room plain)

theorem truncate (h : Drawn t v) (limit : ℕ) :
    Drawn (Escape.truncate limit t) (Escape.truncate limit v) := by
  have mark : Plain (if limit = 0 then [] else [ellipsis]) := by
    split
    · exact plain_nil
    · simp [Plain, ellipsis, esc, bel]
  rw [Escape.truncate, Escape.truncate, h.visibleWidth_eq]
  split
  · exact h
  · exact h.keepPieces (limit - 1) mark

end Drawn

end StyledText.Style

theorem StyledText.Layout.length_pad (content : Text) (left right : ℕ) :
    (pad content left right).length = left + content.length + right := by
  simp [pad, Text.spaces, Nat.add_assoc]
