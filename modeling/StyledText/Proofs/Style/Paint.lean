import StyledText.Proofs.Escape.Whole
import StyledText.Style.Paint

/-!
# Painting in layers

Painting a style is painting its foreground around its background around its decorations, each
of them one sequence in front and one behind. All these sequences are whole.
-/
namespace StyledText.Style

theorem toList_empty : Decorations.empty.toList = [] := by decide

theorem mem_toList {s : Decorations} {d : Decoration} : d ∈ s.toList ↔ s.contains d = true := by
  rw [Decorations.toList, List.mem_filter, and_iff_right d.mem_all]

theorem color?_none : color? none = none := rfl

theorem codes_append (first second : List ℕ) :
    codes (first ++ second) = codes first ++ codes second := by
  simp [codes]

theorem paint_plain (content : Text) : paint {} content = content := by
  simp [paint, styleOn, styleOff, color?_none, toList_empty, codes]

theorem paint_color (name content : Text) :
    paint { color := some name } content =
      match color? (some name) with
      | some c => Escape.sgr c.foreground ++ content ++ Escape.foregroundOff
      | none => content := by
  cases color : color? (some name) <;>
    simp [paint, styleOn, styleOff, color, color?_none, toList_empty, codes]

theorem paint_background (name content : Text) :
    paint { background := some name } content =
      match color? (some name) with
      | some c => Escape.sgr c.background ++ content ++ Escape.backgroundOff
      | none => content := by
  cases color : color? (some name) <;>
    simp [paint, styleOn, styleOff, color, color?_none, toList_empty, codes]

theorem codes_around (ds : List Decoration) (content : Text) :
    codes (ds.map Decoration.onCode) ++ content ++ codes (ds.reverse.map Decoration.offCode) =
      ds.foldr decorate content := by
  induction ds with
  | nil => simp [codes]
  | cons d ds ih =>
    rw [List.foldr_cons, ← ih, List.reverse_cons, List.map_append, codes_append]
    simp [codes, decorate]

theorem paint_eq_layers (a : Attributes) (content : Text) :
    paint a content =
      paint { color := a.color }
        (paint { background := a.background } (a.decorations.toList.foldr decorate content)) := by
  simp [← codes_around, paint, styleOn, styleOff, color?_none, toList_empty, codes]

/-! ### Parameters of sequences -/

theorem isParameter_of_isDigit {c : Char} (h : c.isDigit) : Escape.isParameter c := by
  simp only [Char.isDigit, Bool.and_eq_true, decide_eq_true_eq, ge_iff_le] at h
  simp only [Escape.isParameter, Bool.and_eq_true, decide_eq_true_eq]
  exact ⟨h.1, Char.le_trans h.2 (by decide)⟩

theorem isDigit_of_mem_ofNat {n : ℕ} {c : Char} (h : c ∈ Text.ofNat n) : c.isDigit :=
  Nat.isDigit_of_mem_toDigits (by decide) (by decide) h

theorem isParameter_ofNat (n : ℕ) : ∀ c ∈ Text.ofNat n, Escape.isParameter c :=
  fun _ h => isParameter_of_isDigit (isDigit_of_mem_ofNat h)

theorem isParameter_append {s t : Text} (hs : ∀ c ∈ s, Escape.isParameter c)
    (ht : ∀ c ∈ t, Escape.isParameter c) : ∀ c ∈ s ++ t, Escape.isParameter c := by
  intro c mem
  exact (List.mem_append.1 mem).elim (hs c) (ht c)

theorem isParameter_parameters (base bright extended : ℕ) (c : Color) :
    ∀ d ∈ c.parameters base bright extended, Escape.isParameter d := by
  have palette : ∀ d ∈ ";5;".toList, Escape.isParameter d := by simp [Escape.isParameter]
  have rgb : ∀ d ∈ ";2;".toList, Escape.isParameter d := by simp [Escape.isParameter]
  have separator : ∀ d ∈ ";".toList, Escape.isParameter d := by simp [Escape.isParameter]
  cases c with
  | named c => exact isParameter_ofNat _
  | bright c => exact isParameter_ofNat _
  | palette n =>
    exact isParameter_append (isParameter_append (isParameter_ofNat _) palette)
      (isParameter_ofNat _)
  | rgb r g b =>
    have red := isParameter_append (isParameter_append (isParameter_ofNat extended) rgb)
      (isParameter_ofNat r.toNat)
    have green := isParameter_append (isParameter_append red separator)
      (isParameter_ofNat g.toNat)
    exact isParameter_append (isParameter_append green separator) (isParameter_ofNat b.toNat)

theorem whole_sgr_ofNat (n : ℕ) : (Escape.Piece.sequence (Escape.sgr (Text.ofNat n))).Whole :=
  Escape.whole_sgr (isParameter_ofNat n)

theorem whole_foreground (c : Color) : (Escape.Piece.sequence (Escape.sgr c.foreground)).Whole :=
  Escape.whole_sgr (isParameter_parameters 30 90 38 c)

theorem whole_background (c : Color) : (Escape.Piece.sequence (Escape.sgr c.background)).Whole :=
  Escape.whole_sgr (isParameter_parameters 40 100 48 c)

theorem whole_foregroundOff : (Escape.Piece.sequence Escape.foregroundOff).Whole :=
  whole_sgr_ofNat 39

theorem whole_backgroundOff : (Escape.Piece.sequence Escape.backgroundOff).Whole :=
  whole_sgr_ofNat 49

end StyledText.Style
