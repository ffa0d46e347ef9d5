import Mathlib.Logic.Function.Iterate
import StyledText.Markup.Span
import StyledText.Markup.Strip
import StyledText.Proofs.Markup.Brackets

/-!
# Stripping as a fixed point

One pass deletes the spans of all tags and keeps every other character. Stripping repeats the
pass until no tag is left; every pass that finds a tag shortens the text.
-/
namespace StyledText.Markup

/-- The characters of a text that lie in none of the spans. The text starts at an offset. -/
def outsideSpans (spans : List Span) (offset : ℕ) : Text → Text
  | [] => []
  | c :: cs =>
    if ∃ s ∈ spans, s.start ≤ offset ∧ offset < s.stop then
      outsideSpans spans (offset + c.utf8Size) cs
    else c :: outsideSpans spans (offset + c.utf8Size) cs

def tagSpans (spans : List Span) : List Span := spans.filter (·.token.isTag)

/-- The input without the characters in the spans of its tags. -/
def deleteTagSpans (input : Text) : Text := outsideSpans (tagSpans (spans input)) 0 input

theorem outsideSpans_append (spans : List Span) (offset : ℕ) (first second : Text) :
    outsideSpans spans offset (first ++ second) =
      outsideSpans spans offset first ++
        outsideSpans spans (offset + Text.utf8Size first) second := by
  induction first generalizing offset with
  | nil => simp [outsideSpans]
  | cons c cs ih =>
    rw [List.cons_append, outsideSpans, outsideSpans, Text.utf8Size_cons, ← Nat.add_assoc]
    split <;> simp [ih]

theorem outsideSpans_of_disjoint {spans : List Span} {offset : ℕ} {text : Text}
    (h : ∀ s ∈ spans, s.stop ≤ offset ∨ offset + Text.utf8Size text ≤ s.start) :
    outsideSpans spans offset text = text := by
  induction text generalizing offset with
  | nil => rfl
  | cons c cs ih =>
    have size := Text.utf8Size_cons c cs
    have width := c.utf8Size_pos
    rw [outsideSpans, if_neg, ih]
    · intro s hs
      have := h s hs
      omega
    · rintro ⟨s, hs, inside⟩
      have := h s hs
      omega

theorem outsideSpans_of_covered {spans : List Span} {offset : ℕ} {text : Text} {s : Span}
    (mem : s ∈ spans) (start : s.start ≤ offset)
    (stop : offset + Text.utf8Size text ≤ s.stop) : outsideSpans spans offset text = [] := by
  induction text generalizing offset with
  | nil => rfl
  | cons c cs ih =>
    have size := Text.utf8Size_cons c cs
    have width := c.utf8Size_pos
    rw [outsideSpans, if_pos, ih]
    · omega
    · omega
    · exact ⟨s, mem, start, by omega⟩

theorem le_start_of_mem_spansFrom {offset : ℕ} {tokens : List Token} {s : Span}
    (h : s ∈ spansFrom offset tokens) : offset ≤ s.start := by
  induction tokens generalizing offset with
  | nil => simp [spansFrom] at h
  | cons token tokens ih =>
    rcases List.mem_cons.1 h with rfl | h
    · exact Nat.le_refl _
    · exact Nat.le_trans (Nat.le_add_right _ _) (ih h)

theorem tagSpans_cons_of_isTag {token : Token} (tag : token.isTag = true) (offset : ℕ)
    (tokens : List Token) :
    tagSpans (spansFrom offset (token :: tokens)) =
      ⟨token, offset, offset + Text.utf8Size token.source⟩ ::
        tagSpans (spansFrom (offset + Text.utf8Size token.source) tokens) :=
  List.filter_cons_of_pos tag

theorem tagSpans_cons_of_not_isTag {token : Token} (tag : token.isTag = false) (offset : ℕ)
    (tokens : List Token) :
    tagSpans (spansFrom offset (token :: tokens)) =
      tagSpans (spansFrom (offset + Text.utf8Size token.source) tokens) :=
  List.filter_cons_of_neg (by simp [tag])

/-- Tokens side by side lose exactly the tags, whatever spans lie in front of them. -/
theorem outsideSpans_tagSpans (passed : List Span) (offset : ℕ) (tokens : List Token)
    (behind : ∀ s ∈ passed, s.stop ≤ offset) :
    outsideSpans (passed ++ tagSpans (spansFrom offset tokens)) offset
        (tokens.flatMap Token.source) =
      (tokens.filter (!·.isTag)).flatMap Token.source := by
  induction tokens generalizing passed offset with
  | nil => simp [outsideSpans]
  | cons token tokens ih =>
    have further : offset ≤ offset + Text.utf8Size token.source := Nat.le_add_right _ _
    rw [List.flatMap_cons, outsideSpans_append]
    cases tag : token.isTag with
    | true =>
      rw [tagSpans_cons_of_isTag tag, List.filter_cons_of_neg (by simp [tag]),
        outsideSpans_of_covered (List.mem_append_right _ List.mem_cons_self) (Nat.le_refl _)
          (Nat.le_refl _), List.nil_append, List.append_cons]
      apply ih
      intro s hs
      rcases List.mem_append.1 hs with hs | hs
      · exact Nat.le_trans (behind s hs) further
      · exact Nat.le_of_eq (congrArg Span.stop (List.mem_singleton.1 hs))
    | false =>
      rw [tagSpans_cons_of_not_isTag tag, List.filter_cons_of_pos (by simp [tag]),
        outsideSpans_of_disjoint, ih passed _ fun s hs => Nat.le_trans (behind s hs) further,
        List.flatMap_cons]
      intro s hs
      rcases List.mem_append.1 hs with hs | hs
      · exact .inl (behind s hs)
      · exact .inr (le_start_of_mem_spansFrom (List.mem_filter.1 hs).1)

theorem removeTags_eq_deleteTagSpans : removeTags = deleteTagSpans := by
  funext input
  have all := outsideSpans_tagSpans [] 0 (tokenize input) (by simp)
  rw [flatMap_source_tokenize] at all
  exact all.symm

theorem contains_of_hasTag {input : Text} (h : hasTag input) : input.contains '[' := by
  obtain ⟨token, mem, isTag⟩ := List.any_eq_true.1 h
  cases token with
  | literal text => simp [Token.isTag] at isTag
  | escaped bracket => simp [Token.isTag] at isTag
  | tag tag =>
    obtain ⟨cs, rest, read⟩ := exists_readToken_of_mem mem
    obtain ⟨body, -, -, -, shape⟩ := readToken_tag read
    have bracket : '[' ∈ (Token.tag tag).source := by
      simp [Token.source, Tag.ofBody?_markup shape]
    have covered : '[' ∈ (tokenize input).flatMap Token.source :=
      List.mem_flatMap.2 ⟨_, mem, bracket⟩
    rw [flatMap_source_tokenize] at covered
    simpa using covered

theorem strip_of_not_hasTag {input : Text} (h : hasTag input = false) : strip input = input := by
  rw [strip.eq_def, h, Bool.and_false]
  rfl

theorem hasTag_strip (input : Text) : hasTag (strip input) = false := by
  fun_induction strip input with
  | case1 input h ih => exact ih
  | case2 input h =>
    cases tagged : hasTag input with
    | false => rfl
    | true => rw [contains_of_hasTag tagged, tagged] at h; exact absurd rfl h

theorem strip_eq_self_iff {input : Text} : strip input = input ↔ hasTag input = false := by
  refine ⟨fun same => ?_, strip_of_not_hasTag⟩
  rw [← same]
  exact hasTag_strip input

/-- The number of passes is bounded by the length, and all but the result hold a tag. -/
theorem exists_iterate_eq_strip (input : Text) :
    ∃ passes ≤ input.length, strip input = removeTags^[passes] input ∧
      ∀ k < passes, hasTag (removeTags^[k] input) := by
  fun_induction strip input with
  | case1 input h ih =>
    have tagged := (Bool.and_eq_true_iff.1 h).2
    have shorter := length_removeTags_lt tagged
    obtain ⟨passes, bound, result, before⟩ := ih
    refine ⟨passes + 1, by omega, by rw [result, Function.iterate_succ_apply], ?_⟩
    intro k hk
    cases k with
    | zero => exact tagged
    | succ k =>
      rw [Function.iterate_succ_apply]
      exact before k (by omega)
  | case2 input h => exact ⟨0, Nat.zero_le _, rfl, by simp⟩

/-- Stripping deletes the spans of all tags as often as there are any, at most once for every
character. The result holds no tag, so stripping it changes nothing. -/
theorem strip_isFixedPoint (input : Text) :
    (∃ passes ≤ input.length, strip input = deleteTagSpans^[passes] input ∧
      ∀ k < passes, hasTag (deleteTagSpans^[k] input)) ∧
      hasTag (strip input) = false ∧ (strip input = input ↔ hasTag input = false) ∧
      strip (strip input) = strip input := by
  rw [← removeTags_eq_deleteTagSpans]
  exact ⟨exists_iterate_eq_strip input, hasTag_strip input, strip_eq_self_iff,
    strip_of_not_hasTag (hasTag_strip input)⟩

end StyledText.Markup
