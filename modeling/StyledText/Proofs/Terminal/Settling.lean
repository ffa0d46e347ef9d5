import StyledText.Proofs.Terminal.State

/-!
# Drawn texts leave nothing on

What a drawn text turns on it turns off again. It may turn off what was on before, as an inner
color does with an outer one, so behind a drawn text no more is on than in front of it.
-/
namespace StyledText.Terminal

open Style Escape

/-- All that is on in the first state is on in the second, and is the same there. -/
structure AtMost (s t : State) : Prop where
  foreground : ∀ codes ∈ s.foreground, codes ∈ t.foreground
  background : ∀ codes ∈ s.background, codes ∈ t.background
  decorations : ∀ d, s.decorations.contains d → t.decorations.contains d
  link : ∀ address ∈ s.link, address ∈ t.link

theorem AtMost.refl (s : State) : AtMost s s :=
  ⟨fun _ => id, fun _ => id, fun _ => id, fun _ => id⟩

theorem AtMost.trans {s t u : State} (st : AtMost s t) (tu : AtMost t u) : AtMost s u where
  foreground codes on := tu.foreground codes (st.foreground codes on)
  background codes on := tu.background codes (st.background codes on)
  decorations d on := tu.decorations d (st.decorations d on)
  link address on := tu.link address (st.link address on)

theorem AtMost.eq_default {s : State} (h : AtMost s {}) : s = {} := by
  obtain ⟨foreground, background, ⟨contains⟩, link⟩ := s
  have noForeground : foreground = none := Option.eq_none_iff_forall_not_mem.2 fun codes on =>
    nomatch h.foreground codes on
  have noBackground : background = none := Option.eq_none_iff_forall_not_mem.2 fun codes on =>
    nomatch h.background codes on
  have noLink : link = none := Option.eq_none_iff_forall_not_mem.2 fun address on =>
    nomatch h.link address on
  have noDecoration : contains = fun _ => false := by
    funext d
    by_contra on
    exact nomatch h.decorations d (by simpa using on)
  rw [noForeground, noBackground, noLink, noDecoration]
  rfl

/-! ### What a switch does -/

theorem step_ofNat (s : State) (code : ℕ) :
    s.step (sgr (Text.ofNat code)) = s.select [code] := by
  simpa [Text.join] using s.step_sgr (List.cons_ne_nil code [])

theorem step_onCode (s : State) (d : Decoration) :
    s.step (sgr (Text.ofNat d.onCode)) = s.turnOn d := by
  rw [step_ofNat]
  cases d <;> rfl

/-- All decorations with the code are turned off. -/
theorem step_offCode (s : State) (d : Decoration) :
    s.step (sgr (Text.ofNat d.offCode)) =
      s.turnOff (Decoration.all.filter fun e => d.offCode = e.offCode) := by
  rw [step_ofNat]
  cases d <;> rfl

/-- The codes that select a color. -/
def colorCodes (base bright extended : ℕ) : Color → List ℕ
  | .named c => [base + c.index]
  | .bright c => [bright + c.index]
  | .palette n => [extended, 5, n.toNat]
  | .rgb r g b => [extended, 2, r.toNat, g.toNat, b.toNat]

theorem parameters_eq_join (base bright extended : ℕ) (c : Color) :
    c.parameters base bright extended =
      Text.join [';'] ((colorCodes base bright extended c).map Text.ofNat) := by
  have two : Text.ofNat 2 = ['2'] := by decide
  have five : Text.ofNat 5 = ['5'] := by decide
  cases c <;> simp [Color.parameters, colorCodes, Text.join, two, five]

theorem colorCodes_ne_nil (base bright extended : ℕ) (c : Color) :
    colorCodes base bright extended c ≠ [] := by
  cases c <;> simp [colorCodes]

theorem step_foreground (s : State) (c : Color) :
    s.step (sgr c.foreground) = { s with foreground := some (colorCodes 30 90 38 c) } := by
  rw [Color.foreground, parameters_eq_join, s.step_sgr (colorCodes_ne_nil 30 90 38 c)]
  rcases c with c | c | n | ⟨r, g, b⟩
  · cases c <;> rfl
  · cases c <;> rfl
  · rfl
  · rfl

theorem step_background (s : State) (c : Color) :
    s.step (sgr c.background) = { s with background := some (colorCodes 40 100 48 c) } := by
  rw [Color.background, parameters_eq_join, s.step_sgr (colorCodes_ne_nil 40 100 48 c)]
  rcases c with c | c | n | ⟨r, g, b⟩
  · cases c <;> rfl
  · cases c <;> rfl
  · rfl
  · rfl

theorem step_foregroundOff (s : State) : s.step foregroundOff = { s with foreground := none } :=
  step_ofNat s 39

theorem step_backgroundOff (s : State) : s.step backgroundOff = { s with background := none } :=
  step_ofNat s 49

/-- Off brings back what was on in front of the switch, or less. -/
theorem atMost_step_off {on off : Text} (h : Switch on off) {s t : State}
    (inner : AtMost t (s.step on)) : AtMost (t.step off) s := by
  cases h with
  | decoration d =>
    rw [step_onCode] at inner
    rw [step_offCode]
    refine ⟨inner.foreground, inner.background, fun e on => ?_, inner.link⟩
    simp only [State.turnOff, Bool.and_eq_true, Bool.not_eq_true'] at on
    have different : e ≠ d := by
      rintro rfl
      simp [Decoration.mem_all] at on
    have before := inner.decorations e on.1
    simpa [State.turnOn, Decorations.insert, different] using before
  | foreground c =>
    rw [step_foreground] at inner
    rw [step_foregroundOff]
    exact ⟨fun _ on => (nomatch on), inner.background, inner.decorations, inner.link⟩
  | background c =>
    rw [step_background] at inner
    rw [step_backgroundOff]
    exact ⟨inner.foreground, fun _ on => (nomatch on), inner.decorations, inner.link⟩
  | link =>
    rw [State.step_linkCommand] at inner
    rw [State.step_linkCommand]
    exact ⟨inner.foreground, inner.background, inner.decorations, fun _ on => nomatch on⟩

theorem not_isReset_of_codes {sequence : Text} {codes : List ℕ} (h : codes? sequence = some codes)
    (other : codes ≠ [0]) : ¬ IsReset sequence := by
  rw [IsReset, h]
  simpa using other

theorem not_isReset_ofNat (code : ℕ) (h : code ≠ 0) : ¬ IsReset (sgr (Text.ofNat code)) := by
  have read := codes?_sgr (List.cons_ne_nil code [])
  exact not_isReset_of_codes read (by simpa using h)

theorem not_isReset_parameters {base bright extended : ℕ} (hbase : base ≠ 0) (hbright : bright ≠ 0)
    (c : Color) : ¬ IsReset (sgr (c.parameters base bright extended)) := by
  rw [parameters_eq_join]
  refine not_isReset_of_codes (codes?_sgr (colorCodes_ne_nil base bright extended c)) ?_
  cases c <;> simp [colorCodes, hbase, hbright]

theorem not_isReset_switch {on off : Text} (h : Switch on off) : ¬ IsReset on ∧ ¬ IsReset off := by
  cases h with
  | decoration d =>
    have on : d.onCode ≠ 0 := by cases d <;> decide
    have off : d.offCode ≠ 0 := by cases d <;> decide
    exact ⟨not_isReset_ofNat d.onCode on, not_isReset_ofNat d.offCode off⟩
  | foreground c =>
    exact ⟨not_isReset_parameters (by decide) (by decide) c, not_isReset_ofNat 39 (by decide)⟩
  | background c =>
    exact ⟨not_isReset_parameters (by decide) (by decide) c, not_isReset_ofNat 49 (by decide)⟩
  | link => exact ⟨by simp [IsReset, codes?_linkCommand], by simp [IsReset, codes?_linkCommand]⟩

/-! ### What a drawn text does -/

theorem atMost_run {t v : Text} (h : Drawn t v) (s : State) : AtMost (run s t) s := by
  induction h generalizing s with
  | plain h =>
    rw [run_of_notMem s h.1]
    exact .refl s
  | @append t u v w first second ihFirst ihSecond =>
    rw [run_append s first.whole]
    exact (ihSecond (run s t)).trans (ihFirst s)
  | @between on off t v switch inner ih =>
    rw [run_between s switch]
    exact atMost_step_off switch (ih (s.step on))

theorem not_isReset_of_mem {t v : Text} (h : Drawn t v) : ∀ q ∈ sequences t, ¬ IsReset q := by
  induction h with
  | plain h => simp [sequences_of_notMem h.1]
  | append first second ihFirst ihSecond =>
    rw [sequences_append first.whole]
    intro q mem
    exact (List.mem_append.1 mem).elim (ihFirst q) (ihSecond q)
  | @between on off t v switch inner ih =>
    have ends := not_isReset_switch switch
    rw [switch.sequences_between]
    intro q mem
    simp only [List.mem_cons, List.mem_append, List.not_mem_nil, or_false] at mem
    rcases mem with rfl | mem | rfl
    · exact ends.1
    · exact ih q mem
    · exact ends.2

/-- Shown on a terminal with nothing on, the text leaves nothing on and resets nothing. What is
shown holds no piece of a sequence. -/
structure Settles (t : Text) : Prop where
  run : run {} t = {}
  noReset : ∀ q ∈ sequences t, ¬ IsReset q
  shown : Plain (strip t)

theorem settles_of_drawn {t v : Text} (h : Drawn t v) : Settles t where
  run := (atMost_run h {}).eq_default
  noReset := not_isReset_of_mem h
  shown := by
    rw [h.strip_eq]
    exact h.plain_visible

end StyledText.Terminal
