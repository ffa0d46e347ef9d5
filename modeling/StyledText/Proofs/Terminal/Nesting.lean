import StyledText.Proofs.Terminal.Settling

/-!
# Styles inside styles

Every character is shown in the state that the sequences in front of it leave. Painting turns on
what a style sets and turns the same off again, whatever was on before it. So the text behind an
inner style is shown like the text in front of it exactly where the codes that turn the inner style
off concern nothing of the outer one.
-/
namespace StyledText.Terminal

open Style Escape

/-! ### Characters and their states -/

/-- The characters among pieces, each in the state that it is shown in. -/
def cells (s : State) : List Piece → List (Char × State)
  | [] => []
  | .visible c :: rest => (c, s) :: cells s rest
  | .sequence q :: rest => cells (s.step q) rest

def shown (s : State) (t : Text) : List (Char × State) := cells s (pieces t)

/-- All characters of a text in one state. -/
def uniform (s : State) (t : Text) : List (Char × State) := t.map fun c => (c, s)

theorem cells_append (s : State) (ps qs : List Piece) :
    cells s (ps ++ qs) = cells s ps ++ cells ((sequencesOf ps).foldl State.step s) qs := by
  induction ps generalizing s with
  | nil => rfl
  | cons p ps ih =>
    cases p with
    | visible c => rw [List.cons_append, cells, cells, ih, List.cons_append, sequencesOf_visible]
    | sequence q => rw [List.cons_append, cells, cells, ih, sequencesOf_sequence, List.foldl_cons]

theorem cells_map_visible (s : State) (t : Text) :
    cells s (t.map Piece.visible) = uniform s t := by
  induction t with
  | nil => rfl
  | cons c cs ih => rw [List.map_cons, cells, ih, uniform, uniform, List.map_cons]

theorem shown_append (s : State) {t : Text} (h : Whole t) (u : Text) :
    shown s (t ++ u) = shown s t ++ shown (run s t) u := by
  rw [shown, pieces_append h, cells_append]
  rfl

theorem shown_of_notMem (s : State) {t : Text} (h : esc ∉ t) : shown s t = uniform s t := by
  rw [shown, pieces_of_notMem h, cells_map_visible]

theorem shown_between (s : State) {on off : Text} (h : Switch on off) (t : Text) :
    shown s (on ++ t ++ off) = shown (s.step on) t := by
  rw [shown, h.pieces_between, cells, cells_append, cells, cells, List.append_nil]
  rfl

/-! ### Wrapping -/

/-- Wrapped, a text is shown in the state that `on` makes, and `off` is done to the state behind
it. -/
structure Wraps (on off : State → State) (wrap : Text → Text) : Prop where
  shown : ∀ s t, shown s (wrap t) = Terminal.shown (on s) t
  run : ∀ s t, run s (wrap t) = off (Terminal.run (on s) t)

namespace Wraps

theorem id : Wraps id id id := ⟨fun _ _ => rfl, fun _ _ => rfl⟩

theorem congr {on off on' off' : State → State} {wrap : Text → Text} (h : Wraps on off wrap)
    (sameOn : ∀ s, on' s = on s) (sameOff : ∀ s, off' s = off s) : Wraps on' off' wrap := by
  rw [funext sameOn, funext sameOff]
  exact h

theorem comp {on₁ off₁ on₂ off₂ : State → State} {outer inner : Text → Text}
    (first : Wraps on₁ off₁ outer) (second : Wraps on₂ off₂ inner) :
    Wraps (on₂ ∘ on₁) (off₁ ∘ off₂) (outer ∘ inner) where
  shown s t := by
    rw [Function.comp_apply, first.shown, second.shown]
    rfl
  run s t := by
    rw [Function.comp_apply, first.run, second.run]
    rfl

end Wraps

theorem wraps_switch {on off : Text} (h : Switch on off) :
    Wraps (·.step on) (·.step off) fun t => on ++ t ++ off :=
  ⟨fun s t => shown_between s h t, fun s t => run_between s h t⟩

namespace State

/-- The style is turned on. A color that does not parse leaves the one that was on. -/
def styled (s : State) (a : Attributes) : State where
  foreground := (color? a.color).map (colorCodes 30 90 38) <|> s.foreground
  background := (color? a.background).map (colorCodes 40 100 48) <|> s.background
  decorations := s.decorations.union a.decorations
  link := s.link

/-- The style is turned off, and with it all that its codes turn off. -/
def closed (s : State) (a : Attributes) : State where
  foreground := if (color? a.color).isSome then none else s.foreground
  background := if (color? a.background).isSome then none else s.background
  decorations :=
    ⟨fun d => s.decorations.contains d && !a.decorations.toList.any fun e => e.offCode = d.offCode⟩
  link := s.link

end State

/-- A color that does not parse leaves the text as it is. -/
theorem wraps_color {on : Color → Text} {off : Text} (switch : ∀ c, Switch (on c) off)
    {parsed : Option Color} {wrap : Text → Text}
    (layer : ∀ t, wrap t = match parsed with
      | some c => on c ++ t ++ off
      | none => t) :
    Wraps (fun s => (parsed.map fun c => s.step (on c)).getD s)
      (fun s => if parsed.isSome then s.step off else s) wrap := by
  rw [funext layer]
  cases parsed with
  | none => exact .id
  | some c => exact wraps_switch (switch c)

theorem wraps_foreground (name : Option Text) :
    Wraps
      (fun s => { s with
        foreground := (color? name).map (colorCodes 30 90 38) <|> s.foreground })
      (fun s => { s with foreground := if (color? name).isSome then none else s.foreground })
      (paint { color := name }) := by
  have layer (t : Text) : paint { color := name } t = match color? name with
      | some c => sgr c.foreground ++ t ++ foregroundOff
      | none => t := by
    rcases name with _ | name
    · exact paint_plain t
    · exact paint_color name t
  refine (wraps_color .foreground layer).congr (fun s => ?_) fun s => ?_
  · cases color? name <;> simp [step_foreground]
  · cases color? name <;> simp [step_foregroundOff]

theorem wraps_background (name : Option Text) :
    Wraps
      (fun s => { s with
        background := (color? name).map (colorCodes 40 100 48) <|> s.background })
      (fun s => { s with background := if (color? name).isSome then none else s.background })
      (paint { background := name }) := by
  have layer (t : Text) : paint { background := name } t = match color? name with
      | some c => sgr c.background ++ t ++ backgroundOff
      | none => t := by
    rcases name with _ | name
    · exact paint_plain t
    · exact paint_background name t
  refine (wraps_color .background layer).congr (fun s => ?_) fun s => ?_
  · cases color? name <;> simp [step_background]
  · cases color? name <;> simp [step_backgroundOff]

theorem wraps_decorations (ds : List Decoration) :
    Wraps
      (fun s => { s with decorations := ⟨fun d => s.decorations.contains d || ds.contains d⟩ })
      (fun s => { s with decorations :=
        ⟨fun d => s.decorations.contains d && !ds.any fun e => e.offCode = d.offCode⟩ })
      (ds.foldr decorate) := by
  -- The first decoration is the outermost: it is turned on first and off last.
  induction ds with
  | nil =>
    simp only [List.contains_nil, Bool.or_false, List.any_nil, Bool.not_false, Bool.and_true]
    exact .id
  | cons d ds ih =>
    refine ((wraps_switch (.decoration d)).comp ih).congr (fun s => ?_) fun s => ?_
    · rw [Function.comp_apply, step_onCode]
      simp only [State.turnOn, Decorations.insert, State.mk.injEq, Decorations.mk.injEq, true_and,
        and_true]
      funext e
      simp [Bool.or_left_comm, Bool.or_assoc]
    · rw [Function.comp_apply, step_offCode]
      simp only [State.turnOff, State.mk.injEq, Decorations.mk.injEq, true_and, and_true]
      funext e
      simp [Decoration.mem_all, Bool.and_comm, Bool.and_left_comm]

theorem wraps_paint (a : Attributes) : Wraps (·.styled a) (·.closed a) (paint a) := by
  have layers := (wraps_foreground a.color).comp
    ((wraps_background a.background).comp (wraps_decorations a.decorations.toList))
  have listed (d : Decoration) :
      a.decorations.toList.contains d = a.decorations.contains d := by
    rw [Bool.eq_iff_iff, List.contains_iff_mem, mem_toList]
  rw [funext (paint_eq_layers a)]
  refine layers.congr (fun s => ?_) fun s => ?_
  · simp only [Function.comp_apply, listed]
    rfl
  · rfl

/-! ### Nesting -/

/-- Both styles have a color of one kind, or decorations that one code turns off. -/
inductive Overlap (a b : Attributes) : Prop
  | foreground (first : (color? a.color).isSome) (second : (color? b.color).isSome)
  | background (first : (color? a.background).isSome) (second : (color? b.background).isSome)
  | decoration {d e : Decoration} (first : a.decorations.contains d)
      (second : b.decorations.contains e) (code : d.offCode = e.offCode)

theorem color_left_eq_iff {codes : Color → List ℕ} {new : Option Color} {on : Option (List ℕ)} :
    (if new.isSome then none else new.map codes <|> on) = on ↔ (new.isSome → on = none) := by
  rcases new with _ | c
  · simp
  · simp [eq_comm]

theorem decorations_left_eq_iff {s new : Decorations} :
    (⟨fun d => (s.union new).contains d && !new.toList.any fun e => e.offCode = d.offCode⟩ :
        Decorations) = s ↔
      ∀ d e, s.contains d → new.contains e → d.offCode ≠ e.offCode := by
  constructor
  · intro same d e on first code
    have left := congrFun (congrArg Decorations.contains same) d
    rw [on, Bool.and_eq_true, Bool.not_eq_true', List.any_eq_false] at left
    exact left.2 e (mem_toList.2 first) (decide_eq_true code.symm)
  · intro apart
    ext d
    rw [Bool.eq_iff_iff]
    simp only [Decorations.union, Bool.and_eq_true, Bool.or_eq_true, Bool.not_eq_true',
      List.any_eq_false, decide_eq_true_eq, mem_toList]
    constructor
    · rintro ⟨on | first, none⟩
      · exact on
      · exact absurd rfl (none d first)
    · exact fun on => ⟨.inl on, fun e first code => apart d e on first code.symm⟩

/-- A style that was turned on and off leaves the state as it was unless its codes turn off what was
on. -/
theorem closed_styled_eq_iff (s : State) (a : Attributes) :
    (s.styled a).closed a = s ↔
      ((color? a.color).isSome → s.foreground = none) ∧
        ((color? a.background).isSome → s.background = none) ∧
        ∀ d e, s.decorations.contains d → a.decorations.contains e → d.offCode ≠ e.offCode := by
  have fields (t : State) : t = s ↔ t.foreground = s.foreground ∧ t.background = s.background ∧
      t.decorations = s.decorations ∧ t.link = s.link := by
    rw [← State.mk.injEq]
  rw [fields]
  simp only [State.closed, State.styled, color_left_eq_iff, decorations_left_eq_iff, and_true]

theorem closed_styled_styled_eq_iff (a b : Attributes) :
    ((({} : State).styled a).styled b).closed b = ({} : State).styled a ↔ ¬ Overlap a b := by
  rw [closed_styled_eq_iff]
  simp only [State.styled, Decorations.union, Decorations.empty]
  constructor
  · rintro ⟨foreground, background, decorations⟩ overlap
    cases overlap with
    | foreground first second => simpa [Option.isSome_iff_ne_none.1 first] using foreground second
    | background first second => simpa [Option.isSome_iff_ne_none.1 first] using background second
    | decoration first second code => exact decorations _ _ (by simpa using first) second code
  · intro apart
    refine ⟨fun second => ?_, fun second => ?_, fun d e first second code => ?_⟩
    · by_contra first
      exact apart (.foreground (by simpa [Option.isSome_iff_ne_none] using first) second)
    · by_contra first
      exact apart (.background (by simpa [Option.isSome_iff_ne_none] using first) second)
    · exact apart (.decoration (by simpa using first) second code)

/-- The text in a style inside another one: it is shown as the styles say, and the text behind it as
the text in front of it unless the two styles overlap. -/
theorem shown_nested (outer inner : Attributes) {a b c : Text} (front : esc ∉ a) (middle : esc ∉ b)
    (back : esc ∉ c) :
    let before := ({} : State).styled outer
    let behind := (before.styled inner).closed inner
    shown {} (paint outer (a ++ paint inner b ++ c)) =
        uniform before a ++ uniform (before.styled inner) b ++ uniform behind c ∧
      (behind = before ↔ ¬ Overlap outer inner) := by
  intro before behind
  constructor
  · have painted := whole_paint (whole_of_notMem middle) inner
    rw [(wraps_paint outer).shown, List.append_assoc, shown_append before (whole_of_notMem front),
      run_of_notMem before front, shown_append before painted, (wraps_paint inner).shown,
      (wraps_paint inner).run, run_of_notMem _ middle, shown_of_notMem _ front,
      shown_of_notMem _ middle, shown_of_notMem _ back, List.append_assoc]
  · exact closed_styled_styled_eq_iff outer inner

/-- Bold text on a color of its own, in red. -/
theorem shown_nested_bold :
    let outer : Attributes := { color := some "red".toList }
    let inner : Attributes := { background := some "7".toList, decorations := .ofList [.bold] }
    let red : State := { foreground := some [31] }
    shown {} (paint outer (['a'] ++ paint inner ['b'] ++ ['c'])) =
      [('a', red), ('b', red.styled inner), ('c', red)] := by
  intro outer inner red
  have apart : ¬ Overlap outer inner := by
    rintro (⟨-, second⟩ | ⟨first, -⟩ | ⟨first, -, -⟩)
    · exact nomatch second
    · exact nomatch first
    · exact nomatch first
  have front : ({} : State).styled outer = red := by decide +kernel
  obtain ⟨cells, same⟩ := shown_nested outer inner (a := ['a']) (b := ['b']) (c := ['c'])
    (by decide) (by decide) (by decide)
  rw [cells, same.2 apart, front]
  rfl

/-- A color inside another one: what stands behind it is in neither. -/
theorem shown_nested_color :
    let outer : Attributes := { color := some "red".toList }
    let inner : Attributes := { color := some "blue".toList }
    let cells := shown {} (paint outer (['a'] ++ paint inner ['b'] ++ ['c']))
    cells = [('a', { foreground := some [31] }), ('b', { foreground := some [34] }), ('c', {})] ∧
      ¬ ∀ front ∈ cells.take 1, ∀ back ∈ cells.drop 2, back.2 = front.2 := by
  decide +kernel

end StyledText.Terminal
