import Mathlib.Data.List.Basic
import StyledText.Output.Printer

/-!
# Writing to a sink with a limit

A sink with a limit holds the first bytes of what a sink without one would hold after the same
run, whatever was written, wherever it became full and however the terminal answered meanwhile. A
step that writes fails exactly when it has bytes to write and not all of them fit.
-/
namespace StyledText

namespace Sink

/-! ### Attempts -/

/-- One attempt to write takes what still fits, and fails when nothing does. -/
def attempt (s : Sink) (bytes : List UInt8) : Except SinkError (Sink × List UInt8) :=
  let fits := s.room bytes.length
  if fits = 0 then .error .full
  else .ok ({ s with received := s.received ++ bytes.take fits }, bytes.drop fits)

theorem length_attempt_lt {s t : Sink} {bytes rest : List UInt8}
    (h : s.attempt bytes = .ok (t, rest)) (nonempty : bytes ≠ []) : rest.length < bytes.length := by
  have some := List.length_pos_iff.2 nonempty
  simp only [attempt] at h
  split at h
  · exact nomatch h
  · cases h
    rw [List.length_drop]
    omega

/-- Attempts at what is left, until nothing is or one fails. -/
def retry (s : Sink) (bytes : List UInt8) : Sink × Except SinkError Unit :=
  if _nonempty : bytes = [] then (s, .ok ())
  else
    match _h : s.attempt bytes with
    | .error e => (s, .error e)
    | .ok (t, rest) => t.retry rest
termination_by bytes.length
decreasing_by exact length_attempt_lt ‹_› ‹_›

theorem retry_nil (s : Sink) : s.retry [] = (s, .ok ()) := by
  rw [retry, dif_pos rfl]

theorem retry_of_room_eq_zero {s : Sink} {bytes : List UInt8} (nonempty : bytes ≠ [])
    (none : s.room bytes.length = 0) : s.retry bytes = (s, .error .full) := by
  have failed : s.attempt bytes = .error .full := by simp [attempt, none]
  rw [retry, dif_neg nonempty]
  split
  · rfl
  · next found => rw [failed] at found; cases found

theorem retry_of_room_ne_zero {s : Sink} {bytes : List UInt8} (some : s.room bytes.length ≠ 0) :
    s.retry bytes =
      ({ s with received := s.received ++ bytes.take (s.room bytes.length) } : Sink).retry
        (bytes.drop (s.room bytes.length)) := by
  have nonempty : bytes ≠ [] := by
    rintro rfl
    exact some (by cases limit : s.limit <;> simp [room, limit])
  have taken : s.attempt bytes =
      .ok ({ s with received := s.received ++ bytes.take (s.room bytes.length) },
        bytes.drop (s.room bytes.length)) := by
    simp [attempt, some]
  rw [retry, dif_neg nonempty]
  split
  · next found => rw [taken] at found; cases found
  · next found => rw [taken] at found; cases found; rfl

/-- Attempts fill the sink and then fail, if not all has been taken by then. -/
theorem write_eq_retry (s : Sink) (bytes : List UInt8) : s.write bytes = s.retry bytes := by
  by_cases nonempty : bytes = []
  · subst nonempty
    have none : s.room 0 = 0 := by cases limit : s.limit <;> simp [room, limit]
    simp [write, none, retry_nil]
  have full : bytes.length ≠ 0 := fun empty => nonempty (List.length_eq_zero_iff.1 empty)
  by_cases some : s.room bytes.length = 0
  · rw [retry_of_room_eq_zero nonempty some]
    simp [write, some, Ne.symm full]
  rw [retry_of_room_ne_zero some]
  by_cases all : s.room bytes.length = bytes.length
  · rw [all, List.drop_length, retry_nil]
    simp [write, all]
  · -- The first attempt has filled the sink, so the second one fails.
    cases limit : s.limit with
    | none => exact absurd (by simp [room, limit]) all
    | some most =>
      have fits : s.room bytes.length = most - s.received.length := by
        simp only [room, limit] at all ⊢
        omega
      have less : most - s.received.length < bytes.length := by
        simp only [room, limit] at all
        omega
      rw [fits] at some all ⊢
      have rest : bytes.drop (most - s.received.length) ≠ [] := by
        simpa using less
      rw [retry_of_room_eq_zero rest]
      · simp [write, fits, all, limit]
      · simp only [room, List.length_append, List.length_take]
        omega

/-! ### First bytes -/

/-- The sink with a limit that has been given some bytes. -/
def filled (limit : ℕ) (given : List UInt8) : Sink := ⟨given.take limit, some limit⟩

theorem write_unlimited (given bytes : List UInt8) :
    write ⟨given, none⟩ bytes = (⟨given ++ bytes, none⟩, .ok ()) := by
  simp [write, room]

theorem writeAll_unlimited (given : List UInt8) (pieces : List (List UInt8)) :
    writeAll ⟨given, none⟩ pieces = (⟨given ++ pieces.flatten, none⟩, .ok ()) := by
  induction pieces generalizing given with
  | nil => simp [writeAll]
  | cons piece pieces ih => simp [writeAll, write_unlimited, ih]

theorem write_filled (limit : ℕ) (given bytes : List UInt8) :
    (filled limit given).write bytes =
      (filled limit (given ++ bytes),
        if bytes = [] ∨ (given ++ bytes).length ≤ limit then .ok () else .error .full) := by
  have room : (filled limit given).room bytes.length = min bytes.length (limit - given.length) := by
    simp only [filled, Sink.room, List.length_take]
    omega
  have fits : min bytes.length (limit - given.length) = bytes.length ↔
      bytes = [] ∨ (given ++ bytes).length ≤ limit := by
    rw [List.length_append, ← List.length_eq_zero_iff]
    omega
  have taken : given.take limit ++ bytes.take (min bytes.length (limit - given.length)) =
      (given ++ bytes).take limit := by
    rw [List.take_append, Nat.min_comm, ← List.take_take, List.take_length]
  rw [write, room]
  simp only [fits, filled, taken]

theorem writeAll_filled (limit : ℕ) (given : List UInt8) (pieces : List (List UInt8)) :
    (filled limit given).writeAll pieces =
      (filled limit (given ++ pieces.flatten),
        if pieces.flatten = [] ∨ (given ++ pieces.flatten).length ≤ limit then .ok ()
        else .error .full) := by
  induction pieces generalizing given with
  | nil => simp [writeAll]
  | cons piece pieces ih =>
    rw [writeAll, write_filled, List.flatten_cons, ← List.append_assoc]
    by_cases fits : piece = [] ∨ (given ++ piece).length ≤ limit
    · have rest : pieces.flatten = [] ∨ (given ++ piece ++ pieces.flatten).length ≤ limit ↔
          piece ++ pieces.flatten = [] ∨ (given ++ piece ++ pieces.flatten).length ≤ limit := by
        rw [List.append_eq_nil_iff]
        constructor
        · rintro (empty | total)
          · rw [empty, List.append_nil]
            exact fits.imp_left fun nothing => ⟨nothing, rfl⟩
          · exact .inr total
        · exact Or.imp_left And.right
      rw [if_pos fits]
      simp only [ih, rest]
    · -- The sink is full, and what the later pieces hold is not among its bytes.
      rw [not_or, Nat.not_le] at fits
      have full : filled limit (given ++ piece) = filled limit (given ++ piece ++ pieces.flatten) := by
        rw [filled, filled, List.take_append_of_le_length (Nat.le_of_lt fits.2)]
      have exceeds : ¬ (piece ++ pieces.flatten = [] ∨
          (given ++ piece ++ pieces.flatten).length ≤ limit) := by
        rw [List.append_eq_nil_iff, not_or, Nat.not_le, List.length_append]
        exact ⟨fun nothing => fits.1 nothing.1, by omega⟩
      rw [if_neg (not_or.2 ⟨fits.1, Nat.not_le.2 fits.2⟩), if_neg exceeds, full]

end Sink

/-! ### Runs -/

namespace Printer

/-- What a step may write: an element, a line of markup, or text as it is. -/
inductive Writing where
  | element (e : Element)
  | line (text : Text)
  | text (text : Text)

/-- One step of a printer: writing, or another setting for what is written later. Between two steps
the terminal may come to answer otherwise. -/
inductive Step where
  | write (w : Writing)
  | theme (theme : Theme)
  | shortcodes (shortcodes : Shortcodes)
  | handler (name : Text) (handler : Markup.Handler Theme)
  | width (columns : ℕ)
  | mode (mode : OutputMode)
  | terminal (columns : ℕ) (showsColor : Bool)

def emit (p : Printer) : Writing → Printer × Except SinkError Unit
  | .element e => p.write e
  | .line text => p.writeLine text
  | .text text => p.writeText text

/-- The printer when its terminal has that many columns and shows color or does not. -/
def onTerminal (p : Printer) (columns : ℕ) (showsColor : Bool) : Printer :=
  { p with context.detectedWidth := columns, showsColor }

/-- A handler under an invalid name is not registered. -/
def step (p : Printer) : Step → Printer
  | .write w => (p.emit w).1
  | .theme theme => p.setTheme theme
  | .shortcodes shortcodes => p.setShortcodes shortcodes
  | .handler name handler => (p.register name handler).toOption.getD p
  | .width columns => p.setWidth columns
  | .mode mode => p.setMode mode
  | .terminal columns showsColor => p.onTerminal columns showsColor

def run (p : Printer) (steps : List Step) : Printer := steps.foldl step p

def withSink (p : Printer) (sink : Sink) : Printer := { p with sink := sink }

/-- The bytes that a step writes if they fit. -/
def output (p : Printer) : Writing → List UInt8
  | .element e => Text.toUtf8 (p.render e)
  | .line text => Text.toUtf8 (p.renderText text ++ ['\n'])
  | .text text => Text.toUtf8 (p.apply text)

/-- What is handed to the sink in turn; the newline of a line is handed over by itself. -/
def pieces (p : Printer) : Writing → List (List UInt8)
  | .element e => [Text.toUtf8 (p.render e)]
  | .line text => [Text.toUtf8 (p.renderText text), Text.toUtf8 ['\n']]
  | .text text => [Text.toUtf8 (p.apply text)]

theorem flatten_pieces (p : Printer) (w : Writing) : (p.pieces w).flatten = p.output w := by
  cases w <;> simp [pieces, output, Text.toUtf8]

/-- What is handed over does not depend on the sink. -/
theorem emit_withSink (p : Printer) (sink : Sink) (w : Writing) :
    (p.withSink sink).emit w =
      (p.withSink (sink.writeAll (p.pieces w)).1, (sink.writeAll (p.pieces w)).2) := by
  cases w <;> rfl

/-- To register a handler is to replace the tags by those that have it, or by themselves where its
name is refused. -/
theorem step_handler (p : Printer) (name : Text) (handler : Markup.Handler Theme) :
    p.step (.handler name handler) = p.step (.shortcodes { p.context.shortcodes with
      registry := (p.context.shortcodes.registry.register name handler).toOption.getD
        p.context.shortcodes.registry }) := by
  simp only [step, register]
  cases p.context.shortcodes.registry.register name handler <;> rfl

/-- A step hands something to the sink or changes a setting, in the same way over every sink. -/
theorem exists_step_withSink (p : Printer) (s : Step) :
    ∃ (next : Printer) (given : List (List UInt8)),
      ∀ sink, (p.withSink sink).step s = next.withSink (sink.writeAll given).1 := by
  cases s with
  | write w => exact ⟨p, p.pieces w, fun sink => congrArg Prod.fst (p.emit_withSink sink w)⟩
  | theme theme => exact ⟨p.setTheme theme, [], fun _ => rfl⟩
  | shortcodes shortcodes => exact ⟨p.setShortcodes shortcodes, [], fun _ => rfl⟩
  | handler name handler =>
    refine ⟨p.step (.handler name handler), [], fun sink => ?_⟩
    rw [step_handler, step_handler]
    rfl
  | width columns => exact ⟨p.setWidth columns, [], fun _ => rfl⟩
  | mode mode => exact ⟨p.setMode mode, [], fun _ => rfl⟩
  | terminal columns showsColor => exact ⟨p.onTerminal columns showsColor, [], fun _ => rfl⟩

/-- Two runs side by side: they have the same settings, and one sink is a cut of the other. -/
theorem exists_run_withSink (p : Printer) (limit : ℕ) (given : List UInt8) (steps : List Step) :
    ∃ (last : Printer) (all : List UInt8),
      (p.withSink (.filled limit given)).run steps = last.withSink (.filled limit all) ∧
        (p.withSink ⟨given, none⟩).run steps = last.withSink ⟨all, none⟩ := by
  induction steps generalizing p given with
  | nil => exact ⟨p, given, rfl, rfl⟩
  | cons s steps ih =>
    obtain ⟨next, pieces, stepped⟩ := p.exists_step_withSink s
    obtain ⟨last, all, limited, unlimited⟩ := ih next (given ++ pieces.flatten)
    refine ⟨last, all, ?_, ?_⟩
    · rw [run, List.foldl_cons, stepped, Sink.writeAll_filled]
      exact limited
    · rw [run, List.foldl_cons, stepped, Sink.writeAll_unlimited]
      exact unlimited

/-- After any steps over a sink that takes `limit` bytes, the sink holds the first bytes of what
the same steps give to a sink without a limit. Writing then succeeds when there is nothing to
write or the bytes given up to its end fit, and what writing an element gives is what rendering
it returns. The sink is full when an attempt at what is left takes nothing. -/
theorem run_limited (p : Printer) (limit : ℕ) (steps : List Step) :
    let limited := (p.withSink { limit := some limit }).run steps
    let unlimited := (p.withSink {}).run steps
    limited.sink.received = unlimited.sink.received.take limit ∧
      (∀ w, (unlimited.emit w).1.sink.received = unlimited.sink.received ++ unlimited.output w ∧
        (limited.emit w).2 =
          if unlimited.output w = [] ∨ (unlimited.emit w).1.sink.received.length ≤ limit then .ok ()
          else .error .full) ∧
      (∀ e, (unlimited.emit (.element e)).1.sink.received =
          unlimited.sink.received ++ Text.toUtf8 (unlimited.render e) ∧
        limited.render e = unlimited.render e) ∧
      ∀ bytes, limited.sink.write bytes = limited.sink.retry bytes := by
  have empty : ({ limit := some limit } : Sink) = .filled limit [] := by simp [Sink.filled]
  obtain ⟨last, all, ran, ranUnlimited⟩ := p.exists_run_withSink limit [] steps
  have given (w : Writing) :
      (last.withSink ⟨all, none⟩).emit w = (last.withSink ⟨all ++ last.output w, none⟩, .ok ()) := by
    rw [emit_withSink, Sink.writeAll_unlimited, flatten_pieces]
  rw [empty, ran, ranUnlimited]
  refine ⟨rfl, fun w => ⟨?_, ?_⟩, fun e => ⟨?_, rfl⟩, Sink.write_eq_retry _⟩
  · rw [given]
    rfl
  · rw [given, emit_withSink, Sink.writeAll_filled, flatten_pieces]
    rfl
  · rw [given]
    rfl

end Printer
end StyledText
