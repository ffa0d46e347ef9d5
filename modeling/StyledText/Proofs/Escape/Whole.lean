import Mathlib.Data.List.Basic
import StyledText.Escape.Truncation
import StyledText.Escape.Write
import StyledText.Proofs.Escape.Grammar

/-!
# Whole sequences

A text is whole when each of its pieces is cut off as itself whatever follows it. Whole texts are
cut one by one when they are joined. A sequence is whole unless it is the opening of a command
alone; those that are written here are. Any text is cut as itself in front of an ESC that no
backslash follows.
-/
namespace StyledText.Escape

/-- Free of ESC and BEL. -/
def Plain (t : Text) : Prop := esc ∉ t ∧ bel ∉ t

def Piece.Whole (p : Piece) : Prop := ∀ rest, pieces (p.source ++ rest) = p :: pieces rest

def Whole (t : Text) : Prop := ∀ p ∈ pieces t, p.Whole

@[simp] theorem pieces_nil : pieces [] = [] := by simp [pieces]

theorem pieces_cons_of_ne {c : Char} (h : c ≠ esc) (cs : Text) :
    pieces (c :: cs) = .visible c :: pieces cs := by
  rw [pieces, if_neg h]

theorem pieces_esc {cs body rest : Text} (h : body? cs = some (body, rest)) :
    pieces (esc :: cs) = .sequence (esc :: body) :: pieces rest := by
  rw [pieces, if_pos rfl]
  split
  · next b r found =>
    rw [h] at found
    cases found
    rfl
  · next none => simp [h] at none

theorem pieces_esc_of_none {cs : Text} (h : body? cs = none) :
    pieces (esc :: cs) = .visible esc :: pieces cs := by
  rw [pieces, if_pos rfl]
  split
  · next body rest found => simp [h] at found
  · rfl

/-- The pieces cover the text. -/
theorem flatMap_source_pieces (t : Text) : (pieces t).flatMap Piece.source = t := by
  fun_induction pieces t with
  | case1 => rfl
  | case2 cs body rest found ih =>
    have cover := (body?_append found).1
    simp [Piece.source, ih, cover]
  | case3 cs none ih => simp [Piece.source, ih]
  | case4 c cs plain ih => simp [Piece.source, ih]

theorem flatMap_source_visible (t : Text) : (t.map Piece.visible).flatMap Piece.source = t := by
  induction t with
  | nil => rfl
  | cons c cs ih => rw [List.map_cons, List.flatMap_cons, ih, Piece.source, List.singleton_append]

theorem pieces_flatMap_append {ps : List Piece} (h : ∀ p ∈ ps, p.Whole) (rest : Text) :
    pieces (ps.flatMap Piece.source ++ rest) = ps ++ pieces rest := by
  induction ps with
  | nil => rfl
  | cons p ps ih =>
    have first := h p List.mem_cons_self
    have others : ∀ q ∈ ps, q.Whole := fun q hq => h q (List.mem_cons_of_mem _ hq)
    rw [List.flatMap_cons, List.append_assoc, first, ih others, List.cons_append]

theorem pieces_append {s : Text} (h : Whole s) (t : Text) :
    pieces (s ++ t) = pieces s ++ pieces t := by
  have cut := pieces_flatMap_append h t
  rwa [flatMap_source_pieces] at cut

theorem Piece.Whole.pieces_source {p : Piece} (h : p.Whole) : pieces p.source = [p] := by
  have alone := h []
  rwa [List.append_nil, pieces_nil] at alone

theorem Piece.Whole.source {p : Piece} (h : p.Whole) : Escape.Whole p.source := by
  intro q hq
  rw [h.pieces_source, List.mem_singleton] at hq
  rwa [hq]

theorem Whole.append {s t : Text} (hs : Whole s) (ht : Whole t) : Whole (s ++ t) := by
  intro p hp
  rw [pieces_append hs, List.mem_append] at hp
  exact hp.elim (hs p) (ht p)

/-- A text is cut as itself in front of an ESC that no backslash follows, whatever it leaves
unfinished. -/
theorem pieces_append_esc {c : Char} (other : c ≠ '\\') (t rest : Text) :
    pieces (t ++ esc :: c :: rest) = pieces t ++ pieces (esc :: c :: rest) := by
  fun_induction pieces t with
  | case1 => rfl
  | case2 cs body left found ih =>
    have read := body?_append_esc other cs rest
    rw [found] at read
    rw [List.cons_append, pieces_esc read, ih, List.cons_append]
  | case3 cs none ih =>
    have read := body?_append_esc other cs rest
    rw [none] at read
    rw [List.cons_append, pieces_esc_of_none read, ih, List.cons_append]
  | case4 d cs plain ih => rw [List.cons_append, pieces_cons_of_ne plain, ih, List.cons_append]

/-! ### What is written -/

theorem whole_visible {c : Char} (h : c ≠ esc) : (Piece.visible c).Whole :=
  fun rest => pieces_cons_of_ne h rest

theorem pieces_of_notMem {t : Text} (h : esc ∉ t) : pieces t = t.map Piece.visible := by
  induction t with
  | nil => simp
  | cons c cs ih =>
    rw [List.mem_cons, not_or] at h
    rw [pieces_cons_of_ne (Ne.symm h.1), ih h.2, List.map_cons]

theorem whole_of_notMem {t : Text} (h : esc ∉ t) : Whole t := by
  intro p hp
  rw [pieces_of_notMem h, List.mem_map] at hp
  obtain ⟨c, mem, rfl⟩ := hp
  exact whole_visible fun e => h (e ▸ mem)

/-- Nothing behind a sequence is taken for a part of it, unless it only opens a command. -/
theorem IsSequence.whole {q : Text} (h : IsSequence q) (closed : q ≠ [esc, ']']) :
    (Piece.sequence q).Whole := by
  intro rest
  obtain ⟨body, rfl⟩ := h.exists_body
  have read : body? (body ++ rest) = some (body, rest) :=
    body?_eq_some_iff.2 ⟨rfl, h, fun opening => absurd (congrArg (esc :: ·) opening) closed⟩
  exact pieces_esc read

/-- The final character ends a control sequence, whatever stands behind it. -/
theorem whole_sgr {parameters : Text} (h : ∀ c ∈ parameters, isParameter c) :
    (Piece.sequence (sgr parameters)).Whole := by
  have shape : IsControlBody (parameters ++ ['m']) :=
    ⟨parameters, [], 'm', by simp, h, by simp, by decide⟩
  exact (IsSequence.control shape).whole (by simp)

theorem whole_linkCommand {address : Text} (h : Plain address) :
    (Piece.sequence (linkCommand address)).Whole := by
  have start : ∀ c ∈ "8;;".toList, isCommandChar c := List.all_eq_true.1 (by decide)
  have inside : ∀ c ∈ "8;;".toList ++ address, isCommandChar c := by
    intro c mem
    rcases List.mem_append.1 mem with first | mem
    · exact start c first
    · simp only [isCommandChar, Bool.and_eq_true, bne_iff_ne]
      exact ⟨fun e => h.2 (e ▸ mem), fun e => h.1 (e ▸ mem)⟩
  exact (IsSequence.command ⟨_, inside, .inr rfl⟩).whole (by simp)

theorem plain_nil : Plain [] := by simp [Plain]

theorem Plain.mono {s t : Text} (h : Plain t) (st : s ⊆ t) : Plain s :=
  ⟨fun mem => h.1 (st mem), fun mem => h.2 (st mem)⟩

theorem Plain.append {s t : Text} (hs : Plain s) (ht : Plain t) : Plain (s ++ t) := by
  simp [Plain, hs.1, hs.2, ht.1, ht.2]

theorem plain_replicate {c : Char} (h : Plain [c]) (n : ℕ) : Plain (List.replicate n c) :=
  h.mono fun d mem => by simp [List.eq_of_mem_replicate mem]

theorem plain_spaces (n : ℕ) : Plain (Text.spaces n) :=
  plain_replicate (by simp [Plain, esc, bel]) n

theorem plain_newline : Plain ['\n'] := by simp [Plain, esc, bel]

/-! ### Visible text and sequences -/

def Piece.sequence? : Piece → Option Text
  | .visible _ => none
  | .sequence s => some s

/-- The escape sequences of a text in their order. -/
def sequences (t : Text) : List Text := (pieces t).filterMap Piece.sequence?

def visibleOf (ps : List Piece) : Text := ps.filterMap Piece.visible?

def sequencesOf (ps : List Piece) : List Text := ps.filterMap Piece.sequence?

section
variable (c : Char) (q t : Text) (ps qs : List Piece)

@[simp] theorem visibleOf_nil : visibleOf [] = [] := rfl

@[simp] theorem visibleOf_visible : visibleOf (.visible c :: ps) = c :: visibleOf ps := rfl

@[simp] theorem visibleOf_sequence : visibleOf (.sequence q :: ps) = visibleOf ps := rfl

@[simp] theorem visibleOf_append : visibleOf (ps ++ qs) = visibleOf ps ++ visibleOf qs :=
  List.filterMap_append

@[simp] theorem visibleOf_map_visible : visibleOf (t.map .visible) = t := by
  rw [visibleOf, List.filterMap_map]
  exact List.filterMap_some

@[simp] theorem sequencesOf_nil : sequencesOf [] = [] := rfl

@[simp] theorem sequencesOf_visible : sequencesOf (.visible c :: ps) = sequencesOf ps := rfl

@[simp] theorem sequencesOf_sequence : sequencesOf (.sequence q :: ps) = q :: sequencesOf ps := rfl

@[simp] theorem sequencesOf_append : sequencesOf (ps ++ qs) = sequencesOf ps ++ sequencesOf qs :=
  List.filterMap_append

@[simp] theorem sequencesOf_map_visible : sequencesOf (t.map .visible) = [] := by
  rw [sequencesOf, List.filterMap_map]
  exact List.filterMap_eq_nil_iff.2 fun _ _ => rfl

end

theorem strip_esc {cs body rest : Text} (h : body? cs = some (body, rest)) :
    strip (esc :: cs) = strip rest := by
  rw [strip, pieces_esc h]
  rfl

theorem strip_esc_of_none {cs : Text} (h : body? cs = none) :
    strip (esc :: cs) = esc :: strip cs := by
  rw [strip, pieces_esc_of_none h]
  rfl

theorem strip_cons_of_ne {c : Char} (h : c ≠ esc) (cs : Text) : strip (c :: cs) = c :: strip cs := by
  rw [strip, pieces_cons_of_ne h]
  rfl

theorem strip_append {s : Text} (h : Whole s) (t : Text) : strip (s ++ t) = strip s ++ strip t := by
  simp [strip, pieces_append h]

theorem sequences_append {s : Text} (h : Whole s) (t : Text) :
    sequences (s ++ t) = sequences s ++ sequences t := by
  simp [sequences, pieces_append h]

theorem strip_of_notMem {t : Text} (h : esc ∉ t) : strip t = t := by
  simp [strip, pieces_of_notMem h, List.filterMap_map, Function.comp_def, Piece.visible?]

theorem sequences_of_notMem {t : Text} (h : esc ∉ t) : sequences t = [] := by
  simp [sequences, pieces_of_notMem h, Piece.sequence?]

/-! ### Truncation -/

/-- Behind other pieces there is the room that those leave, and the mark stands once. -/
theorem keepPieces_append (room : ℕ) (mark : Text) (ps qs : List Piece) :
    keepPieces room mark (ps ++ qs) =
      keepPieces room mark ps ++
        keepPieces (room - (ps.filterMap Piece.visible?).length)
          (if room < (ps.filterMap Piece.visible?).length then [] else mark) qs := by
  induction ps generalizing room mark with
  | nil => simp [keepPieces]
  | cons p ps ih =>
    cases p with
    | sequence s =>
      rw [List.cons_append, keepPieces, keepPieces, ih, List.append_assoc]
      rfl
    | visible c =>
      cases room with
      | zero => simp [keepPieces, Piece.visible?, ih]
      | succ room => simp [keepPieces, Piece.visible?, ih]

theorem keepPieces_subset (room : ℕ) (mark t : Text) :
    keepPieces room mark (t.map Piece.visible) ⊆ mark ++ t := by
  induction t generalizing room mark with
  | nil => simp [keepPieces]
  | cons c cs ih =>
    cases room with
    | zero =>
      have rest := ih 0 []
      rw [List.nil_append] at rest
      rw [List.map_cons, keepPieces, List.append_subset]
      exact ⟨List.subset_append_left .., fun d mem => by simp [rest mem]⟩
    | succ room =>
      have rest := ih room mark
      rw [List.map_cons, keepPieces, List.cons_subset]
      refine ⟨by simp, fun d mem => ?_⟩
      have inside := rest mem
      rw [List.mem_append] at inside ⊢
      exact inside.imp_right (List.mem_cons_of_mem c)

end StyledText.Escape
