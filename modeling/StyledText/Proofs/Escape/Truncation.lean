import StyledText.Proofs.Escape.Whole

/-!
# Cutting to a width

Truncation keeps a list of pieces. Pieces that are put together anew may be cut in other places,
since the opening of a command reaches for an end that stood too far off before, but they never
show more than they did. So whatever a text leaves unfinished, it fits its width once it is cut. A
text put together from runs without ESC and from sequences keeps all of its sequences and its first
characters.
-/
namespace StyledText.Escape

/-! ### Pieces put together anew -/

theorem isSequence_of_mem_pieces {t q : Text} (h : .sequence q ∈ pieces t) : IsSequence q := by
  fun_induction pieces t with
  | case1 => simp at h
  | case2 cs body rest found ih =>
    rcases List.mem_cons.1 h with first | mem
    · obtain rfl := Piece.sequence.inj first
      exact (body?_eq_some_iff.1 found).2.1
    · exact ih mem
  | case3 cs none ih => exact ih (by simpa using h)
  | case4 c cs plain ih => exact ih (by simpa using h)

/-- What is taken ends where a piece does: inside a sequence it would have to hold an ESC. -/
theorem exists_suffix_of_taken {ps : List Piece} (cut : ∀ q, .sequence q ∈ ps → IsSequence q)
    {body left : Text} (ends : ∀ front back, body = front ++ esc :: back → back = ['\\'])
    (same : ps.flatMap Piece.source = body ++ left) :
    ∃ rest, rest <:+ ps ∧ rest.flatMap Piece.source = left := by
  induction ps generalizing body with
  | nil =>
    obtain ⟨-, rfl⟩ := List.append_eq_nil_iff.1 same.symm
    exact ⟨[], List.suffix_rfl, rfl⟩
  | cons p ps ih =>
    cases body with
    | nil => exact ⟨p :: ps, List.suffix_rfl, same⟩
    | cons d body =>
      cases p with
      | visible c =>
        obtain ⟨-, behind⟩ := List.cons.inj same
        have further : ∀ front back, body = front ++ esc :: back → back = ['\\'] :=
          fun front back inside => ends (d :: front) back (by rw [inside, List.cons_append])
        obtain ⟨rest, suffix, source⟩ :=
          ih (fun q mem => cut q (List.mem_cons_of_mem _ mem)) further behind
        exact ⟨rest, suffix.trans (List.suffix_cons _ _), source⟩
      | sequence q =>
        refine ⟨ps, List.suffix_cons _ _, ?_⟩
        cases cut q List.mem_cons_self with
        | control shape | command shape =>
          obtain ⟨rfl, behind⟩ := List.cons.inj same
          obtain rfl := ends [] body rfl
          exact absurd (List.cons.inj behind).1 (by decide)
        | short second =>
          obtain ⟨rfl, behind⟩ := List.cons.inj same
          obtain rfl := ends [] body rfl
          exact (List.cons.inj behind).2

/-- Whatever ends are found in pieces that are put together anew, none of them lies inside a
sequence. Characters may be taken for a part of a sequence, but nothing else comes to show. -/
theorem strip_flatMap_source_sublist : (ps : List Piece) →
    (∀ q, .sequence q ∈ ps → IsSequence q) →
    (strip (ps.flatMap Piece.source)).Sublist (visibleOf ps)
  | [], _ => by simp [strip]
  | p :: ps, cut => by
    have behind : ∀ q, .sequence q ∈ ps → IsSequence q :=
      fun q mem => cut q (List.mem_cons_of_mem _ mem)
    -- a sequence may reach over several pieces and leaves any suffix of them
    have kept (rest : List Piece) (suffix : rest <:+ ps) :
        (strip (rest.flatMap Piece.source)).Sublist (visibleOf ps) := by
      have shorter := suffix.length_le
      have shown := strip_flatMap_source_sublist rest fun q mem => behind q (suffix.subset mem)
      exact shown.trans (suffix.sublist.filterMap Piece.visible?)
    have taken {lead body left : Text} (shape : IsSequence (esc :: (lead ++ body)))
        (same : ps.flatMap Piece.source = body ++ left) :
        (strip left).Sublist (visibleOf ps) := by
      have ends : ∀ front back, body = front ++ esc :: back → back = ['\\'] := by
        intro front back inside
        rw [inside, ← List.append_assoc] at shape
        exact shape.esc_behind rfl
      obtain ⟨rest, suffix, rfl⟩ := exists_suffix_of_taken behind ends same
      exact kept rest suffix
    cases p with
    | visible c =>
      rw [List.flatMap_cons, Piece.source, List.singleton_append]
      by_cases plain : c = esc
      · subst plain
        rcases read : body? (ps.flatMap Piece.source) with _ | ⟨body, left⟩
        · rw [strip_esc_of_none read]
          exact (kept ps List.suffix_rfl).cons_cons esc
        · obtain ⟨same, shape, -⟩ := body?_eq_some_iff.1 read
          have alone : IsSequence (esc :: ([] ++ body)) := shape
          rw [strip_esc read]
          exact (taken alone same).cons esc
      · rw [strip_cons_of_ne plain]
        exact (kept ps List.suffix_rfl).cons_cons c
    | sequence q =>
      have shape := cut q List.mem_cons_self
      by_cases opening : q = [esc, ']']
      · subst opening
        rw [List.flatMap_cons, Piece.source, List.cons_append, List.singleton_append]
        rcases read : commandBody? (ps.flatMap Piece.source) with _ | ⟨body, left⟩
        · have found : body? (']' :: ps.flatMap Piece.source) = some ([']'], _) :=
            body?_eq_some_iff.2 ⟨rfl, shape, fun _ => read⟩
          rw [strip_esc found]
          exact kept ps List.suffix_rfl
        · obtain ⟨same, command⟩ := commandBody?_eq_some_iff.1 read
          have longer : IsSequence (esc :: ([']'] ++ body)) := .command command
          have found := body?_eq_some_iff.2 ⟨congrArg (']' :: ·) same, longer, fun alone =>
            absurd (List.cons.inj alone).2 command.ne_nil⟩
          rw [strip_esc found]
          exact taken longer same
      · rw [List.flatMap_cons, strip, shape.whole opening]
        exact kept ps List.suffix_rfl
termination_by ps => ps.length

/-! ### The pieces that are kept -/

/-- As many visible pieces as there is room for, then the mark for all others, and every
sequence. -/
def kept (room : ℕ) (mark : Text) : List Piece → List Piece
  | [] => []
  | .sequence q :: rest => .sequence q :: kept room mark rest
  | .visible c :: rest =>
    match room with
    | 0 => mark.map .visible ++ kept 0 [] rest
    | room + 1 => .visible c :: kept room mark rest

theorem keepPieces_eq_flatMap_source (room : ℕ) (mark : Text) (ps : List Piece) :
    keepPieces room mark ps = (kept room mark ps).flatMap Piece.source := by
  induction ps generalizing room mark with
  | nil => rfl
  | cons p ps ih =>
    cases p with
    | sequence q => rw [keepPieces, kept, List.flatMap_cons, ih, Piece.source]
    | visible c =>
      cases room with
      | zero => rw [keepPieces, kept, List.flatMap_append, flatMap_source_visible, ih]
      | succ room =>
        rw [keepPieces, kept, List.flatMap_cons, ih, Piece.source, List.singleton_append]

theorem mem_kept {room : ℕ} {mark : Text} {ps : List Piece} {p : Piece}
    (h : p ∈ kept room mark ps) : p ∈ ps ∨ ∃ c ∈ mark, p = .visible c := by
  induction ps generalizing room mark with
  | nil => exact .inl h
  | cons first ps ih =>
    cases first with
    | sequence q =>
      rcases List.mem_cons.1 h with rfl | mem
      · exact .inl List.mem_cons_self
      · exact (ih mem).imp_left (List.mem_cons_of_mem _)
    | visible c =>
      cases room with
      | zero =>
        rcases List.mem_append.1 h with marked | mem
        · obtain ⟨d, mem, rfl⟩ := List.mem_map.1 marked
          exact .inr ⟨d, mem, rfl⟩
        · rcases ih mem with mem | ⟨d, mem, -⟩
          · exact .inl (List.mem_cons_of_mem _ mem)
          · exact nomatch mem
      | succ room =>
        rcases List.mem_cons.1 h with rfl | mem
        · exact .inl List.mem_cons_self
        · exact (ih mem).imp_left (List.mem_cons_of_mem _)

theorem sequencesOf_kept (room : ℕ) (mark : Text) (ps : List Piece) :
    sequencesOf (kept room mark ps) = sequencesOf ps := by
  induction ps generalizing room mark with
  | nil => rfl
  | cons p ps ih =>
    cases p with
    | sequence q => simp [kept, ih]
    | visible c => cases room <;> simp [kept, ih]

theorem visibleOf_kept (room : ℕ) (mark : Text) (ps : List Piece) :
    visibleOf (kept room mark ps) =
      (visibleOf ps).take room ++ if room < (visibleOf ps).length then mark else [] := by
  induction ps generalizing room mark with
  | nil => simp [kept]
  | cons p ps ih =>
    cases p with
    | sequence q => rw [kept, visibleOf_sequence, visibleOf_sequence, ih]
    | visible c => cases room <;> simp [kept, ih]

/-- Without room and mark only the sequences are left. -/
theorem kept_zero_append (mark : Text) (ps : List Piece) :
    kept 0 [] (mark.map .visible ++ ps) = kept 0 [] ps := by
  induction mark with
  | nil => rfl
  | cons c cs ih => simpa [kept] using ih

theorem kept_zero_kept (room : ℕ) (mark : Text) (ps : List Piece) :
    kept 0 [] (kept room mark ps) = kept 0 [] ps := by
  induction ps generalizing room mark with
  | nil => rfl
  | cons p ps ih =>
    cases p with
    | sequence q => simp [kept, ih]
    | visible c => cases room <;> simp [kept, kept_zero_append, ih]

/-- What has been cut further behind is cut as if it had not been. -/
theorem kept_kept {room further : ℕ} (h : room < further) (mark other : Text) (ps : List Piece) :
    kept room mark (kept further other ps) = kept room mark ps := by
  induction ps generalizing room further with
  | nil => rfl
  | cons p ps ih =>
    cases p with
    | sequence q => simp [kept, ih h]
    | visible c =>
      obtain ⟨further, rfl⟩ := Nat.exists_eq_add_one.2 (Nat.zero_lt_of_lt h)
      cases room with
      | zero => simp [kept, kept_zero_kept]
      | succ room => simp [kept, ih (Nat.lt_of_succ_lt_succ h)]

/-! ### Cutting pieces -/

/-- What stands for all that was cut off. -/
def markOf (limit : ℕ) : Text := if limit = 0 then [] else [ellipsis]

theorem length_markOf (limit : ℕ) : limit - 1 + (markOf limit).length ≤ limit := by
  rw [markOf]
  split
  · simp
  · rw [List.length_singleton]
    omega

def cutPieces (limit : ℕ) (ps : List Piece) : List Piece :=
  if (visibleOf ps).length ≤ limit then ps else kept (limit - 1) (markOf limit) ps

theorem truncate_eq_flatMap_source (limit : ℕ) (t : Text) :
    truncate limit t = (cutPieces limit (pieces t)).flatMap Piece.source := by
  by_cases fits : visibleWidth t ≤ limit
  · have short : (visibleOf (pieces t)).length ≤ limit := fits
    rw [truncate, if_pos fits, cutPieces, if_pos short, flatMap_source_pieces]
  · have long : ¬ (visibleOf (pieces t)).length ≤ limit := fits
    rw [truncate, if_neg fits, cutPieces, if_neg long]
    exact keepPieces_eq_flatMap_source _ _ _

theorem mem_cutPieces {limit : ℕ} {ps : List Piece} {p : Piece} (h : p ∈ cutPieces limit ps) :
    p ∈ ps ∨ p = .visible ellipsis := by
  rw [cutPieces] at h
  split at h
  · exact .inl h
  · refine (mem_kept h).imp_right ?_
    rintro ⟨c, mem, rfl⟩
    rw [markOf] at mem
    split at mem
    · exact nomatch mem
    · rw [List.mem_singleton.1 mem]

theorem sequencesOf_cutPieces (limit : ℕ) (ps : List Piece) :
    sequencesOf (cutPieces limit ps) = sequencesOf ps := by
  rw [cutPieces]
  split
  · rfl
  · exact sequencesOf_kept _ _ _

theorem visibleOf_cutPieces {limit : ℕ} {ps : List Piece}
    (wide : limit < (visibleOf ps).length) :
    visibleOf (cutPieces limit ps) =
      (visibleOf ps).take (limit - 1) ++ markOf limit := by
  rw [cutPieces, if_neg (Nat.not_le.2 wide), visibleOf_kept, if_pos (by omega)]

theorem length_cutPieces (limit : ℕ) (ps : List Piece) :
    (visibleOf (cutPieces limit ps)).length ≤ limit := by
  by_cases wide : limit < (visibleOf ps).length
  · have marked := length_markOf limit
    rw [visibleOf_cutPieces wide, List.length_append, List.length_take]
    omega
  · rw [cutPieces, if_pos (Nat.not_lt.1 wide)]
    exact Nat.not_lt.1 wide

theorem cutPieces_cutPieces (first second : ℕ) (ps : List Piece) :
    cutPieces second (cutPieces first ps) = cutPieces (min first second) ps := by
  by_cases wide : first < (visibleOf ps).length
  · by_cases further : first ≤ second
    · rw [Nat.min_eq_left further, cutPieces,
        if_pos (Nat.le_trans (length_cutPieces first ps) further)]
    · have shown : visibleOf (cutPieces first ps) =
          (visibleOf ps).take (first - 1) ++ [ellipsis] := by
        rw [visibleOf_cutPieces wide, markOf, if_neg (by omega)]
      have length : (visibleOf (cutPieces first ps)).length = first := by
        rw [shown, List.length_append, List.length_take, List.length_singleton]
        omega
      rw [Nat.min_eq_right (by omega), cutPieces, if_neg (by omega), cutPieces, if_neg (by omega),
        cutPieces, if_neg (by omega)]
      -- A limit of 0 has neither room nor a mark, any other has less room than the first.
      cases second with
      | zero => exact kept_zero_kept _ _ _
      | succ second => exact kept_kept (by omega) _ _ _
  · have uncut : cutPieces first ps = ps := if_pos (Nat.not_lt.1 wide)
    rw [uncut]
    by_cases further : second ≤ first
    · rw [Nat.min_eq_right further]
    · rw [Nat.min_eq_left (by omega), uncut, cutPieces, if_pos (by omega)]

/-! ### Texts of runs and sequences -/

/-- The text is put together from runs without ESC and from sequences, none of which is the opening
of a command alone. Its sequences are listed, and its runs are joined. -/
inductive Composed : Text → List Text → Text → Prop
  | nil : Composed [] [] []
  | run {run rest visible : Text} {qs : List Text} (free : esc ∉ run)
      (behind : Composed rest qs visible) : Composed (run ++ rest) qs (run ++ visible)
  | sequence {q rest visible : Text} {qs : List Text} (shape : IsSequence q)
      (closed : q ≠ [esc, ']']) (behind : Composed rest qs visible) :
      Composed (q ++ rest) (q :: qs) visible

namespace Composed

variable {t visible : Text} {qs : List Text}

theorem whole (h : Composed t qs visible) : Escape.Whole t := by
  induction h with
  | nil => exact whole_of_notMem List.not_mem_nil
  | run free _ ih => exact (whole_of_notMem free).append ih
  | sequence shape closed _ ih =>
    have first : Escape.Whole _ := (shape.whole closed).source
    exact first.append ih

theorem sequences_eq (h : Composed t qs visible) : sequences t = qs := by
  induction h with
  | nil => exact sequences_of_notMem List.not_mem_nil
  | run free _ ih =>
    rw [sequences_append (whole_of_notMem free), sequences_of_notMem free, ih, List.nil_append]
  | @sequence q rest _ _ shape closed _ ih =>
    have cut : pieces (q ++ rest) = .sequence q :: pieces rest := shape.whole closed rest
    rw [← ih, sequences, cut]
    rfl

theorem strip_eq (h : Composed t qs visible) : strip t = visible := by
  induction h with
  | nil => exact strip_of_notMem List.not_mem_nil
  | run free _ ih => rw [strip_append (whole_of_notMem free), strip_of_notMem free, ih]
  | @sequence q rest _ _ shape closed _ ih =>
    have cut : pieces (q ++ rest) = .sequence q :: pieces rest := shape.whole closed rest
    rw [← ih, strip, cut]
    rfl

end Composed

theorem pieces_truncate {t : Text} (h : Whole t) (limit : ℕ) :
    pieces (truncate limit t) = cutPieces limit (pieces t) := by
  have whole : ∀ p ∈ cutPieces limit (pieces t), p.Whole := by
    intro p mem
    rcases mem_cutPieces mem with mem | rfl
    · exact h p mem
    · exact whole_visible (by decide)
  have cut := pieces_flatMap_append whole []
  rwa [← truncate_eq_flatMap_source, List.append_nil, pieces_nil, List.append_nil] at cut

theorem strip_truncate {t : Text} (h : Whole t) (limit : ℕ) :
    strip (truncate limit t) =
      if (strip t).length ≤ limit then strip t
      else (strip t).take (limit - 1) ++ markOf limit := by
  have shown : strip (truncate limit t) = visibleOf (cutPieces limit (pieces t)) :=
    congrArg visibleOf (pieces_truncate h limit)
  rw [shown]
  split
  · next fits => exact congrArg visibleOf (if_pos fits)
  · next wide => exact visibleOf_cutPieces (Nat.not_le.1 wide)

theorem truncate_truncate {t : Text} (h : Whole t) (first second : ℕ) :
    truncate second (truncate first t) = truncate (min first second) t := by
  rw [truncate_eq_flatMap_source second, pieces_truncate h, cutPieces_cutPieces,
    ← truncate_eq_flatMap_source]

theorem visibleWidth_truncate_le (limit : ℕ) (t : Text) :
    visibleWidth (truncate limit t) ≤ limit := by
  have cut : ∀ q, .sequence q ∈ cutPieces limit (pieces t) → IsSequence q := by
    intro q mem
    rcases mem_cutPieces mem with mem | marked
    · exact isSequence_of_mem_pieces mem
    · exact nomatch marked
  have shown := (strip_flatMap_source_sublist _ cut).length_le
  rw [← truncate_eq_flatMap_source] at shown
  exact Nat.le_trans shown (length_cutPieces limit (pieces t))

/-- Every text fits its width once it is cut, and one that fits is not cut. Cut from runs and
sequences, a text keeps its sequences and shows its first characters and an ellipsis; cut twice, it
is cut once. -/
theorem truncate_lawful (t : Text) (limit : ℕ) :
    visibleWidth (truncate limit t) ≤ limit ∧
      (visibleWidth t ≤ limit → truncate limit t = t) ∧
      ∀ qs visible, Composed t qs visible →
        (limit < visibleWidth t →
          sequences (truncate limit t) = qs ∧
            strip (truncate limit t) =
              if limit = 0 then [] else visible.take (limit - 1) ++ [ellipsis]) ∧
        ∀ further, truncate further (truncate limit t) = truncate (min limit further) t := by
  refine ⟨visibleWidth_truncate_le limit t, fun fits => if_pos fits, ?_⟩
  intro qs visible composed
  refine ⟨fun wide => ⟨?_, ?_⟩, truncate_truncate composed.whole limit⟩
  · have kept : sequencesOf (pieces t) = qs := composed.sequences_eq
    have cut := sequencesOf_cutPieces limit (pieces t)
    rwa [← pieces_truncate composed.whole, kept] at cut
  · have cut := visibleOf_cutPieces wide
    have shown : visibleOf (pieces t) = visible := composed.strip_eq
    rw [← pieces_truncate composed.whole, shown, markOf] at cut
    change strip (truncate limit t) = _ at cut
    rw [cut]
    split
    · next zero => rw [zero, List.take_zero, List.append_nil]
    · rfl

/-- A command that a BEL ends in front of the cut, and a style behind it. -/
theorem truncate_lawful_command :
    strip (truncate 3 "a\x1b]0;t\x07bcd\x1b[1m".toList) = "ab…".toList ∧
      sequences (truncate 3 "a\x1b]0;t\x07bcd\x1b[1m".toList) =
        ["\x1b]0;t\x07".toList, "\x1b[1m".toList] := by
  have command : IsSequence "\x1b]0;t\x07".toList :=
    .command ⟨"0;t".toList, List.all_eq_true.1 (by decide), .inl rfl⟩
  have control : IsSequence "\x1b[1m".toList :=
    .control ⟨['1'], [], 'm', rfl, List.all_eq_true.1 (by decide), by simp, by decide⟩
  have first : esc ∉ "a".toList := by decide
  have behind : esc ∉ "bcd".toList := by decide
  have composed : Composed "a\x1b]0;t\x07bcd\x1b[1m".toList
      ["\x1b]0;t\x07".toList, "\x1b[1m".toList] "abcd".toList :=
    .run first (.sequence command (by decide) (.run behind (.sequence control (by decide) .nil)))
  have wide : 3 < visibleWidth "a\x1b]0;t\x07bcd\x1b[1m".toList := by
    rw [visibleWidth, composed.strip_eq]
    decide
  have cut := ((truncate_lawful _ 3).2.2 _ _ composed).1 wide
  exact ⟨cut.2, cut.1⟩

end StyledText.Escape
