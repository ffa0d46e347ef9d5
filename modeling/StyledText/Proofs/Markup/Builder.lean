import Mathlib.Data.List.Perm.Basic
import StyledText.Proofs.Markup.Frames

/-!
# The builder between two tokens

The tally counts the open frames of every name, so it tells whether a closing tag has a partner and
no count is lowered below zero. Frames start in the order in which they were opened, and none behind
the nodes read so far. Main statement: this holds after any tokens, and splicing then keeps the nodes
in order and puts the markup of every unclosed frame among them once, where the frame began.
-/
namespace StyledText.Markup.Builder

/-! ### Spliced lists -/

/-- A part of a spliced list: a frame, or a node with its index. -/
abbrev Part := Frame ⊕ Node × ℕ

def Part.node : Part → Node
  | .inl f => .text f.tag.markup
  | .inr (n, _) => n

/-- Whether one part may stand in front of another. Two frames may, and two nodes; a frame stands in
front of the nodes from its start on and behind the others. -/
def Part.Before : Part → Part → Prop
  | .inl f, .inr (_, k) => f.start ≤ k
  | .inr (_, k), .inl f => k < f.start
  | _, _ => True

/-- The list holds the nodes, with indices from `i` on, and the markup of every frame once, both in
their order, and each markup stands directly in front of the first node at or after the start of
its frame. -/
def Spliced (frames : List Frame) (i : ℕ) (nodes list : List Node) : Prop :=
  ∃ parts : List Part, parts.map Part.node = list ∧ parts.filterMap Sum.getLeft? = frames ∧
    parts.filterMap Sum.getRight? = nodes.zipIdx i ∧ parts.Pairwise Part.Before

theorem mem_zipIdx_of_mem {parts : List Part} {nodes : List Node} {i k : ℕ} {n : Node}
    (indexed : parts.filterMap Sum.getRight? = nodes.zipIdx i) (mem : .inr (n, k) ∈ parts) :
    (n, k) ∈ nodes.zipIdx i := by
  rw [← indexed, List.mem_filterMap]
  exact ⟨_, mem, rfl⟩

theorem Spliced.cons_frame {f : Frame} {frames : List Frame} {i : ℕ} {nodes list : List Node}
    (h : Spliced frames i nodes list) (start : nodes ≠ [] → f.start ≤ i) :
    Spliced (f :: frames) i nodes (.text f.tag.markup :: list) := by
  obtain ⟨parts, rfl, rfl, indexed, before⟩ := h
  refine ⟨.inl f :: parts, rfl, rfl, indexed, List.pairwise_cons.2 ⟨?_, before⟩⟩
  rintro (g | ⟨n, k⟩) mem
  · trivial
  · have found := mem_zipIdx_of_mem indexed mem
    have some : nodes ≠ [] := List.ne_nil_of_mem (List.fst_mem_of_mem_zipIdx found)
    exact Nat.le_trans (start some) (List.le_snd_of_mem_zipIdx found)

theorem Spliced.cons_node {n : Node} {frames : List Frame} {i : ℕ} {nodes list : List Node}
    (h : Spliced frames (i + 1) nodes list) (starts : ∀ f ∈ frames, i < f.start) :
    Spliced frames i (n :: nodes) (n :: list) := by
  obtain ⟨parts, rfl, rfl, indexed, before⟩ := h
  refine ⟨.inr (n, i) :: parts, rfl, rfl, ?_, List.pairwise_cons.2 ⟨?_, before⟩⟩
  · rw [List.zipIdx_cons, ← indexed]
    rfl
  · rintro (f | ⟨m, k⟩) mem
    · exact starts f (List.mem_filterMap.2 ⟨_, mem, rfl⟩)
    · trivial

/-- Frames in the order of their starts are spliced into their places. -/
theorem spliced_splice {frames : List Frame}
    (ordered : frames.Pairwise fun outer inner => outer.start ≤ inner.start) (i : ℕ)
    (nodes : List Node) : Spliced frames i nodes (splice frames i nodes) := by
  fun_induction splice frames i nodes with
  | case1 i nodes =>
    refine ⟨(nodes.zipIdx i).map .inr, ?_, by simp, ?_, ?_⟩
    · rw [List.map_map]
      exact List.zipIdx_map_fst i nodes
    · rw [List.filterMap_map]
      exact List.filterMap_some
    · rw [List.pairwise_map]
      exact List.pairwise_of_forall fun _ _ => trivial
  | case2 f fs i ih =>
    -- Behind the last node the rest of the frames follow, wherever they start.
    exact (ih (List.pairwise_cons.1 ordered).2).cons_frame fun some => absurd rfl some
  | case3 f fs i n ns start ih =>
    exact (ih (List.pairwise_cons.1 ordered).2).cons_frame fun _ => start
  | case4 f fs i n ns start ih =>
    refine (ih ordered).cons_node fun g mem => ?_
    have first : i < f.start := Nat.lt_of_not_le start
    rcases List.mem_cons.1 mem with rfl | mem
    · exact first
    · exact Nat.lt_of_lt_of_le first ((List.pairwise_cons.1 ordered).1 g mem)

/-! ### Searching for a partner -/

theorem splitFrames_eq_some {name : Text} {frames above below : List Frame} {found : Frame}
    (h : splitFrames name frames = some (above, found, below)) :
    frames = above ++ found :: below ∧ found.tag.name = name := by
  induction frames generalizing above with
  | nil => exact nomatch h
  | cons f fs ih =>
    rw [splitFrames] at h
    split at h
    · next same =>
      obtain ⟨rfl, rfl, rfl⟩ : [] = above ∧ f = found ∧ fs = below := by simpa using h
      exact ⟨rfl, same⟩
    · obtain ⟨⟨inner, partner, outer⟩, split, same⟩ := Option.map_eq_some_iff.1 h
      obtain ⟨rfl, rfl, rfl⟩ : f :: inner = above ∧ partner = found ∧ outer = below := by
        simpa using same
      obtain ⟨rfl, name⟩ := ih split
      exact ⟨rfl, name⟩

theorem isSome_splitFrames_iff {name : Text} {frames : List Frame} :
    (splitFrames name frames).isSome ↔ openCount name frames ≠ 0 := by
  rw [ne_eq, openCount_eq_zero]
  induction frames with
  | nil => simp [splitFrames]
  | cons f fs ih =>
    by_cases same : f.tag.name = name
    · simp [splitFrames, same]
    · simp [splitFrames, same, ih]

/-! ### Between two tokens -/

/-- The tally is exact. Frames, of which the innermost comes first, start in the order in which they
were opened and not behind the nodes read so far. -/
structure Orderly (b : Builder) : Prop where
  tally : ∀ name, b.tally.count name = openCount name b.frames
  starts : b.frames.Pairwise fun inner outer => outer.start ≤ inner.start
  inside : ∀ f ∈ b.frames, f.start ≤ b.nodes.size

variable {b : Builder}

theorem Orderly.isSome_splitFrames_iff (h : b.Orderly) (name : Text) :
    b.tally.count name ≠ 0 ↔ (splitFrames name b.frames).isSome := by
  rw [h.tally, Builder.isSome_splitFrames_iff]

/-- Frames may be forgotten in any order: a count is never zero when one is taken from it. -/
theorem Orderly.count_forget_pos (h : b.Orderly) {f : Frame} {gone : List Frame}
    (some : (f :: gone).Subperm b.frames) : 0 < (forget b.tally gone).count f.tag.name := by
  have counted : openCount f.tag.name (f :: gone) ≤ openCount f.tag.name b.frames :=
    some.countP_le _
  rw [openCount_cons, if_pos rfl] at counted
  rw [count_forget, h.tally]
  omega

theorem Orderly.spliced_above (h : b.Orderly) {name : Text} {above below : List Frame}
    {found : Frame} (split : splitFrames name b.frames = some (above, found, below)) (i : ℕ)
    (nodes : List Node) : Spliced above.reverse i nodes (splice above.reverse i nodes) := by
  have starts := h.starts
  rw [(splitFrames_eq_some split).1] at starts
  exact spliced_splice (List.pairwise_reverse.2 (List.pairwise_append.1 starts).1) i nodes

theorem Orderly.spliced_finish (h : b.Orderly) :
    Spliced b.frames.reverse 0 b.nodes.toList b.finish :=
  spliced_splice (List.pairwise_reverse.2 h.starts) 0 b.nodes.toList

theorem pairwise_framesOf (root : List Node) (levels : List Level) :
    (Nesting.framesOf root levels).Pairwise fun inner outer => outer.start ≤ inner.start := by
  induction levels with
  | nil => exact List.Pairwise.nil
  | cons l ls ih => exact List.pairwise_cons.2 ⟨fun f mem => Nesting.start_le_length mem, ih⟩

theorem Follows.orderly {s : Nesting} (h : b.Follows s) : b.Orderly where
  tally := h.tally
  starts := by
    rw [h.frames]
    exact pairwise_framesOf s.root s.levels
  inside f mem := by
    rw [h.frames] at mem
    rw [← Array.length_toList, h.nodes]
    exact Nesting.start_le_length mem

/-- The builder when the tokens have been read. -/
def after (tokens : List Token) : Builder := tokens.foldl step {}

/-- After any tokens the builder is orderly. The tally is positive exactly for the names that the
search for a partner finds, and stays so for every open frame while others are forgotten. At a
closing tag and at the end of the input the unclosed frames are spliced into their places. -/
theorem orderly_after (tokens : List Token) :
    (after tokens).Orderly ∧
      (∀ name, (after tokens).tally.count name ≠ 0 ↔
        (splitFrames name (after tokens).frames).isSome) ∧
      (∀ f gone, (f :: gone).Subperm (after tokens).frames →
        0 < (forget (after tokens).tally gone).count f.tag.name) ∧
      (∀ name above found below,
        splitFrames name (after tokens).frames = some (above, found, below) →
          Spliced above.reverse found.start ((after tokens).nodes.toList.drop found.start)
            (splice above.reverse found.start ((after tokens).nodes.toList.drop found.start))) ∧
      Spliced (after tokens).frames.reverse 0 (after tokens).nodes.toList
        (after tokens).finish := by
  have orderly : (after tokens).Orderly := (follows_empty.foldl_step tokens).orderly
  exact ⟨orderly, orderly.isSome_splitFrames_iff, fun _ _ => orderly.count_forget_pos,
    fun _ _ _ _ split => orderly.spliced_above split _ _, orderly.spliced_finish⟩

/-- The search for `a` passes over two frames, the inner of which starts behind the second node. -/
theorem orderly_after_unclosed :
    let tag (name : Text) : Tag := ⟨.opening, name, [], '[' :: name ++ [']']⟩
    let b := after [.tag (tag "a"), .literal "1", .tag (tag "b"), .literal "2", .tag (tag "c")]
    splitFrames "a".toList b.frames = some ([⟨tag "c", 2⟩, ⟨tag "b", 1⟩], ⟨tag "a", 0⟩, []) ∧
      List.Subperm [⟨tag "c", 2⟩, ⟨tag "b", 1⟩] b.frames ∧
      0 < (forget b.tally [⟨tag "b", 1⟩]).count "c".toList ∧
      Spliced [⟨tag "b", 1⟩, ⟨tag "c", 2⟩] 0 (b.nodes.toList.drop 0)
        (splice [⟨tag "b", 1⟩, ⟨tag "c", 2⟩] 0 (b.nodes.toList.drop 0)) := by
  intro tag b
  have run := orderly_after
    [.tag (tag "a"), .literal "1", .tag (tag "b"), .literal "2", .tag (tag "c")]
  have split : splitFrames "a".toList b.frames =
      some ([⟨tag "c", 2⟩, ⟨tag "b", 1⟩], ⟨tag "a", 0⟩, []) := rfl
  have inner : List.Subperm [⟨tag "c", 2⟩, ⟨tag "b", 1⟩] b.frames :=
    List.Sublist.subperm (List.sublist_append_left _ [(⟨tag "a", 0⟩ : Frame)])
  exact ⟨split, inner, run.2.2.1 _ _ inner, run.2.2.2.1 _ _ _ _ split⟩

end StyledText.Markup.Builder
