import StyledText.Proofs.Markup.Nesting

/-!
# Frames and levels

The builder follows a nesting: its one list holds the children of all levels in order, a frame
starts where the children of its level do, and the tally counts the frames of every name.
Main statement: both give the same tree.
-/
namespace StyledText.Markup

namespace Tally

theorem count_cons (name k : Text) (n : ℕ) (rest : Tally) :
    count name ((k, n) :: rest) = if name = k then n else count name rest := by
  by_cases h : name = k
  · simp [count, h]
  · have hb : (name == k) = false := by simpa using h
    simp [count, List.lookup_cons, h, hb]

theorem count_change (f : ℕ → ℕ) (name key : Text) (tally : Tally) :
    count name (change f key tally) =
      if name = key then f (count key tally) else count name tally := by
  induction tally with
  | nil => exact count_cons name key (f 0) []
  | cons entry rest ih =>
    obtain ⟨k, n⟩ := entry
    by_cases hk : k = key
    · subst hk
      simp only [change, if_true, count_cons]
      split <;> rfl
    · have hk' : key ≠ k := Ne.symm hk
      simp only [change, if_neg hk, if_neg hk', count_cons, ih]
      split
      · next h => rw [if_neg (h ▸ hk)]
      · rfl

end Tally

namespace Builder

def openCount (name : Text) (frames : List Frame) : ℕ :=
  frames.countP (·.tag.name = name)

theorem openCount_cons (name : Text) (f : Frame) (fs : List Frame) :
    openCount name (f :: fs) = openCount name fs + if f.tag.name = name then 1 else 0 := by
  simp [openCount, List.countP_cons]

theorem openCount_append (name : Text) (above below : List Frame) :
    openCount name (above ++ below) = openCount name above + openCount name below :=
  List.countP_append

theorem openCount_eq_zero {name : Text} {frames : List Frame} :
    openCount name frames = 0 ↔ ∀ f ∈ frames, f.tag.name ≠ name := by
  simp [openCount, List.countP_eq_zero]

theorem count_forget (name : Text) (tally : Tally) (frames : List Frame) :
    (forget tally frames).count name = tally.count name - openCount name frames := by
  induction frames generalizing tally with
  | nil => simp [forget, openCount]
  | cons f fs ih =>
    have step := ih (tally.decrement f.tag.name)
    simp only [forget, List.foldl_cons] at step ⊢
    rw [step, openCount_cons, Tally.decrement, Tally.count_change]
    split
    · next h =>
      subst h
      simp only [if_true]
      omega
    · next h => simp [Ne.symm h]

theorem splitFrames_append {name : Text} {found : Frame} (above below : List Frame)
    (hname : found.tag.name = name) (others : ∀ f ∈ above, f.tag.name ≠ name) :
    splitFrames name (above ++ found :: below) = some (above, found, below) := by
  induction above with
  | nil => simp [splitFrames, hname]
  | cons f fs ih =>
    have hf : f.tag.name ≠ name := others f (by simp)
    simp [splitFrames, hf, ih fun f' h => others f' (by simp [h])]

/-! ### Splicing -/

theorem splice_nil (i : ℕ) (nodes : List Node) : splice [] i nodes = nodes := by
  cases nodes <;> simp [splice]

theorem splice_of_le {f : Frame} {i : ℕ} (h : f.start ≤ i) (fs : List Frame)
    (nodes : List Node) :
    splice (f :: fs) i nodes = .text f.tag.markup :: splice fs i nodes := by
  cases nodes with
  | nil => rw [splice]
  | cons n ns => rw [splice, if_pos h]

theorem splice_append_nodes {f : Frame} {fs : List Frame} {i : ℕ} (nodes rest : List Node)
    (h : i + nodes.length ≤ f.start) :
    splice (f :: fs) i (nodes ++ rest) =
      nodes ++ splice (f :: fs) (i + nodes.length) rest := by
  induction nodes generalizing i with
  | nil => simp
  | cons n ns ih =>
    have hi : ¬ f.start ≤ i := by
      simp only [List.length_cons] at h
      omega
    have hs : i + 1 + ns.length ≤ f.start := by
      simp only [List.length_cons] at h
      omega
    rw [List.cons_append, splice, if_neg hi, ih hs]
    simp [Nat.add_comm 1, Nat.add_assoc]

/-- One more frame goes between the nodes in front of its start and its children. -/
theorem splice_concat {f : Frame} (fs : List Frame) (i : ℕ) (nodes children : List Node)
    (starts : ∀ f' ∈ fs, f'.start ≤ f.start) (h : f.start = i + nodes.length) :
    splice (fs ++ [f]) i (nodes ++ children) =
      splice fs i nodes ++ .text f.tag.markup :: children := by
  -- Along the splice of the frames further out; once they are placed, only the new one is left.
  fun_induction splice fs i nodes with
  | case1 i nodes =>
    rw [List.nil_append, splice_append_nodes nodes children (Nat.le_of_eq h.symm),
      splice_of_le (Nat.le_of_eq h), splice_nil]
  | case2 f' fs i ih =>
    have hi : f'.start ≤ i := by simpa [h] using starts f' (by simp)
    have rest := ih (fun g hg => starts g (by simp [hg])) h
    rw [List.cons_append, splice_of_le hi, rest, List.cons_append]
  | case3 f' fs i n ns hi ih =>
    have rest := ih (fun g hg => starts g (by simp [hg])) h
    rw [List.cons_append, splice_of_le hi, rest, List.cons_append]
  | case4 f' fs i n ns hi ih =>
    have rest := ih starts (by simp only [List.length_cons] at h; omega)
    rw [List.cons_append, List.cons_append, splice, if_neg hi, ← List.cons_append, rest,
      List.cons_append]

end Builder

namespace Nesting

/-- The children of all levels, the outermost first. -/
def nodesOf (root : List Node) : List Level → List Node
  | [] => root
  | l :: ls => nodesOf root ls ++ l.children

/-- A frame for every level; it starts behind the nodes of the levels further out. -/
def framesOf (root : List Node) : List Level → List Frame
  | [] => []
  | l :: ls => ⟨l.tag, (nodesOf root ls).length⟩ :: framesOf root ls

theorem nodesOf_append (root : List Node) (above below : List Level) :
    nodesOf root (above ++ below) = nodesOf (nodesOf root below) above := by
  induction above with
  | nil => rfl
  | cons l ls ih => simp only [List.cons_append, nodesOf, ih]

theorem framesOf_append (root : List Node) (above below : List Level) :
    framesOf root (above ++ below) =
      framesOf (nodesOf root below) above ++ framesOf root below := by
  induction above with
  | nil => rfl
  | cons l ls ih => simp only [List.cons_append, framesOf, ih, nodesOf_append]

theorem map_tag_framesOf (root : List Node) (levels : List Level) :
    (framesOf root levels).map Frame.tag = levels.map Level.tag := by
  induction levels with
  | nil => rfl
  | cons l ls ih => simp only [framesOf, List.map_cons, ih]

theorem forall_name_framesOf {name : Text} {root : List Node} {levels : List Level} :
    (∀ f ∈ framesOf root levels, f.tag.name ≠ name) ↔ ∀ l ∈ levels, l.tag.name ≠ name := by
  have frames : (∀ f ∈ framesOf root levels, f.tag.name ≠ name) ↔
      ∀ t ∈ (framesOf root levels).map Frame.tag, t.name ≠ name := by simp
  rw [frames, map_tag_framesOf]
  simp

theorem root_prefix_nodesOf (root : List Node) (levels : List Level) :
    root <+: nodesOf root levels := by
  induction levels with
  | nil => exact List.prefix_rfl
  | cons l ls ih => exact ih.trans (List.prefix_append _ _)

theorem nodesOf_append_nodes (s : Nesting) (nodes : List Node) :
    nodesOf (s.append nodes).root (s.append nodes).levels =
      nodesOf s.root s.levels ++ nodes := by
  obtain ⟨root, levels⟩ := s
  cases levels with
  | nil => rfl
  | cons l ls => exact (List.append_assoc _ _ _).symm

theorem framesOf_append_nodes (s : Nesting) (nodes : List Node) :
    framesOf (s.append nodes).root (s.append nodes).levels = framesOf s.root s.levels := by
  obtain ⟨root, levels⟩ := s
  cases levels <;> rfl

theorem start_le_length {root : List Node} {levels : List Level} {f : Frame}
    (h : f ∈ framesOf root levels) : f.start ≤ (nodesOf root levels).length := by
  induction levels with
  | nil => simp [framesOf] at h
  | cons l ls ih =>
    rw [nodesOf, List.length_append]
    rcases List.mem_cons.1 h with rfl | h
    · exact Nat.le_add_right _ _
    · exact Nat.le_trans (ih h) (Nat.le_add_right _ _)

/-- Splicing the frames of levels into their nodes puts every level there as text. -/
theorem splice_framesOf (root : List Node) (levels : List Level) {i : ℕ}
    (h : i ≤ root.length) :
    Builder.splice (framesOf root levels).reverse i ((nodesOf root levels).drop i) =
      root.drop i ++ asTexts levels := by
  induction levels with
  | nil => simp [framesOf, nodesOf, Builder.splice_nil]
  | cons l ls ih =>
    have inside : i ≤ (nodesOf root ls).length :=
      Nat.le_trans h (root_prefix_nodesOf root ls).length_le
    rw [framesOf, nodesOf, List.reverse_cons, List.drop_append_of_le_length inside,
      Builder.splice_concat, ih, asTexts_cons, Level.asText, List.append_assoc]
    · intro f hf
      exact start_le_length (List.mem_reverse.1 hf)
    · rw [List.length_drop]
      simp only
      omega

end Nesting

namespace Builder

/-- The one list holds the nodes of all levels, every level has its frame, and the tally is
exact. -/
structure Follows (b : Builder) (s : Nesting) : Prop where
  nodes : b.nodes.toList = Nesting.nodesOf s.root s.levels
  frames : b.frames = Nesting.framesOf s.root s.levels
  tally : ∀ name, b.tally.count name = openCount name b.frames

variable {b : Builder} {s : Nesting}

theorem follows_empty : Follows {} {} := ⟨rfl, rfl, fun _ => rfl⟩

theorem Follows.push (h : b.Follows s) (node : Node) :
    (b.push node).Follows (s.append [node]) where
  nodes := by simp [Builder.push, h.nodes, Nesting.nodesOf_append_nodes]
  frames := by simp [Builder.push, h.frames, Nesting.framesOf_append_nodes]
  tally := h.tally

theorem Follows.openTag (h : b.Follows s) (tag : Tag) :
    (b.openTag tag).Follows (s.openTag tag) where
  nodes := by simp [Builder.openTag, Nesting.openTag, Nesting.nodesOf, h.nodes]
  frames := by
    have size : b.nodes.size = (Nesting.nodesOf s.root s.levels).length := by
      rw [← h.nodes, Array.length_toList]
    simp [Builder.openTag, Nesting.openTag, Nesting.framesOf, h.frames, size]
  tally name := by
    simp only [Builder.openTag, openCount_cons, Tally.increment, Tally.count_change, h.tally]
    by_cases hn : name = tag.name
    · simp [hn]
    · simp [hn, Ne.symm hn]

theorem Follows.count_eq_zero (h : b.Follows s) {name : Text} :
    b.tally.count name = 0 ↔ ∀ l ∈ s.levels, l.tag.name ≠ name := by
  rw [h.tally, openCount_eq_zero, h.frames]
  exact Nesting.forall_name_framesOf

theorem Follows.closeTag_paired (h : b.Follows s) {tag : Tag} {found : Level}
    {above below : List Level} (split : s.levels = above ++ found :: below)
    (name : found.tag.name = tag.name) (others : ∀ l ∈ above, l.tag.name ≠ tag.name) :
    (b.closeTag tag).Follows (Nesting.append ⟨s.root, below⟩
      [.ofTag found.tag (found.children ++ asTexts above) (some tag.markup)]) := by
  -- `base` stays as it is. What follows it are the children of the found level and the levels
  -- inside it, whose frames are spliced in.
  let base := Nesting.nodesOf s.root below
  let inner := Nesting.framesOf (base ++ found.children) above
  let outer := Nesting.framesOf s.root below
  have hframes : b.frames = inner ++ ⟨found.tag, base.length⟩ :: outer := by
    rw [h.frames, split, Nesting.framesOf_append]
    rfl
  have hnodes : b.nodes.toList = Nesting.nodesOf (base ++ found.children) above := by
    rw [h.nodes, split, Nesting.nodesOf_append]
    rfl
  have counted : b.tally.count tag.name ≠ 0 := by
    rw [Ne, h.count_eq_zero]
    intro none
    exact none found (by simp [split]) name
  have nearest : splitFrames tag.name b.frames =
      some (inner, ⟨found.tag, base.length⟩, outer) := by
    rw [hframes]
    exact splitFrames_append _ _ name (Nesting.forall_name_framesOf.2 others)
  have outside : base = b.nodes.toList.take base.length := by
    apply List.prefix_iff_eq_take.1
    rw [hnodes]
    exact (List.prefix_append _ _).trans (Nesting.root_prefix_nodesOf _ _)
  have children : splice inner.reverse base.length (b.nodes.toList.drop base.length) =
      found.children ++ asTexts above := by
    rw [hnodes, Nesting.splice_framesOf _ _ (List.prefix_append _ _).length_le]
    simp
  have closed : b.closeTag tag =
      { nodes := (b.nodes.take base.length).push
          (.ofTag found.tag (found.children ++ asTexts above) (some tag.markup))
        frames := outer
        tally := forget b.tally (⟨found.tag, base.length⟩ :: inner) } := by
    rw [Builder.closeTag, if_neg counted, nearest]
    simp only [children]
  rw [closed]
  constructor
  · rw [Nesting.nodesOf_append_nodes, Array.toList_push, Array.take_eq_extract,
      Array.toList_extract, List.extract_eq_take_drop]
    simpa using outside.symm
  · rw [Nesting.framesOf_append_nodes]
  · intro other
    simp only [count_forget, h.tally, hframes, openCount_append, openCount_cons]
    omega

theorem Follows.closeTag (h : b.Follows s) (tag : Tag) :
    (b.closeTag tag).Follows (s.closeTag tag) := by
  rcases s.exists_split tag.name with ⟨above, found, below, split, name, others⟩ | others
  · rw [Nesting.closeTag_of_split split name others]
    exact h.closeTag_paired split name others
  · rw [Nesting.closeTag_of_forall others, Builder.closeTag, if_pos (h.count_eq_zero.2 others)]
    exact h.push _

theorem Follows.step (h : b.Follows s) (token : Token) :
    (b.step token).Follows (s.step token) := by
  cases token with
  | literal text => exact h.push _
  | escaped bracket => exact h.push _
  | tag tag =>
    cases kind : tag.kind with
    | opening => simpa [Builder.step, Nesting.step, kind] using h.openTag tag
    | selfClosing => simpa [Builder.step, Nesting.step, kind] using h.push (.ofTag tag [] none)
    | closing => simpa [Builder.step, Nesting.step, kind] using h.closeTag tag

theorem Follows.foldl_step (h : b.Follows s) (tokens : List Token) :
    (tokens.foldl Builder.step b).Follows (tokens.foldl Nesting.step s) := by
  induction tokens generalizing b s with
  | nil => exact h
  | cons token tokens ih => exact ih (h.step token)

theorem Follows.finish_eq (h : b.Follows s) : b.finish = s.finish := by
  have spliced := Nesting.splice_framesOf s.root s.levels (Nat.zero_le _)
  rw [Builder.finish, h.frames, h.nodes, Nesting.finish_eq]
  simpa using spliced

end Builder

theorem treeOf_eq_nesting (tokens : List Token) : treeOf tokens = Nesting.treeOf tokens :=
  (Builder.follows_empty.foldl_step tokens).finish_eq

/-- One list with start indices and a tally of names gives the tree that a stack of levels
gives. -/
theorem parse_eq_nesting (input : Text) : parse input = Nesting.treeOf (tokenize input) :=
  treeOf_eq_nesting (tokenize input)

end StyledText.Markup
