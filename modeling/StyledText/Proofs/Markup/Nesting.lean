import Mathlib.Data.List.Basic
import StyledText.Markup.Node

/-!
# Nesting

The tree of a token sequence, read off a stack on which every open tag owns its children.
The builder keeps the nodes of all open tags in one list instead; both give the same tree.
-/
namespace StyledText.Markup

/-- An open tag and the nodes read since it was opened. -/
structure Level where
  tag : Tag
  children : List Node

/-- An open tag that stays open: its markup as text, then its children. -/
def Level.asText (l : Level) : List Node := .text l.tag.markup :: l.children

/-- Nodes outside every open tag, and the open tags from the innermost out. -/
structure Nesting where
  root : List Node := []
  levels : List Level := []

namespace Nesting

def append (s : Nesting) (nodes : List Node) : Nesting :=
  match s.levels with
  | [] => { s with root := s.root ++ nodes }
  | l :: ls => { s with levels := { l with children := l.children ++ nodes } :: ls }

def openTag (s : Nesting) (tag : Tag) : Nesting := { s with levels := ⟨tag, []⟩ :: s.levels }

/-- The innermost open tag becomes text, and its children follow it one level further out. -/
def degrade (s : Nesting) : Nesting :=
  match s.levels with
  | [] => s
  | l :: ls => { s with levels := ls }.append l.asText

@[simp] theorem length_levels_append (s : Nesting) (nodes : List Node) :
    (s.append nodes).levels.length = s.levels.length := by
  unfold append
  split <;> simp [*]

/-- Levels degrade until the innermost one has the name of the closing tag; that one becomes
an element. -/
def pair (tag : Tag) (s : Nesting) : Nesting :=
  match _h : s.levels with
  | [] => s
  | l :: ls =>
    if l.tag.name = tag.name then
      { s with levels := ls }.append [.ofTag l.tag l.children (some tag.markup)]
    else pair tag s.degrade
termination_by s.levels.length
decreasing_by simp [degrade, _h]

/-- A closing tag without an open tag of its name is text. -/
def closeTag (s : Nesting) (tag : Tag) : Nesting :=
  if s.levels.any (·.tag.name = tag.name) then s.pair tag else s.append [.text tag.markup]

def step (s : Nesting) : Token → Nesting
  | .tag t =>
    match t.kind with
    | .opening => s.openTag t
    | .selfClosing => s.append [.ofTag t [] none]
    | .closing => s.closeTag t
  | token => s.append [.text token.text]

def finish (s : Nesting) : List Node :=
  match _h : s.levels with
  | [] => s.root
  | _ :: _ => s.degrade.finish
termination_by s.levels.length
decreasing_by simp [degrade, _h]

/-- The tree of a token sequence, built on a stack of levels. -/
def treeOf (tokens : List Token) : List Node := (tokens.foldl step {}).finish

end Nesting

/-- Open tags that stay open, the outermost first. -/
def asTexts (levels : List Level) : List Node := levels.reverse.flatMap Level.asText

@[simp] theorem asTexts_nil : asTexts [] = [] := rfl

@[simp] theorem asTexts_cons (l : Level) (ls : List Level) :
    asTexts (l :: ls) = asTexts ls ++ l.asText := by
  simp [asTexts]

theorem asTexts_append (above below : List Level) :
    asTexts (above ++ below) = asTexts below ++ asTexts above := by
  simp [asTexts]

namespace Nesting

@[simp] theorem append_nil (s : Nesting) : s.append [] = s := by
  obtain ⟨root, levels⟩ := s
  cases levels <;> simp [append]

theorem append_append (s : Nesting) (first second : List Node) :
    (s.append first).append second = s.append (first ++ second) := by
  obtain ⟨root, levels⟩ := s
  cases levels <;> simp [append]

theorem append_cons (root : List Node) (l : Level) (ls : List Level) (nodes : List Node) :
    append ⟨root, l :: ls⟩ nodes = ⟨root, ⟨l.tag, l.children ++ nodes⟩ :: ls⟩ := rfl

theorem pair_cons_of_eq {tag inner : Tag} (name : inner.name = tag.name)
    (root children : List Node) (ls : List Level) :
    pair tag ⟨root, ⟨inner, children⟩ :: ls⟩ =
      append ⟨root, ls⟩ [.ofTag inner children (some tag.markup)] := by
  rw [pair.eq_def]
  simp [name]

theorem pair_cons_of_ne {tag inner : Tag} (name : inner.name ≠ tag.name)
    (root children : List Node) (ls : List Level) :
    pair tag ⟨root, ⟨inner, children⟩ :: ls⟩ =
      pair tag (append ⟨root, ls⟩ (.text inner.markup :: children)) := by
  rw [pair.eq_def]
  simp [name, degrade, Level.asText]

/-- The levels above the paired one end up behind its own children, as text. -/
theorem pair_append {tag : Tag} {found : Level} (root : List Node) (above below : List Level)
    (nodes : List Node) (name : found.tag.name = tag.name)
    (others : ∀ l ∈ above, l.tag.name ≠ tag.name) :
    pair tag (append ⟨root, above ++ found :: below⟩ nodes) =
      append ⟨root, below⟩
        [.ofTag found.tag (found.children ++ asTexts above ++ nodes) (some tag.markup)] := by
  induction above generalizing nodes with
  | nil =>
    rw [List.nil_append, append_cons, pair_cons_of_eq name]
    simp
  | cons l ls ih =>
    have hl : l.tag.name ≠ tag.name := others l (by simp)
    have hls : ∀ l ∈ ls, l.tag.name ≠ tag.name := fun l' h => others l' (by simp [h])
    rw [List.cons_append, append_cons, pair_cons_of_ne hl, ih _ hls]
    simp [Level.asText]

theorem closeTag_of_split {s : Nesting} {tag : Tag} {found : Level} {above below : List Level}
    (split : s.levels = above ++ found :: below) (name : found.tag.name = tag.name)
    (others : ∀ l ∈ above, l.tag.name ≠ tag.name) :
    s.closeTag tag = append ⟨s.root, below⟩
      [.ofTag found.tag (found.children ++ asTexts above) (some tag.markup)] := by
  have paired := pair_append s.root above below [] name others
  rw [append_nil, ← split] at paired
  rw [closeTag, if_pos (by simp [split, name])]
  simpa using paired

theorem closeTag_of_forall {s : Nesting} {tag : Tag}
    (others : ∀ l ∈ s.levels, l.tag.name ≠ tag.name) :
    s.closeTag tag = s.append [.text tag.markup] := by
  rw [closeTag, if_neg (by simpa using others)]

theorem exists_split (s : Nesting) (name : Text) :
    (∃ above found below, s.levels = above ++ found :: below ∧ found.tag.name = name ∧
      ∀ l ∈ above, l.tag.name ≠ name) ∨ ∀ l ∈ s.levels, l.tag.name ≠ name := by
  cases search : s.levels.find? (·.tag.name = name) with
  | none => exact .inr (by simpa using search)
  | some found =>
    obtain ⟨same, above, below, split, others⟩ := List.find?_eq_some_iff_append.1 search
    exact .inl ⟨above, found, below, split, by simpa using same, by simpa using others⟩

theorem finish_nil (root : List Node) : finish ⟨root, []⟩ = root := by
  rw [finish.eq_def]

theorem finish_cons (root : List Node) (l : Level) (ls : List Level) :
    finish ⟨root, l :: ls⟩ = finish (append ⟨root, ls⟩ l.asText) := by
  rw [finish.eq_def]
  rfl

theorem finish_append (root : List Node) (levels : List Level) (nodes : List Node) :
    (append ⟨root, levels⟩ nodes).finish = root ++ asTexts levels ++ nodes := by
  induction levels generalizing nodes with
  | nil => simp [append, finish_nil]
  | cons l ls ih =>
    rw [append_cons, finish_cons, ih]
    simp [Level.asText]

theorem finish_eq (s : Nesting) : s.finish = s.root ++ asTexts s.levels := by
  simpa using finish_append s.root s.levels []

/-- What a token does to the finished nodes. It adds a text or an element without children, or it
closes a tag that stood among them as text, and what stood behind becomes the children. -/
theorem finish_step (s : Nesting) (token : Token) :
    (s.step token).finish = s.finish ++ [.text token.text] ∨
      (∃ tag, token = .tag tag ∧ tag.kind = .selfClosing ∧
        (s.step token).finish = s.finish ++ [.ofTag tag [] none]) ∨
      ∃ tag opening front children, token = .tag tag ∧ tag.kind = .closing ∧
        opening.name = tag.name ∧ s.finish = front ++ .text opening.markup :: children ∧
        (s.step token).finish = front ++ [.ofTag opening children (some tag.markup)] := by
  have added (nodes : List Node) : (s.append nodes).finish = s.finish ++ nodes := by
    rw [finish_append, ← finish_eq]
  cases token with
  | literal text => exact .inl (added _)
  | escaped bracket => exact .inl (added _)
  | tag tag =>
    cases kind : tag.kind with
    | opening =>
      refine .inl ?_
      simp [step, kind, openTag, finish_eq, Level.asText, Token.text]
    | selfClosing =>
      refine .inr (.inl ⟨tag, rfl, kind, ?_⟩)
      rw [← added]
      simp only [step, kind]
    | closing =>
      have closed : s.step (.tag tag) = s.closeTag tag := by
        simp only [step, kind]
      rw [closed]
      rcases s.exists_split tag.name with ⟨above, found, below, split, name, others⟩ | others
      · refine .inr (.inr ⟨tag, found.tag, s.root ++ asTexts below,
          found.children ++ asTexts above, rfl, kind, name, ?_, ?_⟩)
        · simp [finish_eq, split, asTexts_append, Level.asText]
        · rw [closeTag_of_split split name others, finish_append]
      · rw [closeTag_of_forall others]
        exact .inl (added _)

/-! ### Nodes in front of all others -/

def behind (front : List Node) (s : Nesting) : Nesting := { s with root := front ++ s.root }

theorem append_behind (front : List Node) (s : Nesting) (nodes : List Node) :
    (s.behind front).append nodes = (s.append nodes).behind front := by
  obtain ⟨root, levels⟩ := s
  cases levels <;> simp [append, behind]

theorem closeTag_behind (front : List Node) (s : Nesting) (tag : Tag) :
    (s.behind front).closeTag tag = (s.closeTag tag).behind front := by
  rcases s.exists_split tag.name with ⟨above, found, below, split, name, others⟩ | others
  · have same : (s.behind front).levels = above ++ found :: below := split
    rw [closeTag_of_split split name others, closeTag_of_split same name others, ← append_behind]
    rfl
  · have same : ∀ l ∈ (s.behind front).levels, l.tag.name ≠ tag.name := others
    rw [closeTag_of_forall others, closeTag_of_forall same, append_behind]

theorem step_behind (front : List Node) (s : Nesting) (token : Token) :
    (s.behind front).step token = (s.step token).behind front := by
  cases token with
  | literal text => exact append_behind front s _
  | escaped bracket => exact append_behind front s _
  | tag tag =>
    cases kind : tag.kind with
    | opening => simp [step, kind, openTag, behind]
    | selfClosing => simp [step, kind, append_behind]
    | closing => simp [step, kind, closeTag_behind]

theorem foldl_step_behind (front : List Node) (s : Nesting) (tokens : List Token) :
    tokens.foldl step (s.behind front) = (tokens.foldl step s).behind front := by
  induction tokens generalizing s with
  | nil => rfl
  | cons token tokens ih => rw [List.foldl_cons, step_behind, ih, List.foldl_cons]

theorem finish_behind (front : List Node) (s : Nesting) :
    (s.behind front).finish = front ++ s.finish := by
  simp [finish_eq, behind]

end Nesting
end StyledText.Markup
