import Mathlib.Data.List.Basic
import StyledText.Text.Basic

/-!
# Positions in a text

A position counts the bytes in front of it. Cut at a position between two characters, a text falls
apart into what stands before and behind it.
-/
namespace StyledText.Text

/-- The text behind its first `n` bytes. -/
def dropBytes : ℕ → Text → Text
  | _, [] => []
  | n, c :: cs => if n = 0 then c :: cs else dropBytes (n - c.utf8Size) cs

/-- The first `n` bytes of a text. -/
def takeBytes : ℕ → Text → Text
  | _, [] => []
  | n, c :: cs => if n = 0 then [] else c :: takeBytes (n - c.utf8Size) cs

def slice (start stop : ℕ) (t : Text) : Text := takeBytes (stop - start) (dropBytes start t)

/-- The position is not inside a character. -/
def IsBoundary (t : Text) (position : ℕ) : Prop :=
  ∃ front back, t = front ++ back ∧ utf8Size front = position

theorem utf8Size_append (front back : Text) :
    utf8Size (front ++ back) = utf8Size front + utf8Size back := by
  induction front with
  | nil => simp
  | cons c cs ih => rw [List.cons_append, utf8Size_cons, ih, utf8Size_cons, Nat.add_assoc]

theorem utf8Size_pos {t : Text} (nonempty : t ≠ []) : 0 < utf8Size t := by
  cases t with
  | nil => exact absurd rfl nonempty
  | cons c cs =>
    have first := c.utf8Size_pos
    rw [utf8Size_cons]
    omega

theorem dropBytes_append (front back : Text) : dropBytes (utf8Size front) (front ++ back) = back := by
  induction front with
  | nil => cases back <;> simp [dropBytes]
  | cons c cs ih =>
    have size : utf8Size (c :: cs) ≠ 0 := Nat.ne_of_gt (utf8Size_pos (List.cons_ne_nil c cs))
    rw [List.cons_append, dropBytes, if_neg size, utf8Size_cons, Nat.add_sub_cancel_left, ih]

theorem takeBytes_append (front back : Text) :
    takeBytes (utf8Size front) (front ++ back) = front := by
  induction front with
  | nil => cases back <;> simp [takeBytes]
  | cons c cs ih =>
    have size : utf8Size (c :: cs) ≠ 0 := Nat.ne_of_gt (utf8Size_pos (List.cons_ne_nil c cs))
    rw [List.cons_append, takeBytes, if_neg size, utf8Size_cons, Nat.add_sub_cancel_left, ih]

theorem slice_append (front middle back : Text) :
    slice (utf8Size front) (utf8Size front + utf8Size middle) (front ++ (middle ++ back)) =
      middle := by
  rw [slice, dropBytes_append, Nat.add_sub_cancel_left, takeBytes_append]

theorem isBoundary_append (front back : Text) : IsBoundary (front ++ back) (utf8Size front) :=
  ⟨front, back, rfl, rfl⟩

end StyledText.Text
