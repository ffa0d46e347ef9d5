import StyledText.Markup.Token

/-!
# Stripping markup

Tags are removed and all other input is kept as written, doubled brackets included.
Removing a tag can bring together what was around it into another tag, so removal is
repeated until no tag is left.
-/
namespace StyledText.Markup

def Token.isTag : Token → Bool
  | .tag _ => true
  | _ => false

def removeTags (input : Text) : Text :=
  ((tokenize input).filter (!·.isTag)).flatMap Token.source

def hasTag (input : Text) : Bool := (tokenize input).any Token.isTag

theorem length_flatMap_filter_lt {tokens : List Token}
    (nonempty : ∀ token ∈ tokens, token.isTag → token.source ≠ [])
    (h : tokens.any Token.isTag) :
    ((tokens.filter (!·.isTag)).flatMap Token.source).length <
      (tokens.flatMap Token.source).length := by
  have le : ∀ ts : List Token, ((ts.filter (!·.isTag)).flatMap Token.source).length ≤
      (ts.flatMap Token.source).length := by
    intro ts
    induction ts with
    | nil => exact Nat.le_refl _
    | cons t ts ih => cases ht : t.isTag <;> simp [ht] at ih ⊢ <;> omega
  induction tokens with
  | nil => simp at h
  | cons t ts ih =>
    cases ht : t.isTag with
    | true =>
      have := List.length_pos_iff.2 (nonempty t (by simp) ht)
      have := le ts
      simp [ht] at this ⊢
      omega
    | false =>
      have := ih (fun u hu => nonempty u (by simp [hu])) (by simpa [ht] using h)
      simp [ht] at this ⊢
      omega

theorem source_ne_nil_of_mem_tokenize {input : Text} {token : Token}
    (h : token ∈ tokenize input) : token.source ≠ [] := by
  fun_induction tokenize input with
  | case1 => simp at h
  | case2 cs first rest hread ih =>
    rcases List.mem_cons.1 h with rfl | h
    · exact (readToken_source hread).2
    · exact ih h

theorem length_removeTags_lt {input : Text} (h : hasTag input) :
    (removeTags input).length < input.length := by
  have := length_flatMap_filter_lt
    (fun token (ht : token ∈ tokenize input) _ => source_ne_nil_of_mem_tokenize ht) h
  rwa [flatMap_source_tokenize] at this

/-- The input with tags removed until none is left. -/
def strip (input : Text) : Text :=
  if input.contains '[' && hasTag input then strip (removeTags input) else input
termination_by input.length
decreasing_by
  rename_i h
  exact length_removeTags_lt (by simp_all)

end StyledText.Markup
