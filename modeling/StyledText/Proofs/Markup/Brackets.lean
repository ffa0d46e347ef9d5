import Mathlib.Data.List.Basic
import StyledText.Markup.Token

/-!
# Brackets

What the token of a bracket depends on. A search that stops at a closing bracket does not look
past it, so the markup of a tag, read alone, is that tag.
-/
namespace StyledText.Markup

@[simp] theorem tokenize_nil : tokenize [] = [] := by
  rw [tokenize.eq_def]
  simp [readToken]

theorem tokenize_of_readToken {cs rest : Text} {token : Token}
    (h : readToken cs = some (token, rest)) : tokenize cs = token :: tokenize rest := by
  rw [tokenize.eq_def]
  split
  · next none => simp [none] at h
  · next some =>
    rw [some] at h
    cases h
    rfl

theorem exists_readToken_of_tokenize {input : Text} {token : Token} {tokens : List Token}
    (h : tokenize input = token :: tokens) :
    ∃ rest, readToken input = some (token, rest) ∧ tokenize rest = tokens := by
  rw [tokenize.eq_def] at h
  split at h
  · cases h
  · next rest read =>
    cases h
    exact ⟨rest, read, rfl⟩

/-- Behind its first tokens an input is read as if it began there. -/
theorem tokenize_of_reached {input cs : Text} {before after : List Token}
    (reached : tokenize input = before ++ after)
    (here : input = before.flatMap Token.source ++ cs) : tokenize cs = after := by
  induction before generalizing input with
  | nil =>
    rw [List.flatMap_nil, List.nil_append] at here
    rwa [here] at reached
  | cons token before ih =>
    obtain ⟨rest, read, left⟩ := exists_readToken_of_tokenize reached
    refine ih left ?_
    have cover := (readToken_source read).1
    rw [here, List.flatMap_cons, List.append_assoc] at cover
    exact List.append_cancel_left cover

theorem exists_readToken_of_mem {input : Text} {token : Token} (h : token ∈ tokenize input) :
    ∃ cs rest, readToken cs = some (token, rest) := by
  fun_induction tokenize input with
  | case1 => simp at h
  | case2 cs first rest hread ih =>
    rcases List.mem_cons.1 h with rfl | h
    · exact ⟨cs, rest, hread⟩
    · exact ih h

theorem readToken_bracket {cs : Text} (h : ∀ more, cs ≠ '[' :: more) :
    readToken ('[' :: cs) = some (readBracket cs) := by
  rw [readToken]
  exact h

/-! ### Texts between brackets -/

theorem readToken_plain {c : Char} {cs : Text} (opening : c ≠ '[')
    (doubled : ∀ more, c = ']' → cs ≠ ']' :: more) :
    readToken (c :: cs) = some (.literal (c :: (splitPlain cs).1), (splitPlain cs).2) := by
  rw [readToken, splitPlain]
  · exact opening
  · exact doubled
  · exact fun _ h => absurd h opening
  · exact doubled
  · exact opening

theorem splitPlain_cons {c : Char} (opening : c ≠ '[') (closing : c ≠ ']') (cs : Text) :
    splitPlain (c :: cs) = (c :: (splitPlain cs).1, (splitPlain cs).2) := by
  rw [splitPlain]
  · exact opening
  · exact fun _ h => absurd h closing

theorem readToken_doubled {c : Char} (bracket : c = '[' ∨ c = ']') (rest : Text) :
    readToken (c :: c :: rest) = some (.escaped c, rest) := by
  rcases bracket with rfl | rfl <;> rw [readToken]

theorem escape_cons_bracket {c : Char} (bracket : c = '[' ∨ c = ']') (cs : Text) :
    escape (c :: cs) = c :: c :: escape cs := by
  simp [escape, bracket]

theorem escape_cons {c : Char} (opening : c ≠ '[') (closing : c ≠ ']') (cs : Text) :
    escape (c :: cs) = c :: escape cs := by
  simp [escape, opening, closing]

theorem escape_subset (t : Text) : escape t ⊆ t := by
  intro c mem
  obtain ⟨d, inside, copy⟩ := List.mem_flatMap.1 mem
  have same : c = d := by
    split at copy <;> simpa using copy
  rwa [same]

/-! ### Token by token -/

section
variable {β : Type} {f : Token → List β}

/-- What `f` makes of a plain text it makes of its characters one by one. -/
structure Additive (f : Token → List β) : Prop where
  nil : f (.literal []) = []
  cons : ∀ c cs, f (.literal (c :: cs)) = f (.literal [c]) ++ f (.literal cs)

theorem flatMap_tokenize_of_readToken (f : Token → List β) {cs rest : Text} {token : Token}
    (h : readToken cs = some (token, rest)) :
    (tokenize cs).flatMap f = f token ++ (tokenize rest).flatMap f := by
  rw [tokenize_of_readToken h, List.flatMap_cons]

theorem flatMap_tokenize_splitPlain (additive : Additive f) (cs : Text) :
    (tokenize cs).flatMap f =
      f (.literal (splitPlain cs).1) ++ (tokenize (splitPlain cs).2).flatMap f := by
  fun_cases splitPlain cs with
  | case1 => simp [additive.nil]
  | case2 cs => simp [additive.nil]
  | case3 cs => simp [additive.nil]
  | case4 c cs opening doubled =>
    exact flatMap_tokenize_of_readToken f (readToken_plain opening doubled)

theorem flatMap_tokenize_cons (additive : Additive f) {c : Char} (opening : c ≠ '[')
    (closing : c ≠ ']') (cs : Text) :
    (tokenize (c :: cs)).flatMap f = f (.literal [c]) ++ (tokenize cs).flatMap f := by
  rw [flatMap_tokenize_splitPlain additive (c :: cs), splitPlain_cons opening closing,
    additive.cons, List.append_assoc, ← flatMap_tokenize_splitPlain additive cs]

theorem flatMap_tokenize_escape (additive : Additive f) (text rest : Text) :
    (tokenize (escape text ++ rest)).flatMap f =
      (text.flatMap fun c => if c = '[' ∨ c = ']' then f (.escaped c) else f (.literal [c])) ++
        (tokenize rest).flatMap f := by
  induction text with
  | nil => simp [escape]
  | cons c cs ih =>
    rw [List.flatMap_cons, List.append_assoc, ← ih]
    by_cases bracket : c = '[' ∨ c = ']'
    · rw [escape_cons_bracket bracket, if_pos bracket]
      exact flatMap_tokenize_of_readToken f (readToken_doubled bracket _)
    · rw [if_neg bracket]
      rw [not_or] at bracket
      rw [escape_cons bracket.1 bracket.2]
      exact flatMap_tokenize_cons additive bracket.1 bracket.2 _

end

namespace Search

theorem after_eq_iff {c : Char} {s : Search} {body rest : Text} {ending : Ending} :
    s.after c = ⟨body, ending, rest⟩ ↔ ∃ more, body = c :: more ∧ s = ⟨more, ending, rest⟩ := by
  obtain ⟨b, e, r⟩ := s
  constructor
  · intro h
    simp only [after, mk.injEq] at h
    obtain ⟨rfl, rfl, rfl⟩ := h
    exact ⟨b, rfl, rfl⟩
  · rintro ⟨more, rfl, h⟩
    rw [h, after]

theorem opensQuote_ne_bracket {before c : Char} (h : opensQuote before c) : c ≠ ']' := by
  rintro rfl
  simp [opensQuote] at h

theorem outsideQuotes_closed_append {quote : Option Char} {before : Char} {cs body rest : Text}
    (h : outsideQuotes quote before cs = ⟨body, .closed, rest⟩) (other : Text) :
    outsideQuotes quote before (body ++ ']' :: other) = ⟨body, .closed, ']' :: other⟩ := by
  induction cs generalizing quote before body with
  | nil => cases quote <;> simp [outsideQuotes] at h
  | cons c cs ih =>
    cases quote with
    | some q =>
      simp only [outsideQuotes] at h
      obtain ⟨more, rfl, inner⟩ := after_eq_iff.1 h
      simp only [List.cons_append, outsideQuotes, ih inner, after]
    | none =>
      simp only [outsideQuotes] at h
      split at h
      · cases h
        simp [outsideQuotes]
      · split at h
        · cases h
        · next hclose hopen =>
          split at h
          all_goals
            next hquote =>
            obtain ⟨more, rfl, inner⟩ := after_eq_iff.1 h
            simp [outsideQuotes, hclose, hopen, hquote, ih inner, after]

theorem anywhere_closed_append {cs body rest : Text}
    (h : anywhere cs = ⟨body, .closed, rest⟩) (other : Text) :
    anywhere (body ++ ']' :: other) = ⟨body, .closed, ']' :: other⟩ := by
  induction cs generalizing body with
  | nil => simp [anywhere] at h
  | cons c cs ih =>
    simp only [anywhere] at h
    split at h
    · cases h
      simp [anywhere]
    · split at h
      · cases h
      · next hclose hopen =>
        obtain ⟨more, rfl, inner⟩ := after_eq_iff.1 h
        simp [anywhere, hclose, hopen, ih inner, after]

/-- Up to the first bracket of all, the quoted search stops there too or is in a quote. -/
theorem outsideQuotes_of_anywhere {cs body rest : Text} (h : anywhere cs = ⟨body, .closed, rest⟩)
    {quote : Option Char} (noBracket : quote ≠ some ']') (before : Char) :
    outsideQuotes quote before (body ++ [']']) = ⟨body, .closed, [']']⟩ ∨
      (outsideQuotes quote before (body ++ [']'])).ending = .unquoted := by
  induction cs generalizing quote before body with
  | nil => simp [anywhere] at h
  | cons c cs ih =>
    simp only [anywhere] at h
    split at h
    · cases h
      cases quote with
      | none => exact .inl (by simp [outsideQuotes])
      | some q =>
        have hq : ']' ≠ q := fun e => noBracket (by rw [e])
        exact .inr (by simp [outsideQuotes, hq, after])
    · split at h
      · cases h
      · next hclose hopen =>
        obtain ⟨more, rfl, inner⟩ := after_eq_iff.1 h
        have step : ∀ quote', quote' ≠ some ']' →
            (outsideQuotes quote' c (more ++ [']'])).after c = ⟨c :: more, .closed, [']']⟩ ∨
              ((outsideQuotes quote' c (more ++ [']'])).after c).ending = .unquoted := by
          intro quote' noBracket'
          rcases ih inner noBracket' c with found | inside
          · exact .inl (by rw [found, after])
          · exact .inr inside
        cases quote with
        | some q =>
          simp only [List.cons_append, outsideQuotes]
          apply step
          split
          · simp
          · exact noBracket
        | none =>
          simp only [List.cons_append, outsideQuotes, if_neg hclose, if_neg hopen]
          split
          · next hquote => exact step _ (by simpa using opensQuote_ne_bracket hquote)
          · exact step _ (by simp)

theorem run_closed_alone {cs body rest : Text} (h : run cs = ⟨body, .closed, rest⟩) :
    run (body ++ [']']) = ⟨body, .closed, [']']⟩ := by
  simp only [run] at h
  split at h
  · next =>
    -- The quoted search had run into the end, and the bracket was found without quotes.
    have alone := anywhere_closed_append h []
    rcases outsideQuotes_of_anywhere h (by simp : none ≠ some ']') '[' with found | inside
    · simp [run, found]
    · simp [run, inside, alone]
  · simp [run, outsideQuotes_closed_append h []]

end Search

/-- A tag is read from a bracket that is closed and whose body has the shape of a tag. -/
theorem readToken_tag {cs rest : Text} {tag : Tag} (h : readToken cs = some (.tag tag, rest)) :
    ∃ body, cs = '[' :: body ++ ']' :: rest ∧ (∀ more, body ≠ '[' :: more) ∧
      Search.run (body ++ ']' :: rest) = ⟨body, .closed, ']' :: rest⟩ ∧
      Tag.ofBody? body = some tag := by
  unfold readToken at h
  split at h
  · cases h
  · cases h
  · cases h
  · next cs single =>
    have cover := Search.run_body_append_rest cs
    have closed := @Search.run_closed cs
    simp only [readBracket, Option.some.injEq] at h
    generalize hs : Search.run cs = s at cover closed h
    obtain ⟨body, ending, left⟩ := s
    subst cover
    cases ending with
    | closed =>
      obtain ⟨behind, rfl⟩ := closed rfl
      cases shape : Tag.ofBody? body with
      | none => simp [shape] at h
      | some found =>
        simp only [shape, Prod.mk.injEq, Token.tag.injEq] at h
        obtain ⟨rfl, rfl⟩ := h
        refine ⟨body, rfl, ?_, hs, shape⟩
        rintro more rfl
        exact single _ rfl
    | interrupted => simp at h
    | missing => simp at h
    | unquoted => simp at h
  · cases h

theorem readBracket_tag {body rest : Text} {tag : Tag}
    (closed : Search.run (body ++ ']' :: rest) = ⟨body, .closed, ']' :: rest⟩)
    (shape : Tag.ofBody? body = some tag) :
    readBracket (body ++ ']' :: rest) = (.tag tag, rest) := by
  simp [readBracket, closed, shape]

theorem readToken_markup_append {body rest : Text} {tag : Tag}
    (single : ∀ more, body ≠ '[' :: more)
    (closed : Search.run (body ++ ']' :: rest) = ⟨body, .closed, ']' :: rest⟩)
    (shape : Tag.ofBody? body = some tag) :
    readToken (tag.markup ++ rest) = some (.tag tag, rest) := by
  have bracket : tag.markup ++ rest = '[' :: (body ++ ']' :: rest) := by
    simp [Tag.ofBody?_markup shape]
  rw [bracket, readToken_bracket, readBracket_tag closed shape]
  intro more opening
  cases body with
  | nil => simp at opening
  | cons c body =>
    rw [List.cons_append, List.cons.injEq] at opening
    exact single body (by rw [opening.1])

/-- The markup of a tag, read alone, is that tag. -/
theorem tokenize_markup {input : Text} {tag : Tag} (h : .tag tag ∈ tokenize input) :
    tokenize tag.markup = [.tag tag] := by
  obtain ⟨cs, rest, read⟩ := exists_readToken_of_mem h
  obtain ⟨body, -, single, closed, shape⟩ := readToken_tag read
  have first := readToken_markup_append single (Search.run_closed_alone closed) shape
  rw [List.append_nil] at first
  rw [tokenize_of_readToken first, tokenize_nil]

/-! ### Tags that end where their markup does -/

/-- A tag that its markup alone is read as, with no quote left open in it. -/
structure Tag.Whole (tag : Tag) : Prop where
  alone : tokenize tag.markup = [.tag tag]
  closed : (Search.outsideQuotes none '[' (tag.markup.drop 1)).ending = .closed

/-- A whole tag is read in front of any text. -/
theorem Tag.Whole.readToken_append {tag : Tag} (h : tag.Whole) (rest : Text) :
    readToken (tag.markup ++ rest) = some (.tag tag, rest) := by
  have mem : .tag tag ∈ tokenize tag.markup := by
    rw [h.alone]
    exact List.mem_singleton_self _
  obtain ⟨cs, more, read⟩ := exists_readToken_of_mem mem
  obtain ⟨body, -, single, found, shape⟩ := readToken_tag read
  have inside : tag.markup.drop 1 = body ++ [']'] := by
    simp [Tag.ofBody?_markup shape]
  have ending := h.closed
  rw [inside] at ending
  -- The search stopped outside quotes, so the text behind the bracket cannot change it.
  have alone : Search.outsideQuotes none '[' (body ++ [']']) = ⟨body, .closed, [']']⟩ := by
    have run := Search.run_closed_alone found
    rwa [Search.run, if_neg (by simp [ending])] at run
  have ahead := Search.outsideQuotes_closed_append alone rest
  exact readToken_markup_append single (by simp [Search.run, ahead]) shape

end StyledText.Markup
