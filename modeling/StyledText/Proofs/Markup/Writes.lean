import Mathlib.Data.List.Nodup
import StyledText.Proofs.Markup.Words

/-!
# Parameters as an ordered map

A name that is written again keeps its place and takes the new value. So the named parameters hold
every name once, in the order of the first writes, with the value of the last one. Main statement:
this is so for what the reader makes of any text and after any changes behind it, and the unnamed
value is the first that the reader comes to.
-/
namespace StyledText.Markup

namespace Parameters

/-! ### One write -/

theorem map_fst_put (key value : Text) (entries : List (Text × Text)) :
    (put key value entries).map Prod.fst =
      if key ∈ entries.map Prod.fst then entries.map Prod.fst
      else entries.map Prod.fst ++ [key] := by
  split
  · next mem =>
    induction entries with
    | nil => simp at mem
    | cons entry rest ih =>
      obtain ⟨k, v⟩ := entry
      by_cases same : k = key
      · simp [put, same]
      · have inside : key ∈ rest.map Prod.fst := by simpa [Ne.symm same] using mem
        simp [put, same, ih inside]
  · next absent => simp [put_of_notMem absent]

theorem get?_insert (p : Parameters) (key value name : Text) :
    (p.insert key value).get? name = if name = key then some value else p.get? name := by
  obtain ⟨unnamed, named⟩ := p
  simp only [insert, get?]
  induction named with
  | nil => by_cases same : name = key <;> simp [put, same, Ne.symm]
  | cons entry rest ih =>
    obtain ⟨k, v⟩ := entry
    by_cases same : k = key
    · subst same
      by_cases found : name = k
      · simp [put, found]
      · simp [put, found, Ne.symm found]
    · by_cases found : k = name
      · subst found
        simp [put, same]
      · simpa [put, same, found] using ih

/-- The named parameters are the ordered map that the writes make: every name once, at the place of
its first write, with the value of its last one. -/
structure Holds (p : Parameters) (written : List (Text × Text)) : Prop where
  distinct : (p.named.map Prod.fst).Nodup
  mem_iff : ∀ key, key ∈ p.named.map Prod.fst ↔ key ∈ written.map Prod.fst
  order : (p.named.map Prod.fst).Pairwise fun first second =>
    (written.map Prod.fst).idxOf first < (written.map Prod.fst).idxOf second
  get : ∀ key, p.get? key = (written.filter fun entry => entry.1 = key).getLast?.map Prod.snd

theorem holds_empty (unnamed : Option Text) : Holds { unnamed } [] :=
  ⟨by simp, by simp, by simp, fun key => rfl⟩

theorem Holds.insert {p : Parameters} {written : List (Text × Text)} (h : p.Holds written)
    (key value : Text) : (p.insert key value).Holds (written ++ [(key, value)]) := by
  have keys : (p.insert key value).named.map Prod.fst =
      if key ∈ p.named.map Prod.fst then p.named.map Prod.fst
      else p.named.map Prod.fst ++ [key] := map_fst_put key value p.named
  have all : (written ++ [(key, value)]).map Prod.fst = written.map Prod.fst ++ [key] := by simp
  -- A name that was written before keeps its index among the writes.
  have kept {name : Text} (mem : name ∈ p.named.map Prod.fst) :
      (written.map Prod.fst ++ [key]).idxOf name = (written.map Prod.fst).idxOf name :=
    List.idxOf_append_of_mem ((h.mem_iff name).1 mem)
  have order : ((p.insert key value).named.map Prod.fst).Pairwise fun first second =>
      ((written ++ [(key, value)]).map Prod.fst).idxOf first <
        ((written ++ [(key, value)]).map Prod.fst).idxOf second := by
    have before : (p.named.map Prod.fst).Pairwise fun first second =>
        (written.map Prod.fst ++ [key]).idxOf first <
          (written.map Prod.fst ++ [key]).idxOf second := by
      refine h.order.imp_of_mem fun first second less => ?_
      rwa [kept first, kept second]
    rw [keys, all]
    split
    · exact before
    · next absent =>
      refine List.pairwise_append.2 ⟨before, List.pairwise_singleton _ _, fun name mem last => ?_⟩
      rintro new
      obtain rfl := List.mem_singleton.1 new
      have fresh : last ∉ written.map Prod.fst := fun inside => absent ((h.mem_iff last).2 inside)
      rw [kept mem, List.idxOf_append_of_notMem fresh]
      exact Nat.lt_add_right _ (List.idxOf_lt_length_of_mem ((h.mem_iff name).1 mem))
  refine ⟨order.imp ?_, fun name => ?_, order, fun name => ?_⟩
  · rintro first _ less rfl
    exact absurd less (Nat.lt_irrefl _)
  · rw [keys, all, List.mem_append, List.mem_singleton, ← h.mem_iff]
    split
    · next mem =>
      refine ⟨.inl, fun some => some.elim id ?_⟩
      rintro rfl
      exact mem
    · rw [List.mem_append, List.mem_singleton]
  · rw [get?_insert, List.filter_append]
    by_cases same : name = key
    · simp [same]
    · simp [same, Ne.symm same, h.get]

/-! ### Many changes -/

end Parameters

/-- A change that is asked of parameters. -/
inductive Change where
  | insert (key value : Text)
  | setUnnamed (value : Text)
  deriving DecidableEq, Repr

/-- What a change writes under a name. -/
def Change.entry? : Change → Option (Text × Text)
  | .insert key value => some (key, value)
  | .setUnnamed _ => none

namespace Parameters

def after (p : Parameters) : Change → Parameters
  | .insert key value => p.insert key value
  | .setUnnamed value => p.setUnnamed value

theorem Holds.setUnnamed {p : Parameters} {written : List (Text × Text)} (h : p.Holds written)
    (value : Text) : (p.setUnnamed value).Holds written :=
  ⟨h.distinct, h.mem_iff, h.order, h.get⟩

theorem Holds.run {p : Parameters} {written : List (Text × Text)} (h : p.Holds written)
    (changes : List Change) :
    (changes.foldl after p).Holds (written ++ changes.filterMap Change.entry?) := by
  induction changes generalizing p written with
  | nil => simpa using h
  | cons change changes ih =>
    cases change with
    | insert key value =>
      have behind := ih (h.insert key value)
      rwa [List.append_assoc] at behind
    | setUnnamed value => exact ih (h.setUnnamed value)

end Parameters

/-! ### Words -/

namespace Word

def bare? : Word → Option Text
  | bare value => some value
  | _ => none

/-- What words write under names. The first bare word does not, as long as there is no unnamed
value; each later one is a name without a value. -/
def entries (filled : Bool) : List Word → List (Text × Text)
  | [] => []
  | entry key value :: words => (key, value) :: entries filled words
  | bare value :: words => if filled then (value, []) :: entries true words else entries true words
  | nothing :: words => entries filled words

end Word

namespace Parameters

theorem unnamed_take_of_some {p : Parameters} {value : Text} (filled : p.unnamed = some value)
    (w : Word) : (p.take w).unnamed = some value := by
  cases w with
  | entry key value => exact filled
  | bare word => simp [take, pushBare, filled, insert]
  | nothing => exact filled

theorem unnamed_foldl_take (words : List Word) (p : Parameters) :
    (words.foldl take p).unnamed = p.unnamed.or (words.filterMap Word.bare?).head? := by
  induction words generalizing p with
  | nil => simp
  | cons w words ih =>
    rw [List.foldl_cons, ih]
    cases filled : p.unnamed with
    | some value => simp [unnamed_take_of_some filled]
    | none =>
      cases w <;>
        simp [take, pushBare, setUnnamed, insert, filled, Word.bare?, List.findSome?_cons]

theorem Holds.foldl_take {p : Parameters} {written : List (Text × Text)} (h : p.Holds written)
    (words : List Word) :
    (words.foldl take p).Holds (written ++ Word.entries p.unnamed.isSome words) := by
  induction words generalizing p written with
  | nil => simpa [Word.entries] using h
  | cons w words ih =>
    cases w with
    | entry key value =>
      have behind := ih (h.insert key value)
      rwa [List.append_assoc] at behind
    | nothing => exact ih h
    | bare value =>
      cases filled : p.unnamed with
      | some old =>
        have taken : p.take (.bare value) = p.insert value [] := by simp [take, pushBare, filled]
        have kept : (p.insert value []).unnamed = some old := filled
        have behind := ih (h.insert value [])
        rw [kept, List.append_assoc] at behind
        rwa [List.foldl_cons, taken]
      | none =>
        have taken : p.take (.bare value) = p.setUnnamed value := by simp [take, pushBare, filled]
        rw [List.foldl_cons, taken]
        exact ih (h.setUnnamed value)

/-- Every pass takes characters from the front of what is left and keeps an unnamed value. Any text
is made of words; the reader is through after one pass for each of them. The unnamed value is the one
behind a leading equals sign or else the first bare word, and what is written under names, by the
words and by any changes after them, makes an ordered map. -/
theorem parse_orderedMap (raw : Text) :
    (∀ s : Parameters × Text, Text.trimStart s.2 ≠ [] →
      ∃ read, read ≠ [] ∧ s.2 = read ++ (pass s).2) ∧
    (∀ (s : Parameters × Text) value, s.1.unnamed = some value →
      (pass s).1.unnamed = some value) ∧
    (∃ leading words, Reads raw leading words) ∧
    ∀ leading words, Reads raw leading words →
      words.length ≤ raw.length ∧
      (∃ rest, pass^[words.length] (start raw) = (parse raw, rest) ∧ Text.trimStart rest = []) ∧
      (parse raw).unnamed = leading.or (words.filterMap Word.bare?).head? ∧
      ∀ changes : List Change, (changes.foldl after (parse raw)).Holds
        (Word.entries leading.isSome words ++ changes.filterMap Change.entry?) := by
  refine ⟨fun s more => ?_, fun s value filled => ?_, exists_reads raw, fun leading words h => ?_⟩
  · obtain ⟨_, read, some, split, -⟩ := exists_pass_eq more
    exact ⟨read, some, split⟩
  · by_cases more : Text.trimStart s.2 = []
    · rw [pass, more]
      exact filled
    · obtain ⟨w, -, -, -, taken⟩ := exists_pass_eq more
      rw [taken]
      exact unnamed_take_of_some filled w
  · obtain ⟨parsed, passes⟩ := h.parse_eq
    have held := (holds_empty leading).foldl_take words
    rw [List.nil_append, ← parsed] at held
    refine ⟨h.length_le, passes, ?_, held.run⟩
    rw [parsed, unnamed_foldl_take]

/-- A key that is written again behind the reader, a bare word, and a quotation that stays open. -/
theorem parse_orderedMap_again :
    Text.trimStart " a=1 b \"c d".toList ≠ [] ∧
      Reads " a=1 b \"c d".toList none
        [.entry "a".toList "1".toList, .bare "b".toList, .bare "c d".toList] ∧
      (∃ read, read ≠ [] ∧
        " a=1 b \"c d".toList = read ++ (pass ({}, " a=1 b \"c d".toList)).2) ∧
      (pass (setUnnamed {} "b".toList, " \"c d".toList)).1.unnamed = some "b".toList ∧
      (parse " a=1 b \"c d".toList).unnamed = some "b".toList ∧
      ([Change.insert "a".toList "2".toList].foldl after (parse " a=1 b \"c d".toList)).Holds
        [("a".toList, "1".toList), ("c d".toList, []), ("a".toList, "2".toList)] := by
  have entry : ReadsWord ("a".toList ++ '=' :: ("1".toList ++ " b \"c d".toList))
      (.entry "a".toList "1".toList) " b \"c d".toList := by
    refine .entry ⟨by decide, List.forall_mem_singleton.2 (by decide), ?_⟩
      (.plain (List.forall_mem_singleton.2 (by decide)) ?_ ?_)
    all_goals
      rintro _ ⟨⟩
      decide
  have bare : ReadsWord ("b".toList ++ " \"c d".toList) (.bare "b".toList) " \"c d".toList := by
    refine .bare ⟨by decide, List.forall_mem_singleton.2 (by decide), ?_⟩ ?_
    all_goals
      rintro _ ⟨⟩
      decide
  have quoted : ReadsWord "\"c d".toList (.bare "c d".toList) [] :=
    .quoted (.inl rfl) (.unclosed (.inl rfl) (by decide))
  have blank : ∀ c ∈ " ".toList, Text.isBlank c := List.forall_mem_singleton.2 (by decide)
  have start : ∀ c ∈ " a=1 b \"c d".toList.head?, c ≠ '=' := by
    rintro _ ⟨⟩
    decide
  have reads : Reads " a=1 b \"c d".toList none
      [.entry "a".toList "1".toList, .bare "b".toList, .bare "c d".toList] :=
    .plain start (.word blank entry (.word blank bare (.word blank quoted (.done (by simp)))))
  obtain ⟨consumes, keeps, -, parsed⟩ := parse_orderedMap " a=1 b \"c d".toList
  obtain ⟨-, -, unnamed, held⟩ := parsed _ _ reads
  have more : Text.trimStart " a=1 b \"c d".toList ≠ [] := by decide
  exact ⟨more, reads, consumes ({}, " a=1 b \"c d".toList) more,
    keeps (setUnnamed {} "b".toList, " \"c d".toList) _ rfl, unnamed, held [.insert _ _]⟩

end Parameters
end StyledText.Markup
