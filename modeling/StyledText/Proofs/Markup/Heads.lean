import StyledText.Proofs.Markup.Brackets
import StyledText.Proofs.Markup.Parameters

/-!
# Printed tags

A tag head is a name with an unnamed value and named values, each under a quotation mark that
it does not hold. Printed as an opening or a self-closing tag it is read back as it was: the
search passes over quoted values with any brackets in them, and the parameters come back in
their order.
-/
namespace StyledText.Markup

/-- A value with a quotation mark that does not occur in it. -/
structure QuotedValue where
  text : Text
  mark : Char
  isMark : mark = '"' ∨ mark = '\''
  absent : mark ∉ text

/-- A key has no blank, no `=`, no quotation mark and no bracket. -/
structure Key where
  text : Text
  nonempty : text ≠ []
  plain : ∀ c ∈ text, Text.isBlank c = false ∧ c ≠ '=' ∧ c ≠ '"' ∧ c ≠ '\'' ∧ c ≠ '[' ∧ c ≠ ']'

structure TagHead where
  name : Text
  unnamed : Option QuotedValue
  named : List (Key × QuotedValue)
  isName : isName name = true
  distinct : (named.map fun entry => entry.1.text).Nodup

/-- Every text without both quotation marks can be quoted. -/
theorem exists_quotedValue_iff {text : Text} :
    (∃ v : QuotedValue, v.text = text) ↔ ¬ ('"' ∈ text ∧ '\'' ∈ text) := by
  constructor
  · rintro ⟨v, rfl⟩ ⟨double, single⟩
    rcases v.isMark with mark | mark
    · exact v.absent (mark ▸ double)
    · exact v.absent (mark ▸ single)
  · intro free
    by_cases double : '"' ∈ text
    · exact ⟨⟨text, '\'', .inr rfl, fun single => free ⟨double, single⟩⟩, rfl⟩
    · exact ⟨⟨text, '"', .inl rfl, double⟩, rfl⟩

def QuotedValue.print (v : QuotedValue) : Text := v.mark :: v.text ++ [v.mark]

/-- A named value: a space, the key, `=` and the quoted value. -/
def printEntry (entry : Key × QuotedValue) : Text :=
  ' ' :: entry.1.text ++ '=' :: entry.2.print

namespace TagHead

def tail (h : TagHead) : Text :=
  (match h.unnamed with
    | none => []
    | some v => '=' :: v.print) ++ h.named.flatMap printEntry

def openingMarkup (h : TagHead) : Text := '[' :: (h.name ++ h.tail) ++ [']']

def selfClosingMarkup (h : TagHead) : Text := '[' :: (h.name ++ h.tail ++ [' ', '/']) ++ [']']

def closingMarkup (h : TagHead) : Text := '[' :: '/' :: h.name ++ [']']

def parameters (h : TagHead) : Parameters :=
  ⟨h.unnamed.map QuotedValue.text, h.named.map fun entry => (entry.1.text, entry.2.text)⟩

end TagHead

/-! ### Searching through a printed tag -/

namespace Search

def across (word : Text) (s : Search) : Search := { s with body := word ++ s.body }

/-- A search outside quotes passes over the word and is outside quotes again. -/
def Passes (word : Text) : Prop :=
  ∀ before rest, ∃ before', outsideQuotes none before (word ++ rest) =
    (outsideQuotes none before' rest).across word

theorem passes_nil : Passes [] := fun before _ => ⟨before, rfl⟩

theorem Passes.append {first second : Text} (h₁ : Passes first) (h₂ : Passes second) :
    Passes (first ++ second) := by
  intro before rest
  obtain ⟨middle, e₁⟩ := h₁ before (second ++ rest)
  obtain ⟨after, e₂⟩ := h₂ middle rest
  exact ⟨after, by rw [List.append_assoc, e₁, e₂]; simp [across]⟩

def isOrdinary (c : Char) : Bool := c != '[' && c != ']' && c != '"' && c != '\''

theorem outsideQuotes_ordinary {c : Char} (h : isOrdinary c) (before : Char) (cs : Text) :
    outsideQuotes none before (c :: cs) = (outsideQuotes none c cs).after c := by
  simp only [isOrdinary, Bool.and_eq_true, bne_iff_ne] at h
  obtain ⟨⟨⟨opening, closing⟩, double⟩, single⟩ := h
  simp [outsideQuotes, opening, closing, opensQuote, double, single]

theorem passes_of_ordinary {word : Text} (h : ∀ c ∈ word, isOrdinary c) : Passes word := by
  induction word with
  | nil => exact passes_nil
  | cons c cs ih =>
    intro before rest
    obtain ⟨last, e⟩ := ih (fun d hd => h d (by simp [hd])) c rest
    refine ⟨last, ?_⟩
    rw [List.cons_append, outsideQuotes_ordinary (h c (by simp)), e]
    rfl

theorem outsideQuotes_quoted {mark : Char} (text : Text) (h : mark ∉ text) (before : Char)
    (rest : Text) :
    outsideQuotes (some mark) before (text ++ mark :: rest) =
      (outsideQuotes none mark rest).across (text ++ [mark]) := by
  induction text generalizing before with
  | nil => simp [outsideQuotes, after, across]
  | cons c cs ih =>
    simp only [List.mem_cons, not_or] at h
    have hc : c ≠ mark := Ne.symm h.1
    rw [List.cons_append, outsideQuotes, if_neg hc, ih h.2]
    rfl

/-- A quoted value behind `=` is passed over, brackets and all. -/
theorem passes_quoted (v : QuotedValue) : Passes ('=' :: v.print) := by
  intro before rest
  have bracket : v.mark ≠ ']' ∧ v.mark ≠ '[' := by
    rcases v.isMark with mark | mark <;> simp [mark]
  have opens : opensQuote '=' v.mark := by
    rcases v.isMark with mark | mark <;> simp [mark, opensQuote]
  refine ⟨v.mark, ?_⟩
  have inner := outsideQuotes_quoted v.text v.absent v.mark rest
  rw [List.cons_append, outsideQuotes_ordinary (by decide), QuotedValue.print, List.cons_append,
    List.cons_append, outsideQuotes, List.append_assoc, List.singleton_append, if_neg bracket.1,
    if_neg bracket.2, if_pos opens, inner]
  rfl

theorem outsideQuotes_of_passes {body : Text} (h : Passes body) (rest : Text) :
    outsideQuotes none '[' (body ++ ']' :: rest) = ⟨body, .closed, ']' :: rest⟩ := by
  obtain ⟨before, e⟩ := h '[' (']' :: rest)
  rw [e]
  simp [outsideQuotes, across]

theorem run_of_passes {body : Text} (h : Passes body) (rest : Text) :
    run (body ++ ']' :: rest) = ⟨body, .closed, ']' :: rest⟩ := by
  simp [run, outsideQuotes_of_passes h rest]

end Search

/-! ### Names and bodies -/

theorem isBlank_of_isNameChar {c : Char} (h : isNameChar c) : Text.isBlank c = false := by
  have low : c.toNat = 45 ∨ (48 ≤ c.toNat ∧ c.toNat ≤ 57) ∨ (65 ≤ c.toNat ∧ c.toNat ≤ 90) ∨
      c.toNat = 95 ∨ (97 ≤ c.toNat ∧ c.toNat ≤ 122) := by
    unfold isNameChar Char.isAlphanum Char.isAlpha Char.isUpper Char.isLower Char.isDigit at h
    simp only [Bool.or_eq_true, Bool.and_eq_true, decide_eq_true_eq, beq_iff_eq, ge_iff_le,
      UInt32.le_iff_toNat_le, Char.toNat_val, Char.reduceToNat] at h
    rcases h with (h | rfl) | rfl
    · omega
    · decide
    · decide
  simp only [Text.isBlank, Bool.or_eq_false_iff, Bool.and_eq_false_iff, beq_eq_false_iff_ne,
    decide_eq_false_iff_not]
  omega

/-- A text that ends neither in a blank nor in a slash. -/
def Firm (text : Text) : Prop :=
  ∃ front last, text = front ++ [last] ∧ Text.isBlank last = false ∧ last ≠ '/'

theorem Firm.append {second : Text} (h : Firm second) (first : Text) : Firm (first ++ second) := by
  obtain ⟨front, last, rfl, blank, slash⟩ := h
  exact ⟨first ++ front, last, by simp, blank, slash⟩

theorem trimEnd_append_singleton (front : Text) {last : Char} (h : Text.isBlank last = false) :
    Text.trimEnd (front ++ [last]) = front ++ [last] := by
  simp [Text.trimEnd, Text.dropEndWhile, h]

theorem selfClosingBody?_of_firm {body : Text} (h : Firm body) : selfClosingBody? body = none := by
  obtain ⟨front, last, rfl, blank, slash⟩ := h
  simp [selfClosingBody?, trimEnd_append_singleton front blank, Text.stripEnd?,
    Text.stripStart?, Ne.symm slash]

theorem selfClosingBody?_append_slash (body : Text) :
    selfClosingBody? (body ++ ['/']) = some body := by
  have blank : Text.isBlank '/' = false := by decide
  simp [selfClosingBody?, trimEnd_append_singleton body blank, Text.stripEnd?, Text.stripStart?]

theorem isNameChar_of_isName {name : Text} (h : isName name) : ∀ c ∈ name, isNameChar c := by
  cases name with
  | nil => simp
  | cons c cs =>
    simp only [isName, Bool.and_eq_true, List.all_eq_true] at h
    intro d hd
    rcases List.mem_cons.1 hd with rfl | hd
    · have start := h.1
      simp only [isNameStart, isNameChar, Char.isAlphanum, Bool.or_eq_true] at start ⊢
      tauto
    · exact h.2 d hd

theorem not_isNameChar_of_isTail {c : Char} {tail : Text} (h : isTail (c :: tail)) :
    isNameChar c = false := by
  cases name : isNameChar c with
  | false => rfl
  | true =>
    simp only [isTail, isBlank_of_isNameChar name, Bool.or_false, beq_iff_eq] at h
    subst h
    exact absurd name (by decide)

theorem splitName_append {name tail : Text} (hname : isName name) (htail : isTail tail) :
    splitName (name ++ tail) = some (name, tail) := by
  have chars := isNameChar_of_isName hname
  have taken : (name ++ tail).takeWhile isNameChar = name := by
    rw [List.takeWhile_append_of_pos chars]
    cases tail with
    | nil => simp
    | cons c cs => simp [not_isNameChar_of_isTail htail]
  have dropped : (name ++ tail).dropWhile isNameChar = tail := by
    rw [List.dropWhile_append_of_pos chars]
    cases tail with
    | nil => simp
    | cons c cs => simp [not_isNameChar_of_isTail htail]
  simp [splitName, taken, dropped, hname, htail]

theorem firm_of_isName {name : Text} (h : isName name) : Firm name := by
  have chars := isNameChar_of_isName h
  rcases List.eq_nil_or_concat name with rfl | ⟨front, last, rfl⟩
  · simp [isName] at h
  · have hlast := chars last (by simp)
    refine ⟨front, last, by simp, isBlank_of_isNameChar hlast, ?_⟩
    rintro rfl
    exact absurd hlast (by decide)

theorem trimEnd_of_isName {name : Text} (h : isName name) : Text.trimEnd name = name := by
  obtain ⟨front, last, rfl, blank, -⟩ := firm_of_isName h
  exact trimEnd_append_singleton front blank

theorem ordinary_of_isName {name : Text} (h : isName name) :
    ∀ c ∈ name, Search.isOrdinary c := by
  intro c hc
  have char := isNameChar_of_isName h c hc
  simp only [Search.isOrdinary, Bool.and_eq_true, bne_iff_ne]
  refine ⟨⟨⟨?_, ?_⟩, ?_⟩, ?_⟩ <;>
  · rintro rfl
    exact absurd char (by decide)

theorem ne_of_isName_append {name rest more : Text} {c : Char} (h : isName name)
    (hc : isNameStart c = false) : name ++ rest ≠ c :: more := by
  cases name with
  | nil => simp [isName] at h
  | cons d ds =>
    simp only [isName, Bool.and_eq_true] at h
    intro e
    rw [List.cons_append, List.cons.injEq] at e
    rw [← e.1, h.1] at hc
    exact absurd hc (by simp)

namespace TagHead

theorem isTail_tail (h : TagHead) : isTail h.tail := by
  cases unnamed : h.unnamed with
  | some v => simp [tail, unnamed, isTail]
  | none =>
    cases named : h.named with
    | nil => simp [tail, unnamed, named, isTail]
    | cons entry entries =>
      simp [tail, unnamed, named, isTail, printEntry, Text.isBlank]

theorem isTail_tail_append_blank (h : TagHead) : isTail (h.tail ++ [' ']) := by
  have start := h.isTail_tail
  cases tail : h.tail with
  | nil => rfl
  | cons c cs => simpa [tail, isTail] using start

theorem passes_printEntry (entry : Key × QuotedValue) : Search.Passes (printEntry entry) := by
  have key : Search.Passes (' ' :: entry.1.text) := by
    apply Search.passes_of_ordinary
    intro c hc
    rcases List.mem_cons.1 hc with rfl | hc
    · decide
    · obtain ⟨-, -, double, single, opening, closing⟩ := entry.1.plain c hc
      simp [Search.isOrdinary, double, single, opening, closing]
  simpa [printEntry] using key.append (Search.passes_quoted entry.2)

theorem passes_flatMap_printEntry (entries : List (Key × QuotedValue)) :
    Search.Passes (entries.flatMap printEntry) := by
  induction entries with
  | nil => exact Search.passes_nil
  | cons entry entries ih => exact (passes_printEntry entry).append ih

theorem passes_tail (h : TagHead) : Search.Passes h.tail := by
  have named := passes_flatMap_printEntry h.named
  cases unnamed : h.unnamed with
  | none => simpa [tail, unnamed] using named
  | some v => simpa [tail, unnamed] using (Search.passes_quoted v).append named

theorem passes_body (h : TagHead) : Search.Passes (h.name ++ h.tail) :=
  (Search.passes_of_ordinary (ordinary_of_isName h.isName)).append h.passes_tail

theorem firm_quoted (v : QuotedValue) : Firm ('=' :: v.print) := by
  refine ⟨'=' :: v.mark :: v.text, v.mark, rfl, ?_⟩
  rcases v.isMark with mark | mark <;> simp [mark, Text.isBlank]

theorem firm_flatMap_printEntry {front : Text} (h : Firm front)
    (entries : List (Key × QuotedValue)) : Firm (front ++ entries.flatMap printEntry) := by
  induction entries generalizing front with
  | nil => simpa using h
  | cons entry entries ih =>
    have value : Firm (front ++ printEntry entry) := by
      have quoted := (firm_quoted entry.2).append (front ++ ' ' :: entry.1.text)
      simpa [printEntry] using quoted
    simpa using ih value

theorem firm_body (h : TagHead) : Firm (h.name ++ h.tail) := by
  have name := firm_of_isName h.isName
  cases unnamed : h.unnamed with
  | none => simpa [tail, unnamed] using firm_flatMap_printEntry name h.named
  | some v =>
    have value := (firm_quoted v).append h.name
    simpa [tail, unnamed] using firm_flatMap_printEntry value h.named

/-! ### The tags of a head -/

def openingTag (h : TagHead) : Tag := ⟨.opening, h.name, h.tail, h.openingMarkup⟩

def selfClosingTag (h : TagHead) : Tag :=
  ⟨.selfClosing, h.name, h.tail ++ [' '], h.selfClosingMarkup⟩

def closingTag (h : TagHead) : Tag := ⟨.closing, h.name, [], h.closingMarkup⟩

theorem ofBody?_opening (h : TagHead) : Tag.ofBody? (h.name ++ h.tail) = some h.openingTag := by
  rw [Tag.ofBody?, selfClosingBody?_of_firm h.firm_body]
  · simp only
    rw [splitName_append h.isName h.isTail_tail]
    rfl
  · exact fun _ => ne_of_isName_append h.isName (by decide)

theorem ofBody?_selfClosing (h : TagHead) :
    Tag.ofBody? (h.name ++ h.tail ++ [' ', '/']) = some h.selfClosingTag := by
  have inner : selfClosingBody? (h.name ++ h.tail ++ [' ', '/']) =
      some (h.name ++ (h.tail ++ [' '])) := by
    have slash := selfClosingBody?_append_slash (h.name ++ (h.tail ++ [' ']))
    simpa using slash
  rw [Tag.ofBody?, inner]
  · simp only
    rw [splitName_append h.isName h.isTail_tail_append_blank]
    rfl
  · intro more
    rw [List.append_assoc]
    exact ne_of_isName_append h.isName (by decide)

theorem ofBody?_closing (h : TagHead) : Tag.ofBody? ('/' :: h.name) = some h.closingTag := by
  have trimmed := trimEnd_of_isName h.isName
  simp [Tag.ofBody?, trimmed, h.isName, closingTag, closingMarkup]

theorem whole_of_body {body : Text} {tag : Tag} (passes : Search.Passes body)
    (single : ∀ more, body ≠ '[' :: more) (shape : Tag.ofBody? body = some tag) : tag.Whole where
  alone := by
    have read := readToken_markup_append single (Search.run_of_passes passes []) shape
    rw [List.append_nil] at read
    rw [tokenize_of_readToken read, tokenize_nil]
  closed := by
    have inside : tag.markup.drop 1 = body ++ [']'] := by
      simp [Tag.ofBody?_markup shape]
    rw [inside, Search.outsideQuotes_of_passes passes []]

theorem whole_openingTag (h : TagHead) : h.openingTag.Whole :=
  whole_of_body h.passes_body (fun _ => ne_of_isName_append h.isName (by decide))
    h.ofBody?_opening

theorem whole_selfClosingTag (h : TagHead) : h.selfClosingTag.Whole := by
  refine whole_of_body (h.passes_body.append ?_) ?_ h.ofBody?_selfClosing
  · exact Search.passes_of_ordinary (by simp [Search.isOrdinary])
  · intro more
    rw [List.append_assoc]
    exact ne_of_isName_append h.isName (by decide)

theorem whole_closingTag (h : TagHead) : h.closingTag.Whole := by
  refine whole_of_body (Search.passes_of_ordinary ?_) (by simp) h.ofBody?_closing
  intro c hc
  rcases List.mem_cons.1 hc with rfl | hc
  · decide
  · exact ordinary_of_isName h.isName c hc

end TagHead

/-! ### The parameters of a head -/

theorem absorb_flatMap_printEntry (entries : List (Key × QuotedValue)) (p : Parameters)
    (rest : Text)
    (distinct : (p.named.map Prod.fst ++ entries.map fun entry => entry.1.text).Nodup) :
    p.absorb (entries.flatMap printEntry ++ rest) =
      Parameters.absorb ⟨p.unnamed,
        p.named ++ entries.map fun entry => (entry.1.text, entry.2.text)⟩ rest := by
  induction entries generalizing p with
  | nil => simp
  | cons entry entries ih =>
    obtain ⟨key, value⟩ := entry
    have word : ∀ c ∈ key.text, Parameters.isWordChar c ∧ c ≠ '"' ∧ c ≠ '\'' := by
      intro c hc
      obtain ⟨blank, equals, double, single, -, -⟩ := key.plain c hc
      exact ⟨by simp [Parameters.isWordChar, blank, equals], double, single⟩
    have first := Parameters.absorb_entry key.nonempty word value.isMark value.absent p
      (entries.flatMap printEntry ++ rest)
    have fresh : key.text ∉ p.named.map Prod.fst := by
      intro mem
      exact (List.nodup_append.1 distinct).2.2 _ mem _ (by simp) rfl
    have added : p.insert key.text value.text =
        ⟨p.unnamed, p.named ++ [(key.text, value.text)]⟩ := by
      rw [Parameters.insert, Parameters.put_of_notMem fresh]
    have printed : (⟨key, value⟩ :: entries : List (Key × QuotedValue)).flatMap printEntry ++ rest =
        ' ' :: (key.text ++ '=' :: value.mark :: (value.text ++ value.mark ::
          (entries.flatMap printEntry ++ rest))) := by
      simp [printEntry, QuotedValue.print]
    rw [printed, first, added, ih]
    · simp
    · simpa using distinct

/-- Behind a printed tail, blanks alone may follow. -/
theorem parse_tail_append (h : TagHead) (blanks : Text) (hblanks : Text.trimStart blanks = [])
    (start : ∀ more, blanks ≠ '=' :: more) :
    Parameters.parse (h.tail ++ blanks) = h.parameters := by
  cases unnamed : h.unnamed with
  | none =>
    have distinct : (([] : List (Text × Text)).map Prod.fst ++
        h.named.map fun entry => entry.1.text).Nodup := by simpa using h.distinct
    have notEquals : ∀ more, h.named.flatMap printEntry ++ blanks ≠ '=' :: more := by
      intro more
      cases named : h.named with
      | nil => simpa using start more
      | cons entry entries => simp [printEntry]
    have tail : h.tail = h.named.flatMap printEntry := by simp [TagHead.tail, unnamed]
    rw [tail, Parameters.parse]
    · rw [absorb_flatMap_printEntry h.named {} blanks distinct,
        Parameters.absorb_of_trimStart_nil hblanks]
      simp [TagHead.parameters, unnamed]
    · exact notEquals
  | some v =>
    have distinct : (([] : List (Text × Text)).map Prod.fst ++
        h.named.map fun entry => entry.1.text).Nodup := by simpa using h.distinct
    have value := takeValue_quoted v.isMark v.absent (h.named.flatMap printEntry ++ blanks)
    have tail : h.tail ++ blanks =
        '=' :: v.mark :: (v.text ++ v.mark :: (h.named.flatMap printEntry ++ blanks)) := by
      simp [TagHead.tail, unnamed, QuotedValue.print]
    rw [tail, Parameters.parse, value]
    simp only
    rw [absorb_flatMap_printEntry h.named ⟨some v.text, []⟩ blanks distinct,
      Parameters.absorb_of_trimStart_nil hblanks]
    simp [TagHead.parameters, unnamed]

theorem parse_tail (h : TagHead) : Parameters.parse h.tail = h.parameters := by
  simpa using parse_tail_append h [] (by simp [Text.trimStart]) (by simp)

theorem parse_tail_append_blank (h : TagHead) :
    Parameters.parse (h.tail ++ [' ']) = h.parameters :=
  parse_tail_append h [' '] (by decide) (by simp)

end StyledText.Markup
