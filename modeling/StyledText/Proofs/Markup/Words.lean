import Mathlib.Data.List.TakeWhile
import Mathlib.Logic.Function.Iterate
import StyledText.Proofs.Markup.Parameters
import StyledText.Proofs.Text.Splitting

/-!
# Words of parameters

Behind the name of a tag stand words: values in quotation marks or without, keys with a value, and
equals signs without a key. Every text is made of words in one way, the reader takes one word in a
pass, and every pass gets further in the text.
-/
namespace StyledText.Markup

abbrev IsMark (c : Char) : Prop := c = '"' ∨ c = '\''

theorem IsMark.not_isBlank {c : Char} (h : IsMark c) : Text.isBlank c = false := by
  rcases h with rfl | rfl <;> decide

/-! ### Values -/

/-- A text, the value in front of it and what follows. A value stands in quotation marks or runs to
the next blank; a quotation that is not closed runs to the end. -/
inductive ReadsValue : Text → Text → Text → Prop
  | quoted {mark : Char} (isMark : IsMark mark) {value : Text} (absent : mark ∉ value)
      (rest : Text) : ReadsValue (mark :: (value ++ mark :: rest)) value rest
  | unclosed {mark : Char} (isMark : IsMark mark) {value : Text} (absent : mark ∉ value) :
      ReadsValue (mark :: value) value []
  | plain {value rest : Text} (inside : ∀ c ∈ value, Text.isBlank c = false)
      (unquoted : ∀ c ∈ value.head?, ¬ IsMark c) (stop : ∀ c ∈ rest.head?, Text.isBlank c) :
      ReadsValue (value ++ rest) value rest

theorem not_of_mem_head?_dropWhile {p : Char → Bool} {t : Text} {c : Char}
    (h : c ∈ (t.dropWhile p).head?) : ¬ p c := by
  have stop := List.head?_dropWhile_not p t
  rw [Option.mem_def.1 h] at stop
  simpa using stop

theorem readsValue_takeValue (t : Text) : ReadsValue t (takeValue t).1 (takeValue t).2 := by
  cases t with
  | nil =>
    have read : ReadsValue ([] ++ []) [] [] := .plain (by simp) (by simp) (by simp)
    exact read
  | cons c cs =>
    rw [takeValue]
    split
    · next isMark =>
      have absent : c ∉ cs.takeWhile (· != c) := fun mem => by
        simpa using List.mem_takeWhile_imp mem
      have split : cs.takeWhile (· != c) ++ cs.dropWhile (· != c) = cs :=
        List.takeWhile_append_dropWhile
      rcases behind : cs.dropWhile (· != c) with _ | ⟨d, rest⟩
      · rw [behind, List.append_nil] at split
        have read := ReadsValue.unclosed isMark absent
        rw [split] at read
        simpa [split] using read
      · have stop := List.head?_dropWhile_not (· != c) cs
        rw [behind] at stop
        obtain rfl : d = c := by simpa using stop
        have read := ReadsValue.quoted isMark absent rest
        rw [behind] at split
        rwa [split] at read
    · next unquoted =>
      have read : ReadsValue
          ((c :: cs).takeWhile (!Text.isBlank ·) ++ (c :: cs).dropWhile (!Text.isBlank ·))
          ((c :: cs).takeWhile (!Text.isBlank ·)) ((c :: cs).dropWhile (!Text.isBlank ·)) := by
        refine .plain (fun d mem => ?_) (fun d mem => ?_) (fun d mem => ?_)
        · simpa using List.mem_takeWhile_imp mem
        · rw [List.takeWhile_cons] at mem
          split at mem
          · obtain rfl : c = d := by simpa using mem
            exact unquoted
          · simp at mem
        · simpa using not_of_mem_head?_dropWhile mem
      rwa [List.takeWhile_append_dropWhile] at read

theorem ReadsValue.takeValue_eq {t value rest : Text} (h : ReadsValue t value rest) :
    takeValue t = (value, rest) := by
  cases h with
  | quoted isMark absent => exact takeValue_quoted isMark absent rest
  | @unclosed mark isMark _ absent =>
    have inside : ∀ c ∈ value, (c != mark) = true := fun c mem => by
      rw [bne_iff_ne]
      rintro rfl
      exact absent mem
    rw [takeValue, if_pos isMark, List.takeWhile_eq_self_iff.2 inside,
      List.dropWhile_eq_nil_iff.2 inside]
    rfl
  | plain inside unquoted stop =>
    have bare : ∀ c ∈ value, (!Text.isBlank c) = true := fun c mem => by simp [inside c mem]
    have ends : ∀ c ∈ rest.head?, ¬ (!Text.isBlank c) = true := fun c mem => by simp [stop c mem]
    have word := Text.takeWhile_append_of_head? bare ends
    have behind := Text.dropWhile_append_of_head? bare ends
    have unmarked : ∀ c ∈ (value ++ rest).head?, ¬ IsMark c := by
      cases value with
      | nil =>
        intro c mem isMark
        simpa [isMark.not_isBlank] using stop c mem
      | cons d ds => simpa using unquoted
    rcases joined : value ++ rest with _ | ⟨c, cs⟩
    · obtain ⟨rfl, rfl⟩ := List.append_eq_nil_iff.1 joined
      rfl
    · rw [joined] at word behind unmarked
      rw [takeValue, if_neg (unmarked c rfl), word, behind]

theorem ReadsValue.suffix {t value rest : Text} (h : ReadsValue t value rest) : rest <:+ t := by
  cases h with
  | @quoted mark isMark _ absent => exact ⟨mark :: (value ++ [mark]), by simp⟩
  | unclosed => exact List.nil_suffix
  | plain => exact List.suffix_append _ _

/-! ### Words -/

/-- What the reader finds in one pass. -/
inductive Word where
  | entry (key value : Text)
  | bare (value : Text)
  /-- An equals sign with neither key nor value. -/
  | nothing
  deriving DecidableEq, Repr

/-- A run of characters that may be a key or a word of its own. It does not begin with a quotation
mark. -/
structure IsKey (key : Text) : Prop where
  nonempty : key ≠ []
  plain : ∀ c ∈ key, Parameters.isWordChar c
  unquoted : ∀ c ∈ key.head?, ¬ IsMark c

/-- A text, the word in front of it and what follows. Without a key a value is a bare word, and an
equals sign in front of it is passed over. -/
inductive ReadsWord : Text → Word → Text → Prop
  | quoted {mark : Char} (isMark : IsMark mark) {t value rest : Text}
      (read : ReadsValue (mark :: t) value rest) : ReadsWord (mark :: t) (.bare value) rest
  | stray {t value rest : Text} (read : ReadsValue t value rest) (nonempty : value ≠ []) :
      ReadsWord ('=' :: t) (.bare value) rest
  | nothing {t rest : Text} (read : ReadsValue t [] rest) : ReadsWord ('=' :: t) .nothing rest
  | entry {key t value rest : Text} (isKey : IsKey key) (read : ReadsValue t value rest) :
      ReadsWord (key ++ '=' :: t) (.entry key value) rest
  | bare {word rest : Text} (isKey : IsKey word) (stop : ∀ c ∈ rest.head?, Text.isBlank c) :
      ReadsWord (word ++ rest) (.bare word) rest

namespace Parameters

/-- Take a word into the parameters. -/
def take (p : Parameters) : Word → Parameters
  | .entry key value => p.insert key value
  | .bare value => p.pushBare value
  | .nothing => p

theorem isWordChar_iff {c : Char} :
    isWordChar c = true ↔ c ≠ '=' ∧ Text.isBlank c = false := by
  simp [isWordChar]

theorem step_bare {c : Char} {cs rest : Text} (isKey : IsKey (c :: cs))
    (stop : ∀ d ∈ rest.head?, Text.isBlank d) (p : Parameters) :
    p.step c (cs ++ rest) = (p.pushBare (c :: cs), rest) := by
  have inside : ∀ d ∈ cs, isWordChar d := fun d mem => isKey.plain d (List.mem_cons_of_mem c mem)
  have ends : ∀ d ∈ rest.head?, ¬ isWordChar d := fun d mem => by
    simp [isWordChar_iff, stop d mem]
  have first := isWordChar_iff.1 (isKey.plain c List.mem_cons_self)
  rw [step, if_neg (isKey.unquoted c rfl), if_neg first.1,
    Text.takeWhile_append_of_head? inside ends, Text.dropWhile_append_of_head? inside ends]
  split
  · exact absurd (stop '=' rfl) (by decide)
  · rfl

end Parameters

/-- A word begins with a character that is not blank, and the reader takes it at once, whatever it
has read before. -/
theorem ReadsWord.exists_cons {t rest : Text} {w : Word} (h : ReadsWord t w rest) :
    ∃ c cs, t = c :: cs ∧ Text.isBlank c = false ∧ rest <:+ cs ∧
      ∀ p : Parameters, p.step c cs = (p.take w, rest) := by
  have equals : ¬ IsMark '=' := by decide
  cases h with
  | @quoted mark isMark t value _ read =>
    have behind : rest <:+ t := by
      have shorter := length_takeValue_lt_of_quote isMark t
      rw [read.takeValue_eq] at shorter
      refine (List.suffix_cons_iff.1 read.suffix).resolve_left ?_
      rintro rfl
      exact absurd shorter (Nat.lt_irrefl _)
    refine ⟨mark, t, rfl, isMark.not_isBlank, behind, fun p => ?_⟩
    rw [Parameters.step, if_pos isMark, read.takeValue_eq]
    rfl
  | @stray t value _ read nonempty =>
    refine ⟨'=', t, rfl, by decide, read.suffix, fun p => ?_⟩
    rw [Parameters.step, if_neg equals, if_pos rfl, read.takeValue_eq]
    simp only [if_neg nonempty, Parameters.take]
  | @nothing t _ read =>
    refine ⟨'=', t, rfl, by decide, read.suffix, fun p => ?_⟩
    rw [Parameters.step, if_neg equals, if_pos rfl, read.takeValue_eq]
    rfl
  | @entry key t value _ isKey read =>
    obtain ⟨c, cs, rfl⟩ := List.exists_cons_of_ne_nil isKey.nonempty
    have first := Parameters.isWordChar_iff.1 (isKey.plain c List.mem_cons_self)
    have behind : rest <:+ cs ++ '=' :: t :=
      (read.suffix.trans (List.suffix_cons '=' t)).trans (List.suffix_append cs _)
    refine ⟨c, cs ++ '=' :: t, rfl, first.2, behind, fun p => ?_⟩
    rw [Parameters.step_key isKey.plain (isKey.unquoted c rfl), read.takeValue_eq]
    rfl
  | @bare word _ isKey stop =>
    obtain ⟨c, cs, rfl⟩ := List.exists_cons_of_ne_nil isKey.nonempty
    have first := Parameters.isWordChar_iff.1 (isKey.plain c List.mem_cons_self)
    exact ⟨c, cs ++ rest, rfl, first.2, List.suffix_append cs rest,
      fun p => Parameters.step_bare isKey stop p⟩

/-- Behind blanks there is always a word. -/
theorem exists_readsWord {c : Char} (notBlank : Text.isBlank c = false) (cs : Text) :
    ∃ w rest, ReadsWord (c :: cs) w rest := by
  by_cases isMark : IsMark c
  · exact ⟨_, _, .quoted isMark (readsValue_takeValue _)⟩
  by_cases equals : c = '='
  · subst equals
    have read := readsValue_takeValue cs
    by_cases empty : (takeValue cs).1 = []
    · rw [empty] at read
      exact ⟨_, _, .nothing read⟩
    · exact ⟨_, _, .stray read empty⟩
  have isKey : IsKey (c :: cs.takeWhile Parameters.isWordChar) := by
    refine ⟨by simp, fun d mem => ?_, by simpa using isMark⟩
    rcases List.mem_cons.1 mem with rfl | mem
    · exact Parameters.isWordChar_iff.2 ⟨equals, notBlank⟩
    · exact List.mem_takeWhile_imp mem
  have split : cs.takeWhile Parameters.isWordChar ++ cs.dropWhile Parameters.isWordChar = cs :=
    List.takeWhile_append_dropWhile
  by_cases key : ∃ more, cs.dropWhile Parameters.isWordChar = '=' :: more
  · obtain ⟨more, behind⟩ := key
    have read := ReadsWord.entry isKey (readsValue_takeValue more)
    rw [List.cons_append, ← behind, split] at read
    exact ⟨_, _, read⟩
  · have stop : ∀ d ∈ (cs.dropWhile Parameters.isWordChar).head?, Text.isBlank d := fun d mem => by
      have ends := not_of_mem_head?_dropWhile mem
      obtain ⟨more, behind⟩ := List.head?_eq_some_iff.1 (Option.mem_def.1 mem)
      have noEquals : d ≠ '=' := by
        rintro rfl
        exact key ⟨more, behind⟩
      simpa [Parameters.isWordChar_iff, noEquals] using ends
    have read := ReadsWord.bare isKey stop
    rw [List.cons_append, split] at read
    exact ⟨_, _, read⟩

/-! ### Texts of words -/

theorem exists_blanks_append (t : Text) :
    ∃ blanks : Text, (∀ c ∈ blanks, Text.isBlank c) ∧ t = blanks ++ Text.trimStart t :=
  ⟨t.takeWhile Text.isBlank, fun _ mem => List.mem_takeWhile_imp mem,
    List.takeWhile_append_dropWhile.symm⟩

theorem not_isBlank_of_trimStart {t cs : Text} {c : Char} (h : Text.trimStart t = c :: cs) :
    Text.isBlank c = false := by
  simpa using not_of_mem_head?_dropWhile (Option.mem_def.2 (congrArg List.head? h))

/-- The words of a text, with any blanks in front of them and behind the last one. -/
inductive ReadsWords : Text → List Word → Prop
  | done {blanks : Text} (blank : ∀ c ∈ blanks, Text.isBlank c) : ReadsWords blanks []
  | word {blanks t rest : Text} {w : Word} {words : List Word}
      (blank : ∀ c ∈ blanks, Text.isBlank c) (first : ReadsWord t w rest)
      (behind : ReadsWords rest words) : ReadsWords (blanks ++ t) (w :: words)

theorem ReadsWords.length_le {t : Text} {words : List Word} (h : ReadsWords t words) :
    words.length ≤ t.length := by
  induction h with
  | done => exact Nat.zero_le _
  | word blank first behind ih =>
    obtain ⟨c, cs, rfl, -, suffix, -⟩ := first.exists_cons
    have shorter := suffix.length_le
    simp only [List.length_append, List.length_cons]
    omega

theorem exists_readsWords (t : Text) : ∃ words, ReadsWords t words := by
  obtain ⟨blanks, blank, split⟩ := exists_blanks_append t
  rcases trimmed : Text.trimStart t with _ | ⟨c, cs⟩
  · rw [trimmed, List.append_nil] at split
    exact ⟨[], split ▸ .done blank⟩
  · rw [trimmed] at split
    obtain ⟨w, rest, first⟩ := exists_readsWord (not_isBlank_of_trimStart trimmed) cs
    have shorter : rest.length < t.length := by
      obtain ⟨_, _, same, -, suffix, -⟩ := first.exists_cons
      obtain ⟨rfl, rfl⟩ := List.cons.inj same
      have inside := suffix.length_le
      rw [split]
      simp only [List.length_append, List.length_cons]
      omega
    obtain ⟨words, behind⟩ := exists_readsWords rest
    exact ⟨w :: words, split ▸ .word blank first behind⟩
termination_by t.length

/-- The words of a raw text and the value behind a leading equals sign, if there is one. -/
inductive Reads : Text → Option Text → List Word → Prop
  | leading {t value rest : Text} {words : List Word} (read : ReadsValue t value rest)
      (behind : ReadsWords rest words) : Reads ('=' :: t) (some value) words
  | plain {t : Text} {words : List Word} (start : ∀ c ∈ t.head?, c ≠ '=')
      (read : ReadsWords t words) : Reads t none words

namespace Parameters

/-- What the passes start from: the raw text without a leading equals sign and its value. -/
def start : Text → Parameters × Text
  | '=' :: t => ({ unnamed := some (takeValue t).1 }, (takeValue t).2)
  | t => ({}, t)

/-- One pass: blanks are skipped and one word is taken. Behind the last word nothing changes. -/
def pass (s : Parameters × Text) : Parameters × Text :=
  match Text.trimStart s.2 with
  | [] => s
  | c :: cs => s.1.step c cs

theorem start_plain {raw : Text} (plain : ∀ t, raw ≠ '=' :: t) : start raw = ({}, raw) :=
  start.eq_2 raw plain

theorem parse_eq_absorb_start (raw : Text) : parse raw = absorb (start raw).1 (start raw).2 := by
  by_cases equals : ∃ t, raw = '=' :: t
  · obtain ⟨t, rfl⟩ := equals
    rfl
  · have plain := not_exists.1 equals
    rw [start_plain plain, parse.eq_2 raw plain]

theorem trimStart_blanks {blanks : Text} (blank : ∀ c ∈ blanks, Text.isBlank c) :
    Text.trimStart blanks = [] := List.dropWhile_eq_nil_iff.2 blank

theorem trimStart_append {blanks cs : Text} {c : Char} (blank : ∀ d ∈ blanks, Text.isBlank d)
    (notBlank : Text.isBlank c = false) : Text.trimStart (blanks ++ c :: cs) = c :: cs := by
  rw [Text.trimStart, List.dropWhile_append_of_pos blank, List.dropWhile_cons_of_neg]
  simp [notBlank]

/-- The reader takes the words of a text one by one, a pass for each. -/
theorem absorb_of_readsWords {t : Text} {words : List Word} (h : ReadsWords t words)
    (p : Parameters) :
    p.absorb t = words.foldl take p ∧
      ∃ rest, pass^[words.length] (p, t) = (words.foldl take p, rest) ∧
        Text.trimStart rest = [] := by
  induction h generalizing p with
  | done blank =>
    exact ⟨absorb_of_trimStart_nil (trimStart_blanks blank) p, _, rfl, trimStart_blanks blank⟩
  | @word blanks t rest w words blank first behind ih =>
    obtain ⟨c, cs, rfl, notBlank, -, read⟩ := first.exists_cons
    have trimmed : Text.trimStart (blanks ++ c :: cs) = c :: cs := trimStart_append blank notBlank
    have passed : pass (p, blanks ++ c :: cs) = (p.take w, rest) := by
      rw [pass, trimmed]
      exact read p
    have absorbed : p.absorb (blanks ++ c :: cs) = (p.take w).absorb rest := by
      rw [absorb_of_trimStart_cons trimmed, read p]
    obtain ⟨taken, last, passes, blankLast⟩ := ih (p.take w)
    rw [absorbed, List.foldl_cons, List.length_cons, Function.iterate_succ_apply, passed]
    exact ⟨taken, last, passes, blankLast⟩

theorem exists_pass_eq {s : Parameters × Text} (more : Text.trimStart s.2 ≠ []) :
    ∃ w read, read ≠ [] ∧ s.2 = read ++ (pass s).2 ∧ (pass s).1 = s.1.take w := by
  obtain ⟨blanks, -, split⟩ := exists_blanks_append s.2
  obtain ⟨c, cs, trimmed⟩ := List.exists_cons_of_ne_nil more
  obtain ⟨w, rest, first⟩ := exists_readsWord (not_isBlank_of_trimStart trimmed) cs
  obtain ⟨_, _, same, -, ⟨word, rfl⟩, taken⟩ := first.exists_cons
  obtain ⟨rfl, rfl⟩ := List.cons.inj same
  have passed : pass s = (s.1.take w, rest) := by
    rw [pass, trimmed]
    exact taken s.1
  refine ⟨w, blanks ++ c :: word, by simp, ?_, by rw [passed]⟩
  rw [passed, List.append_assoc, List.cons_append, ← trimmed]
  exact split

end Parameters

theorem exists_reads (raw : Text) : ∃ leading words, Reads raw leading words := by
  by_cases equals : ∃ t, raw = '=' :: t
  · obtain ⟨t, rfl⟩ := equals
    obtain ⟨words, behind⟩ := exists_readsWords (takeValue t).2
    exact ⟨_, words, .leading (readsValue_takeValue t) behind⟩
  · obtain ⟨words, read⟩ := exists_readsWords raw
    refine ⟨none, words, .plain (fun c mem => ?_) read⟩
    rintro rfl
    exact equals (List.head?_eq_some_iff.1 mem)

namespace Reads

variable {raw : Text} {leading : Option Text} {words : List Word}

theorem length_le (h : Reads raw leading words) : words.length ≤ raw.length := by
  cases h with
  | leading read behind =>
    have value := read.suffix.length_le
    have rest := behind.length_le
    rw [List.length_cons]
    omega
  | plain _ read => exact read.length_le

theorem exists_start_eq (h : Reads raw leading words) :
    ∃ t, Parameters.start raw = ({ unnamed := leading }, t) ∧ ReadsWords t words := by
  cases h with
  | @leading t value rest _ read behind =>
    exact ⟨rest, by rw [Parameters.start, read.takeValue_eq], behind⟩
  | plain first read =>
    refine ⟨raw, Parameters.start_plain ?_, read⟩
    rintro t rfl
    exact first '=' rfl rfl

/-- The parameters of a raw text are its words, taken in order in as many passes. -/
theorem parse_eq (h : Reads raw leading words) :
    Parameters.parse raw = words.foldl Parameters.take { unnamed := leading } ∧
      ∃ rest, Parameters.pass^[words.length] (Parameters.start raw) =
        (Parameters.parse raw, rest) ∧ Text.trimStart rest = [] := by
  obtain ⟨t, started, read⟩ := h.exists_start_eq
  have absorbed := Parameters.absorb_of_readsWords read { unnamed := leading }
  rw [Parameters.parse_eq_absorb_start, started, absorbed.1]
  exact ⟨rfl, absorbed.2⟩

end Reads
end StyledText.Markup
