import Mathlib.Tactic.IntervalCases
import StyledText.Proofs.Terminal.Settling

/-!
# How colors are written

The written forms of colors are a relation beside the function that reads them. All of them are
read, and two more: a pair of hexadecimal digits with a plus sign for its leading zero, and a name
with a KELVIN SIGN for its `k`. The parameters that select a color tell it from every other.
-/
namespace StyledText

/-! ### Digits -/

namespace Digits

theorem toNat_toLower (c : Char) :
    c.toLower.toNat = if 65 ≤ c.toNat ∧ c.toNat ≤ 90 then c.toNat + 32 else c.toNat := by
  have upper : (c.val ≥ 'A'.val ∧ c.val ≤ 'Z'.val) ↔ 65 ≤ c.toNat ∧ c.toNat ≤ 90 := by
    simp [UInt32.le_iff_toNat_le]
  unfold Char.toLower
  split
  · next range =>
    have code : c.val.toNat = c.toNat := rfl
    have small := (upper.1 range).2
    rw [if_pos (upper.1 range)]
    change (c.val + 32).toNat = c.val.toNat + 32
    rw [UInt32.toNat_add]
    simp
    omega
  · next range => rw [if_neg (mt upper.2 range)]

theorem value_eq (c : Char) :
    value c =
      if 48 ≤ c.toNat ∧ c.toNat ≤ 57 then c.toNat - 48
      else if 97 ≤ c.toNat ∧ c.toNat ≤ 122 then c.toNat - 97 + 10
      else if 65 ≤ c.toNat ∧ c.toNat ≤ 90 then c.toNat - 65 + 10
      else 36 := by
  simp [value, Char.le_def, UInt32.le_iff_toNat_le]

theorem isDigit_iff_toNat {c : Char} : c.isDigit = true ↔ 48 ≤ c.toNat ∧ c.toNat ≤ 57 := by
  simp [Char.isDigit, UInt32.le_iff_toNat_le]

theorem toNat_digitChar {n : ℕ} (small : n < 16) :
    n.digitChar.toNat = if n < 10 then 48 + n else 87 + n := by
  interval_cases n <;> rfl

theorem toLower_eq_digitChar_iff {c : Char} {n : ℕ} (small : n < 16) :
    c.toLower = n.digitChar ↔ value c = n := by
  rw [← Char.toNat_inj, toNat_toLower, toNat_digitChar small, value_eq]
  split_ifs <;> omega

/-- Decimal digits spell what they spell in the standard library. -/
theorem toNat_ten {digits : Text} (h : ∀ c ∈ digits, c.isDigit) :
    toNat 10 digits = Nat.ofDigitChars 10 digits 0 := by
  have run (n : ℕ) : digits.foldl (fun n c => n * 10 + value c) n =
      Nat.ofDigitChars 10 digits n := by
    induction digits generalizing n with
    | nil => rfl
    | cons c cs ih =>
      have digit : value c = c.toNat - '0'.toNat := by
        rw [value_eq, if_pos (isDigit_iff_toNat.1 (h c List.mem_cons_self))]
        rfl
      rw [List.foldl_cons, ih (fun d mem => h d (List.mem_cons_of_mem c mem)),
        Nat.ofDigitChars_cons, digit, Nat.mul_comm]
  exact run 0

end Digits

namespace Style

/-! ### The written forms -/

/-- A hexadecimal digit in either case, and its value. -/
def IsHexDigit (c : Char) (n : ℕ) : Prop := n < 16 ∧ c.toLower = n.digitChar

/-- Two hexadecimal digits, and the byte that they stand for. -/
def IsHexByte (c d : Char) (byte : UInt8) : Prop :=
  ∃ m n, IsHexDigit c m ∧ IsHexDigit d n ∧ byte.toNat = 16 * m + n

/-- What stands behind `#`. Of three digits each stands for itself twice. -/
inductive HexForm : Text → Color → Prop
  | three {r g b : Char} {red green blue : UInt8} (hr : IsHexByte r r red)
      (hg : IsHexByte g g green) (hb : IsHexByte b b blue) :
      HexForm [r, g, b] (.rgb red green blue)
  | six {r r' g g' b b' : Char} {red green blue : UInt8} (hr : IsHexByte r r' red)
      (hg : IsHexByte g g' green) (hb : IsHexByte b b' blue) :
      HexForm [r, r', g, g', b, b'] (.rgb red green blue)

/-- A name in lower case. -/
inductive NameForm : Text → Color → Prop
  | base {name : Text} {base : BaseColor} (listed : (name, base) ∈ BaseColor.table) :
      NameForm name (.named base)
  | gray {name : Text} (either : name = "gray".toList ∨ name = "grey".toList) :
      NameForm name (.bright .black)
  | bright {name : Text} {base : BaseColor} (listed : (name, base) ∈ BaseColor.table) :
      NameForm ("bright_".toList ++ name) (.bright base)

/-- A text without blanks around it, and the color that it is written for. -/
inductive Spells : Text → Color → Prop
  | hex {digits : Text} {c : Color} (form : HexForm digits c) : Spells ('#' :: digits) c
  | index {digits : Text} {n : UInt8} (nonempty : digits ≠ []) (all : ∀ c ∈ digits, c.isDigit)
      (value : Nat.ofDigitChars 10 digits 0 = n.toNat) : Spells digits (.palette n)
  | name {t : Text} {c : Color} (form : NameForm (Text.asciiLower t) c) : Spells t c

/-! ### What is read in place of what is written -/

/-- A plus sign is taken for a leading zero. -/
def zeroOf (c : Char) : Char := if c = '+' then '0' else c

/-- KELVIN SIGN is taken for the letter. -/
def letterOf (c : Char) : Char := if c = '\u212a' then 'k' else c

def rereadDigits : Text → Text
  | [r, r', g, g', b, b'] => [zeroOf r, r', zeroOf g, g', zeroOf b, b']
  | digits => digits

/-- The text as it is understood. -/
def reread : Text → Text
  | '#' :: digits => '#' :: rereadDigits digits
  | t => t.map letterOf

theorem isHexDigit_iff {c : Char} {n : ℕ} :
    IsHexDigit c n ↔ Digits.value c = n ∧ Digits.isDigit 16 c := by
  rw [IsHexDigit, Digits.isDigit, decide_eq_true_eq]
  constructor
  · rintro ⟨small, lower⟩
    have value := (Digits.toLower_eq_digitChar_iff small).1 lower
    exact ⟨value, by omega⟩
  · rintro ⟨rfl, small⟩
    exact ⟨small, (Digits.toLower_eq_digitChar_iff small).2 rfl⟩

theorem isHexByte_iff {c d : Char} {byte : UInt8} :
    IsHexByte c d byte ↔
      Digits.isDigit 16 c ∧ Digits.isDigit 16 d ∧
        byte.toNat = 16 * Digits.value c + Digits.value d := by
  simp only [IsHexByte, isHexDigit_iff]
  constructor
  · rintro ⟨m, n, ⟨rfl, hc⟩, ⟨rfl, hd⟩, value⟩
    exact ⟨hc, hd, value⟩
  · rintro ⟨hc, hd, value⟩
    exact ⟨_, _, ⟨rfl, hc⟩, ⟨rfl, hd⟩, value⟩

theorem read?_pair {c d : Char} :
    Digits.read? 16 [c, d] =
      if Digits.isDigit 16 c ∧ Digits.isDigit 16 d then
        some (16 * Digits.value c + Digits.value d)
      else none := by
  simp [Digits.read?, Digits.toNat, Nat.mul_comm]

/-- A plus sign in front of one digit is read like a zero. -/
theorem unsigned?_pair (limit : ℕ) (c d : Char) :
    Digits.unsigned? 16 limit [c, d] =
      (Digits.read? 16 [zeroOf c, d]).filter (· ≤ limit) := by
  by_cases plus : c = '+'
  · have zero : Digits.isDigit 16 '0' ∧ Digits.value '0' = 0 := by decide
    subst plus
    rw [zeroOf, if_pos rfl, read?_pair, zero.2]
    simp [Digits.unsigned?, Digits.read?, Digits.toNat, zero.1]
  · rw [zeroOf, if_neg plus]
    simp [Digits.unsigned?, plus]

theorem ofNat_eq_iff {n : ℕ} (small : n < 256) {byte : UInt8} :
    UInt8.ofNat n = byte ↔ byte.toNat = n := by
  rw [← UInt8.toNat_inj, UInt8.toNat_ofNat_of_lt' small, eq_comm]

theorem byte?_eq_some_iff {c d : Char} {byte : UInt8} :
    Color.byte? [c, d] = some byte ↔ IsHexByte (zeroOf c) d byte := by
  rw [isHexByte_iff, Color.byte?, unsigned?_pair, read?_pair]
  by_cases digits : Digits.isDigit 16 (zeroOf c) ∧ Digits.isDigit 16 d
  · have first : Digits.value (zeroOf c) < 16 := by simpa [Digits.isDigit] using digits.1
    have second : Digits.value d < 16 := by simpa [Digits.isDigit] using digits.2
    have small : 16 * Digits.value (zeroOf c) + Digits.value d ≤ 255 := by omega
    rw [if_pos digits, Option.filter_some_pos (by simpa using small), Option.map_some,
      Option.some_inj, ofNat_eq_iff (by omega)]
    simp only [digits.1, digits.2, true_and]
  · rw [if_neg digits]
    simp only [Option.filter_none, Option.map_none, reduceCtorEq, false_iff]
    exact fun h => digits ⟨h.1, h.2.1⟩

theorem doubledDigit?_eq_some_iff {c : Char} {byte : UInt8} :
    Color.doubledDigit? c = some byte ↔ IsHexByte c c byte := by
  rw [isHexByte_iff, Color.doubledDigit?]
  by_cases digit : Digits.isDigit 16 c
  · have small : Digits.value c < 16 := by simpa [Digits.isDigit] using digit
    have unsigned : c ≠ '+' := by
      rintro rfl
      exact absurd digit (by decide)
    have read : Digits.unsigned? 16 15 [c] = some (Digits.value c) := by
      simp [Digits.unsigned?, Digits.read?, Digits.toNat, unsigned, digit]
      omega
    rw [read, Option.map_some, Option.some_inj, ofNat_eq_iff (by omega)]
    simp only [digit, true_and]
    omega
  · have read : Digits.unsigned? 16 15 [c] = none := by
      by_cases plus : c = '+'
      · subst plus
        rfl
      · simp [Digits.unsigned?, Digits.read?, plus, digit]
    simp [read, digit]

/-! ### Reading -/

theorem hexForm_three_iff {r g b : Char} {c : Color} :
    HexForm [r, g, b] c ↔ ∃ red green blue, Color.doubledDigit? r = some red ∧
      Color.doubledDigit? g = some green ∧ Color.doubledDigit? b = some blue ∧
      c = .rgb red green blue := by
  simp only [doubledDigit?_eq_some_iff]
  constructor
  · rintro ⟨⟩
    exact ⟨_, _, _, ‹_›, ‹_›, ‹_›, rfl⟩
  · rintro ⟨red, green, blue, hr, hg, hb, rfl⟩
    exact .three hr hg hb

theorem hexForm_six_iff {r r' g g' b b' : Char} {c : Color} :
    HexForm [zeroOf r, r', zeroOf g, g', zeroOf b, b'] c ↔
      ∃ red green blue, Color.byte? [r, r'] = some red ∧ Color.byte? [g, g'] = some green ∧
        Color.byte? [b, b'] = some blue ∧ c = .rgb red green blue := by
  simp only [byte?_eq_some_iff]
  constructor
  · rintro ⟨⟩
    exact ⟨_, _, _, ‹_›, ‹_›, ‹_›, rfl⟩
  · rintro ⟨red, green, blue, hr, hg, hb, rfl⟩
    exact .six hr hg hb

theorem ofHex_eq_ok_iff {digits : Text} {c : Color} :
    Color.ofHex digits = .ok c ↔ HexForm (rereadDigits digits) c := by
  unfold Color.ofHex
  split
  · next r g b =>
    have same : rereadDigits [r, g, b] = [r, g, b] := rfl
    rw [same, hexForm_three_iff]
    cases Color.doubledDigit? r <;> cases Color.doubledDigit? g <;>
      cases Color.doubledDigit? b <;> simp [eq_comm]
  · next r r' g g' b b' =>
    rw [rereadDigits, hexForm_six_iff]
    cases Color.byte? [r, r'] <;> cases Color.byte? [g, g'] <;> cases Color.byte? [b, b'] <;>
      simp [eq_comm]
  · next three six =>
    have same : rereadDigits digits = digits := by
      rw [rereadDigits]
      exact six
    rw [same]
    simp only [reduceCtorEq, false_iff]
    rintro ⟨⟩
    · exact three _ _ _ rfl
    · exact six _ _ _ _ _ _ rfl

theorem ofIndex_eq_ok_iff {digits : Text} (all : ∀ c ∈ digits, c.isDigit) {c : Color} :
    Color.ofIndex digits = .ok c ↔
      ∃ n : UInt8, Nat.ofDigitChars 10 digits 0 = n.toNat ∧ c = .palette n := by
  rw [← Digits.toNat_ten all, Color.ofIndex]
  by_cases small : Digits.toNat 10 digits ≤ 255
  · have word : ¬ Digits.toNat 10 digits > Digits.maxWord := by
      have large : 255 ≤ Digits.maxWord := by decide
      omega
    simp only [if_neg word, if_neg (Nat.not_lt.2 small), Except.ok.injEq]
    constructor
    · rintro rfl
      exact ⟨_, (UInt8.toNat_ofNat_of_lt' (by simpa [Nat.lt_succ_iff] using small)).symm, rfl⟩
    · rintro ⟨n, value, rfl⟩
      rw [value, UInt8.ofNat_toNat]
  · have large (n : UInt8) : Digits.toNat 10 digits ≠ n.toNat := by
      have byte := n.toNat_lt
      omega
    simp only [large, false_and, exists_false, iff_false]
    split
    · simp
    · rw [if_pos (Nat.lt_of_not_le small)]
      simp

theorem mem_table_iff {name : Text} {base : BaseColor} :
    (name, base) ∈ BaseColor.table ↔ BaseColor.ofName? name = some base := by
  constructor
  · have found : ∀ entry ∈ BaseColor.table, BaseColor.ofName? entry.1 = some entry.2 := by decide
    exact found (name, base)
  · intro found
    obtain ⟨before, after, split, -⟩ := List.lookup_eq_some_iff.1 found
    rw [split]
    simp

theorem map_lowerChar (name : Text) :
    name.map Color.lowerChar = Text.asciiLower (name.map letterOf) := by
  have lower : Char.toLower ∘ letterOf = Color.lowerChar := by
    funext c
    by_cases kelvin : c = '\u212a'
    · subst kelvin
      decide
    · simp [Color.lowerChar, letterOf, kelvin]
  rw [Text.asciiLower, List.map_map, lower]

theorem ofName_eq_ok_iff {name : Text} {c : Color} :
    Color.ofName name = .ok c ↔ NameForm (name.map Color.lowerChar) c := by
  unfold Color.ofName
  generalize name.map Color.lowerChar = lower
  constructor
  · intro h
    rcases stripped : Text.stripStart? "bright_".toList lower with _ | rest
    · by_cases gray : lower = "gray".toList ∨ lower = "grey".toList
      · simp only [stripped, if_pos gray, Except.ok.injEq] at h
        exact h ▸ .gray gray
      · rcases found : BaseColor.ofName? lower with _ | base
        · simp only [stripped, if_neg gray, found, Option.map_none, reduceCtorEq] at h
        · simp only [stripped, if_neg gray, found, Option.map_some, Except.ok.injEq] at h
          exact h ▸ .base (mem_table_iff.2 found)
    · rcases found : BaseColor.ofName? rest with _ | base
      · simp only [stripped, found, Option.map_none, reduceCtorEq] at h
      · simp only [stripped, found, Option.map_some, Except.ok.injEq] at h
        rw [← Text.append_of_stripStart? stripped]
        exact h ▸ .bright (mem_table_iff.2 found)
  · rintro (listed | either | listed)
    · have apart : ∀ entry ∈ BaseColor.table,
          Text.stripStart? "bright_".toList entry.1 = none ∧
            ¬ (entry.1 = "gray".toList ∨ entry.1 = "grey".toList) := by decide
      obtain ⟨noPrefix, notGray⟩ := apart _ listed
      simp only [noPrefix, if_neg notGray, mem_table_iff.1 listed, Option.map_some]
    · rcases either with rfl | rfl <;> rfl
    · simp only [Text.stripStart?_append, mem_table_iff.1 listed, Option.map_some]

/-! ### Names and other forms -/

/-- Small letters and underscores alone. -/
def isLetters (name : Text) : Bool := name.all fun d => d.isLower || d == '_'

theorem NameForm.letters {name : Text} {c : Color} (h : NameForm name c) :
    name ≠ [] ∧ isLetters name := by
  have table : ∀ entry ∈ BaseColor.table, entry.1 ≠ [] ∧ isLetters entry.1 := by decide
  cases h with
  | base listed => exact table _ listed
  | gray either => rcases either with rfl | rfl <;> decide
  | bright listed =>
    have front : isLetters "bright_".toList := by decide
    refine ⟨by simp, ?_⟩
    rw [isLetters, List.all_append, Bool.and_eq_true]
    exact ⟨front, (table _ listed).2⟩

/-- A name has no character that lower case leaves outside the letters. -/
theorem notMem_of_nameForm {t : Text} {c : Color} (h : NameForm (Text.asciiLower t) c) {d : Char}
    (other : ¬ (d.toLower.isLower ∨ d.toLower = '_')) : d ∉ t := by
  intro mem
  have letter := List.all_eq_true.1 h.letters.2 d.toLower (List.mem_map_of_mem mem)
  exact other (by simpa using letter)

theorem not_nameForm_of_digits {digits : Text} {c : Color} (nonempty : digits ≠ [])
    (all : ∀ d ∈ digits, d.isDigit) : ¬ NameForm (Text.asciiLower digits) c := by
  obtain ⟨d, ds, rfl⟩ := List.exists_cons_of_ne_nil nonempty
  have digit := Digits.isDigit_iff_toNat.1 (all d List.mem_cons_self)
  have same : d.toLower = d := by
    rw [← Char.toNat_inj, Digits.toNat_toLower, if_neg (by omega)]
  intro name
  refine notMem_of_nameForm name ?_ List.mem_cons_self
  rw [same]
  rintro (lower | rfl)
  · have letter : 97 ≤ d.toNat ∧ d.toNat ≤ 122 := by
      unfold Char.isLower at lower
      simpa [UInt32.le_iff_toNat_le] using lower
    omega
  · exact absurd digit (by decide)

theorem spells_hash_iff {digits : Text} {c : Color} :
    Spells ('#' :: digits) c ↔ HexForm digits c := by
  constructor
  · rintro (form | ⟨-, all, -⟩ | name)
    · exact form
    · exact absurd (all '#' List.mem_cons_self) (by decide)
    · exact absurd List.mem_cons_self (notMem_of_nameForm name (by decide))
  · exact .hex

theorem map_letterOf {t : Text} (latin : '\u212a' ∉ t) : t.map letterOf = t := by
  refine (List.map_congr_left fun d mem => if_neg ?_).trans (List.map_id t)
  rintro rfl
  exact latin mem

theorem parse_eq_ok_iff {t : Text} {c : Color} :
    Color.parse t = .ok c ↔ Spells (reread (Text.trim t)) c := by
  unfold Color.parse
  generalize Text.trim t = u
  split
  · rw [ofHex_eq_ok_iff, reread, spells_hash_iff]
  · have noName : ¬ NameForm [] c := fun name => name.letters.1 rfl
    rw [ofName_eq_ok_iff]
    refine iff_of_false noName ?_
    rintro (_ | ⟨nonempty, -, -⟩ | name)
    · exact nonempty rfl
    · exact noName name
  · next noHash nonempty =>
    rw [reread.eq_2 u noHash]
    split
    · next digits =>
      rw [List.all_eq_true] at digits
      have latin : '\u212a' ∉ u := fun mem => absurd (digits _ mem) (by decide)
      rw [map_letterOf latin, ofIndex_eq_ok_iff digits]
      constructor
      · rintro ⟨n, value, rfl⟩
        exact .index nonempty digits value
      · rintro (form | ⟨-, -, value⟩ | name)
        · exact absurd rfl (noHash _)
        · exact ⟨_, value, rfl⟩
        · exact absurd name (not_nameForm_of_digits nonempty digits)
    · next noDigits =>
      rw [List.all_eq_true] at noDigits
      rw [ofName_eq_ok_iff, map_lowerChar]
      refine ⟨.name, ?_⟩
      generalize written : u.map letterOf = v
      rintro (form | ⟨-, digits, -⟩ | name)
      · obtain ⟨d, ds, rfl, head, -⟩ := List.map_eq_cons_iff.1 written
        have hash : d = '#' := by
          by_cases kelvin : d = '\u212a'
          · exact absurd head (by simp [letterOf, kelvin])
          · rwa [letterOf, if_neg kelvin] at head
        exact absurd rfl (hash ▸ noHash ds)
      · have latin : '\u212a' ∉ u := by
          intro mem
          have letter : 'k' ∈ v := written ▸ List.mem_map_of_mem (f := letterOf) mem
          exact absurd (digits 'k' letter) (by decide)
        rw [map_letterOf latin] at written
        exact absurd (written ▸ digits) noDigits
      · exact name

/-! ### Forms that are read as they are written -/

theorem reread_of_notMem {t : Text} (noHash : '#' ∉ t) (latin : '\u212a' ∉ t) : reread t = t := by
  rw [reread.eq_2 t]
  · exact map_letterOf latin
  · rintro digits rfl
    exact noHash List.mem_cons_self

theorem IsHexByte.zeroOf_eq {c d : Char} {byte : UInt8} (h : IsHexByte c d byte) :
    zeroOf c = c := by
  refine if_neg ?_
  rintro rfl
  exact absurd (isHexByte_iff.1 h).1 (by decide)

theorem Spells.reread_eq {t : Text} {c : Color} (h : Spells t c) : reread t = t := by
  cases h with
  | hex form =>
    cases form with
    | three hr hg hb => rfl
    | six hr hg hb => rw [reread, rereadDigits, hr.zeroOf_eq, hg.zeroOf_eq, hb.zeroOf_eq]
  | index nonempty all value =>
    refine reread_of_notMem (fun mem => ?_) (fun mem => ?_)
    · exact absurd (all _ mem) (by decide)
    · exact absurd (all _ mem) (by decide)
  | name form =>
    exact reread_of_notMem (notMem_of_nameForm form (by decide))
      (notMem_of_nameForm form (by decide))

/-! ### Parameters -/

/-- Parameters that select one color in front and behind. -/
inductive Selects : Text → Text → Prop
  | base {i : ℕ} (small : i < 8) : Selects (Text.ofNat (30 + i)) (Text.ofNat (40 + i))
  | bright {i : ℕ} (small : i < 8) : Selects (Text.ofNat (90 + i)) (Text.ofNat (100 + i))
  | palette {n : ℕ} (small : n < 256) :
      Selects ("38;5;".toList ++ Text.ofNat n) ("48;5;".toList ++ Text.ofNat n)
  | rgb {r g b : ℕ} (hr : r < 256) (hg : g < 256) (hb : b < 256) :
      Selects ("38;2;".toList ++ Text.join [';'] ([r, g, b].map Text.ofNat))
        ("48;2;".toList ++ Text.join [';'] ([r, g, b].map Text.ofNat))

theorem index_lt (base : BaseColor) : base.index < 8 := by
  cases base <;> decide

theorem selects (c : Color) : Selects c.foreground c.background := by
  have front : Text.ofNat 38 = ['3', '8'] := by decide
  have behind : Text.ofNat 48 = ['4', '8'] := by decide
  cases c with
  | named base => exact .base (index_lt base)
  | bright base => exact .bright (index_lt base)
  | palette n =>
    have written := Selects.palette n.toNat_lt
    simpa [Color.foreground, Color.background, Color.parameters, front, behind] using written
  | rgb r g b =>
    have written := Selects.rgb r.toNat_lt g.toNat_lt b.toNat_lt
    simpa [Color.foreground, Color.background, Color.parameters, front, behind, Text.join] using
      written

theorem index_injective : Function.Injective BaseColor.index := by
  intro first second same
  cases first <;> cases second <;> first | rfl | exact absurd same (by decide)

theorem colorCodes_injective {base bright : ℕ} (apart : base + 8 ≤ bright) (extended : ℕ) :
    Function.Injective (Terminal.colorCodes base bright extended) := by
  intro c d same
  cases c with
  | named c =>
    cases d with
    | named d =>
      have index : base + c.index = base + d.index := by simpa [Terminal.colorCodes] using same
      rw [index_injective (Nat.add_left_cancel index)]
    | bright d =>
      have index : base + c.index = bright + d.index := by simpa [Terminal.colorCodes] using same
      have small := index_lt c
      omega
    | _ => simp [Terminal.colorCodes] at same
  | bright c =>
    cases d with
    | named d =>
      have index : bright + c.index = base + d.index := by simpa [Terminal.colorCodes] using same
      have small := index_lt d
      omega
    | bright d =>
      have index : bright + c.index = bright + d.index := by simpa [Terminal.colorCodes] using same
      rw [index_injective (Nat.add_left_cancel index)]
    | _ => simp [Terminal.colorCodes] at same
  | palette n =>
    cases d with
    | palette m => simpa [Terminal.colorCodes, UInt8.toNat_inj] using same
    | _ => simp [Terminal.colorCodes] at same
  | rgb r g b =>
    cases d with
    | rgb r' g' b' => simpa [Terminal.colorCodes, UInt8.toNat_inj] using same
    | _ => simp [Terminal.colorCodes] at same

/-- The parameters tell which color they select. -/
theorem parameters_injective {base bright : ℕ} (apart : base + 8 ≤ bright) (extended : ℕ) :
    Function.Injective (Color.parameters base bright extended) := by
  intro c d same
  have read (c : Color) := Terminal.codes?_sgr (Terminal.colorCodes_ne_nil base bright extended c)
  have codes := read c
  rw [← Terminal.parameters_eq_join, same, Terminal.parameters_eq_join, read d] at codes
  exact colorCodes_injective apart extended (Option.some.inj codes).symm

/-- A text is read as a color exactly where what it is taken for spells one; so it spells one itself
exactly where it is read and taken for itself. The parameters of a color are those of one kind, and
tell the color apart from every other in front and behind alike. -/
theorem parse_spells (t : Text) (c d : Color) :
    (Color.parse t = .ok c ↔ Spells (reread (Text.trim t)) c) ∧
      (Spells (Text.trim t) c ↔ Color.parse t = .ok c ∧ reread (Text.trim t) = Text.trim t) ∧
      Selects c.foreground c.background ∧
      (c.foreground = d.foreground ↔ c.background = d.background) := by
  have front : c.foreground = d.foreground ↔ c = d :=
    (parameters_injective (by decide) 38).eq_iff
  have behind : c.background = d.background ↔ c = d :=
    (parameters_injective (by decide) 48).eq_iff
  refine ⟨parse_eq_ok_iff, ⟨fun form => ?_, ?_⟩, selects c, front.trans behind.symm⟩
  · have same := form.reread_eq
    exact ⟨parse_eq_ok_iff.2 (same.symm ▸ form), same⟩
  · rintro ⟨read, same⟩
    exact same ▸ parse_eq_ok_iff.1 read

example : Color.parse " #Fa0\n".toList = .ok (.rgb 255 170 0) := by decide

/-- Signs in front of single digits, and a name that is not written in Latin letters alone. -/
theorem parse_unwritten :
    (∀ c, ¬ Spells (Text.trim "#+f+f+f".toList) c) ∧
      Color.parse "#+f+f+f".toList = .ok (.rgb 15 15 15) ∧
      (∀ c, ¬ Spells (Text.trim "blac\u212a".toList) c) ∧
      Color.parse "blac\u212a".toList = .ok (.named .black) := by
  have signs : reread (Text.trim "#+f+f+f".toList) ≠ Text.trim "#+f+f+f".toList := by decide
  have kelvin : reread (Text.trim "blac\u212a".toList) ≠ Text.trim "blac\u212a".toList := by decide
  exact ⟨fun c form => signs form.reread_eq, by decide, fun c form => kelvin form.reread_eq,
    by decide⟩

end Style

end StyledText
