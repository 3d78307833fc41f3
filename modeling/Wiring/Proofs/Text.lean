import Mathlib.Data.List.Forall2
import Mathlib.Data.List.TakeWhile
import Wiring.Text.Blank
import Wiring.Text.Integer

/-!
# Text — blanks, letters and numerals

A text without the blanks at its ends is what stands between them (`Trims`, `trims_trimmed`).
`AnyCase` says that a text is a word, with ASCII letters of any case.

A numeral is an optional sign and one or more ASCII digits (`Numeral`).  **What is read as a 64-bit
integer is a numeral of it, and every numeral of one is read** (`readInteger_eq_ok`); a number past
either limit is not.  The text of an integer is a numeral of it (`numeral_toString`).
-/

namespace Wiring.Text

/-! ### Blanks at the ends -/

/-- `core` is what is left of `cs` without the blanks at its two ends. -/
structure Trims (cs core : List Char) : Prop where
  between : ∃ before after, cs = before ++ core ++ after ∧ (∀ c ∈ before, isBlank c) ∧
    ∀ c ∈ after, isBlank c
  first : ∀ c ∈ core.head?, ¬ isBlank c
  last : ∀ c ∈ core.getLast?, ¬ isBlank c

variable {cs : List Char} {c : Char} {n : Int}

theorem not_isBlank_of_head?_dropWhile (h : c ∈ (cs.dropWhile isBlank).head?) : ¬ isBlank c := by
  have first := List.head?_dropWhile_not isBlank cs
  rw [Option.mem_def.1 h] at first
  exact Bool.eq_false_iff.1 first

/-- What is left is what stands between the blanks in front and those behind. -/
theorem trims_trimmed (cs : List Char) : Trims cs (trimmed cs) := by
  obtain ⟨behind, rest, blank⟩ : ∃ behind, trimmed cs ++ behind = cs.dropWhile isBlank ∧
      ∀ c ∈ behind, isBlank c := by
    refine ⟨((cs.dropWhile isBlank).reverse.takeWhile isBlank).reverse, ?_, fun c hc => ?_⟩
    · rw [trimmed, ← List.reverse_append, List.takeWhile_append_dropWhile, List.reverse_reverse]
    · exact List.mem_takeWhile_imp (List.mem_reverse.1 hc)
  constructor
  case between =>
    refine ⟨cs.takeWhile isBlank, behind, ?_, fun c hc => List.mem_takeWhile_imp hc, blank⟩
    rw [List.append_assoc, rest, List.takeWhile_append_dropWhile]
  case first =>
    intro c hc
    have head : c ∈ (cs.dropWhile isBlank).head? := by
      rw [← rest, List.head?_append, Option.mem_def.1 hc]
      rfl
    exact not_isBlank_of_head?_dropWhile head
  case last =>
    intro c hc
    rw [trimmed, List.getLast?_reverse] at hc
    exact not_isBlank_of_head?_dropWhile hc

theorem trimmed_of_no_blank (h : ∀ c ∈ cs, ¬ isBlank c) : trimmed cs = cs := by
  have kept {cs : List Char} (h : ∀ c ∈ cs, ¬ isBlank c) : cs.dropWhile isBlank = cs := by
    cases cs with
    | nil => rfl
    | cons c cs => simp [h c List.mem_cons_self]
  rw [trimmed, kept h, kept fun c hc => h c (List.mem_reverse.1 hc), List.reverse_reverse]

/-! ### Letters -/

/-- The characters are those of the word, or its letters as capitals. -/
def AnyCase (cs word : List Char) : Prop :=
  List.Forall₂ (fun c d => c = d ∨ c = d.toUpper) cs word

theorem toNat_toLower (c : Char) :
    c.toLower.toNat = if 65 ≤ c.toNat ∧ c.toNat ≤ 90 then c.toNat + 32 else c.toNat := by
  have capital : (c.val ≥ 'A'.val ∧ c.val ≤ 'Z'.val) ↔ 65 ≤ c.toNat ∧ c.toNat ≤ 90 := by
    simp only [ge_iff_le, UInt32.le_iff_toNat_le]
    rfl
  unfold Char.toLower
  split
  next h =>
    have bounds := capital.1 h
    rw [if_pos bounds]
    change (c.val + 32).toNat = _
    rw [UInt32.toNat_add]
    change (c.toNat + 32) % 2 ^ 32 = _
    omega
  next h => rw [if_neg (mt capital.2 h)]

theorem toNat_toUpper (c : Char) :
    c.toUpper.toNat = if 97 ≤ c.toNat ∧ c.toNat ≤ 122 then c.toNat - 32 else c.toNat := by
  have small : ('a'.val ≤ c.val ∧ c.val ≤ 'z'.val) ↔ 97 ≤ c.toNat ∧ c.toNat ≤ 122 := by
    simp only [UInt32.le_iff_toNat_le]
    rfl
  unfold Char.toUpper
  split
  next h =>
    have bounds := small.1 h
    rw [if_pos bounds]
    -- subtraction of words wraps around
    change (c.val + ('A'.val - 'a'.val)).toNat = _
    rw [UInt32.toNat_add]
    change (c.toNat + 4294967264) % 2 ^ 32 = _
    omega
  next h => rw [if_neg (mt small.2 h)]

theorem toLower_eq_iff {d : Char} (letter : 97 ≤ d.toNat ∧ d.toNat ≤ 122) :
    c.toLower = d ↔ c = d ∨ c = d.toUpper := by
  simp only [← Char.toNat_inj, toNat_toLower, toNat_toUpper, letter]
  split <;> simp <;> omega

theorem map_toLower_eq_iff {word : List Char}
    (letters : ∀ d ∈ word, 97 ≤ d.toNat ∧ d.toNat ≤ 122) :
    cs.map Char.toLower = word ↔ AnyCase cs word := by
  rw [AnyCase]
  induction cs generalizing word with
  | nil => rw [List.map_nil, List.forall₂_nil_left_iff, eq_comm]
  | cons c cs ih =>
      cases word with
      | nil => simp
      | cons d word =>
          obtain ⟨letter, letters⟩ := List.forall_mem_cons.1 letters
          rw [List.map_cons, List.cons_eq_cons, List.forall₂_cons, toLower_eq_iff letter, ih letters]

/-! ### Digits -/

/-- ASCII digits, at least one. -/
structure IsDigits (cs : List Char) : Prop where
  nonempty : cs ≠ []
  digits : ∀ c ∈ cs, c.isDigit

theorem digit?_eq (c : Char) :
    digit? c = if c.isDigit then some (c.toNat - '0'.toNat) else none := by
  have same : ('0' ≤ c ∧ c ≤ '9') ↔ c.isDigit := by
    rw [Char.isDigit_iff_toNat]
    rfl
  simp only [digit?, same]

theorem le_ofDigitChars (cs : List Char) (init : Nat) : init ≤ Nat.ofDigitChars 10 cs init := by
  rw [Nat.ofDigitChars_eq_ofDigitChars_zero]
  calc init ≤ 10 ^ cs.length * init := Nat.le_mul_of_pos_left _ (Nat.pow_pos (by decide))
    _ ≤ _ := Nat.le_add_right _ _

variable {limit m : Nat} {past : IntegerFault}

/-- A number past the limit is found out at the digit that takes it there, since the digits behind
that one make it no smaller. -/
theorem readDigits_eq_ok {cs : List Char} {acc : Nat} (within : acc ≤ limit) :
    readDigits limit past acc cs = .ok m ↔
      (∀ c ∈ cs, c.isDigit) ∧ Nat.ofDigitChars 10 cs acc = m ∧ m ≤ limit := by
  induction cs generalizing acc with
  | nil =>
      simp only [readDigits, Except.ok.injEq, Nat.ofDigitChars_nil]
      constructor
      · rintro rfl
        exact ⟨nofun, rfl, within⟩
      · exact fun h => h.2.1
  | cons c cs ih =>
      rw [readDigits, digit?_eq, Nat.ofDigitChars_cons, List.forall_mem_cons]
      by_cases digit : c.isDigit
      · by_cases fits : 10 * acc + (c.toNat - '0'.toNat) ≤ limit
        · simp only [digit, fits, if_true, ih fits, true_and]
        · have larger := le_ofDigitChars cs (10 * acc + (c.toNat - '0'.toNat))
          simp only [digit, fits, if_true, if_false]
          constructor
          · exact nofun
          · rintro ⟨-, rfl, bound⟩
            exact absurd (Nat.le_trans larger bound) fits
      · simp [digit]

theorem readMagnitude_eq_ok :
    readMagnitude limit past cs = .ok m ↔
      IsDigits cs ∧ Nat.ofDigitChars 10 cs 0 = m ∧ m ≤ limit := by
  cases cs with
  | nil => exact ⟨nofun, fun h => absurd rfl h.1.nonempty⟩
  | cons c cs =>
      rw [readMagnitude, readDigits_eq_ok (Nat.zero_le limit)]
      · exact ⟨fun h => ⟨⟨List.cons_ne_nil c cs, h.1⟩, h.2⟩, fun h => ⟨h.1.digits, h.2⟩⟩
      · exact nofun

/-! ### Numerals -/

/-- The characters write the number: digits, with or without a sign. -/
inductive Numeral : List Char → Int → Prop where
  | unsigned {cs : List Char} (digits : IsDigits cs) : Numeral cs (Nat.ofDigitChars 10 cs 0)
  | plus {cs : List Char} (digits : IsDigits cs) : Numeral ('+' :: cs) (Nat.ofDigitChars 10 cs 0)
  | minus {cs : List Char} (digits : IsDigits cs) :
      Numeral ('-' :: cs) (-(Nat.ofDigitChars 10 cs 0 : Int))

/-- A magnitude with its sign. -/
theorem signed_eq_ok {ε : Type} {sign : Int → Int} {x : Except ε Nat} :
    (do return (↑(← x) : Int)).map sign = .ok n ↔ ∃ m : Nat, x = .ok m ∧ sign m = n := by
  cases x with
  | error e => exact ⟨nofun, nofun⟩
  | ok m => simp [Except.map, bind, Except.bind, pure, Except.pure]

theorem readSigned_eq_ok :
    readSigned cs = .ok n ↔ Numeral cs n ∧ -(largest + 1 : Int) ≤ n ∧ n ≤ largest := by
  unfold readSigned
  split
  · refine ⟨nofun, fun h => ?_⟩
    cases h.1 with
    | unsigned digits => exact absurd rfl digits.nonempty
  next cs =>
    simp only [signed_eq_ok, readMagnitude_eq_ok]
    constructor
    · rintro ⟨m, ⟨digits, rfl, bound⟩, rfl⟩
      exact ⟨.minus digits, by omega, by omega⟩
    · rintro ⟨numeral, low, high⟩
      cases numeral with
      | unsigned digits => exact absurd (digits.digits '-' List.mem_cons_self) (by decide)
      | minus digits => exact ⟨_, ⟨digits, rfl, by omega⟩, rfl⟩
  next cs =>
    simp only [signed_eq_ok, readMagnitude_eq_ok]
    constructor
    · rintro ⟨m, ⟨digits, rfl, bound⟩, rfl⟩
      exact ⟨.plus digits, by omega, by omega⟩
    · rintro ⟨numeral, low, high⟩
      cases numeral with
      | unsigned digits => exact absurd (digits.digits '+' List.mem_cons_self) (by decide)
      | plus digits => exact ⟨_, ⟨digits, rfl, by omega⟩, rfl⟩
  next noMinus noPlus =>
    simp only [signed_eq_ok, readMagnitude_eq_ok]
    constructor
    · rintro ⟨m, ⟨digits, rfl, bound⟩, rfl⟩
      exact ⟨.unsigned digits, by omega, by omega⟩
    · rintro ⟨numeral, low, high⟩
      cases numeral with
      | unsigned digits => exact ⟨_, ⟨digits, rfl, by omega⟩, rfl⟩
      | plus digits => exact absurd rfl (noPlus _)
      | minus digits => exact absurd rfl (noMinus _)

/-- **The texts that are read as an integer are its numerals.** -/
theorem readInteger_eq_ok {s : String} {i : Int64} :
    readInteger s = .ok i ↔ Numeral s.toList i.toInt := by
  have size : (largest : Int) = 9223372036854775807 := rfl
  constructor
  · intro h
    rw [readInteger] at h
    cases signed : readSigned s.toList with
    | error fault =>
        rw [signed] at h
        cases h
    | ok n =>
        rw [signed] at h
        cases h
        obtain ⟨numeral, low, high⟩ := readSigned_eq_ok.1 signed
        rwa [Int64.toInt_ofInt_of_le (by omega) (by omega)]
  · intro numeral
    have low := i.le_toInt
    have high := i.toInt_lt
    rw [readInteger, readSigned_eq_ok.2 ⟨numeral, by omega, by omega⟩]
    exact congrArg Except.ok i.ofInt_toInt

theorem isDigits_toDigits (m : Nat) : IsDigits (Nat.toDigits 10 m) :=
  ⟨Nat.toDigits_ne_nil, fun _ hc => Nat.isDigit_of_mem_toDigits (by decide) (by decide) hc⟩

/-- The text of an integer is a numeral of it. -/
theorem numeral_toString (n : Int) : Numeral (toString n).toList n := by
  cases n with
  | ofNat m =>
      have numeral := Numeral.unsigned (isDigits_toDigits m)
      rw [Nat.ofDigitChars_ten_toDigits, ← Nat.toList_repr] at numeral
      exact numeral
  | negSucc m =>
      have numeral := Numeral.minus (isDigits_toDigits (m + 1))
      rw [Nat.ofDigitChars_ten_toDigits, ← Nat.toList_repr] at numeral
      have text : (toString (Int.negSucc m)).toList = '-' :: (Nat.repr (m + 1)).toList :=
        String.toList_append
      rw [text]
      exact numeral

theorem not_isBlank_of_isDigit (h : c.isDigit) : ¬ isBlank c := by
  rw [Char.isDigit_iff_toNat] at h
  have low : 48 ≤ c.toNat := h.1
  have high : c.toNat ≤ 57 := h.2
  simp [isBlank, blankRanges]
  omega

theorem Numeral.not_isBlank (h : Numeral cs n) : ∀ c ∈ cs, ¬ isBlank c := by
  cases h with
  | unsigned digits => exact fun c hc => not_isBlank_of_isDigit (digits.digits c hc)
  | plus digits | minus digits =>
      refine List.forall_mem_cons.2 ⟨by decide, fun c hc => ?_⟩
      exact not_isBlank_of_isDigit (digits.digits c hc)

end Wiring.Text
