import Mathlib.Data.Nat.Digits.Defs

/-! Decimal numerals as ASCII bytes: printing, and the reading that the usual
integer constructor of a scripting language does (blanks around the numeral, a
sign, single underscores between digits). -/

namespace Numeral

/-- The character whose code point is the byte. -/
def char (b : UInt8) : Char := Char.ofNat b.toNat

/-- The byte of an ASCII character. -/
def byte (c : Char) : UInt8 := UInt8.ofNat c.toNat

theorem char_byte (c : Char) (h : c.toNat < 256) : char (byte c) = c := by
  unfold char byte
  rw [UInt8.toNat_ofNat_of_lt' (by simpa using h), Char.ofNat_toNat]

/-- `str(n)` for a natural number. -/
def natText (n : Nat) : List Char := Nat.toDigits 10 n

/-- `str(i)`. -/
def intText : Int → List Char
  | .ofNat n => natText n
  | .negSucc n => '-' :: natText (n + 1)

def isBlank (c : Char) : Bool := c.toNat = 32 ∨ (9 ≤ c.toNat ∧ c.toNat ≤ 13)

/-- Drop the blanks on both sides. -/
def strip (cs : List Char) : List Char :=
  ((cs.dropWhile isBlank).reverse.dropWhile isBlank).reverse

/-- The digits of a numeral, with single underscores between them. -/
def digits (acc : Nat) (afterDigit : Bool) : List Char → Option Nat
  | [] => if afterDigit then some acc else none
  | c :: cs =>
    if c = '_' then if afterDigit then digits acc false cs else none
    else if c.isDigit then digits (acc * 10 + (c.toNat - '0'.toNat)) true cs
    else none

/-- The integer a text denotes, if it denotes one. -/
def readInt (cs : List Char) : Option Int :=
  match strip cs with
  | '-' :: ds => (digits 0 false ds).map fun n => -(n : Int)
  | '+' :: ds => (digits 0 false ds).map fun n => (n : Int)
  | ds => (digits 0 false ds).map fun n => (n : Int)

theorem digits_eq_ofDigitChars (cs : List Char) (h : ∀ c ∈ cs, c.isDigit) (acc : Nat) :
    digits acc true cs = some (Nat.ofDigitChars 10 cs acc) := by
  induction cs generalizing acc with
  | nil => simp [digits]
  | cons c cs ih =>
    have hc : c.isDigit := h c (by simp)
    have hu : c ≠ '_' := by rintro rfl; revert hc; decide
    rw [digits, if_neg hu, if_pos hc, ih (fun d hd => h d (by simp [hd])), Nat.ofDigitChars_cons,
      Nat.mul_comm]

theorem natText_isDigit {n : Nat} {c : Char} (h : c ∈ natText n) : c.isDigit :=
  Nat.isDigit_of_mem_toDigits (by decide) (by decide) h

theorem digits_natText (n : Nat) : digits 0 false (natText n) = some n := by
  have hne : natText n ≠ [] := Nat.toDigits_ne_nil
  have hd : digits 0 true (natText n) = some n := by
    rw [digits_eq_ofDigitChars _ fun c hc => natText_isDigit hc]
    exact congrArg some (Nat.ofDigitChars_toDigits (by decide) (by decide))
  cases h : natText n with
  | nil => exact absurd h hne
  | cons c cs =>
    have hc : c.isDigit := natText_isDigit (h ▸ List.mem_cons_self)
    have hu : c ≠ '_' := by rintro rfl; revert hc; decide
    rw [h] at hd
    simpa [digits, hu] using hd

theorem not_isBlank_of_isDigit {c : Char} (h : c.isDigit) : isBlank c = false := by
  obtain ⟨h₁, h₂⟩ : 48 ≤ c.toNat ∧ c.toNat ≤ 57 := Char.isDigit_iff_toNat.mp h
  simp only [isBlank, decide_eq_false_iff_not]
  omega

/-- A text with no blank at either end is stripped of nothing. -/
theorem strip_eq_self (cs : List Char) (h : ∀ c ∈ cs, isBlank c = false) : strip cs = cs := by
  have hfix : ∀ ds : List Char, (∀ c ∈ ds, isBlank c = false) → ds.dropWhile isBlank = ds := by
    intro ds hds
    cases ds with
    | nil => rfl
    | cons d ds => simp [hds d (by simp)]
  rw [strip, hfix cs h, hfix _ (by simpa using h), List.reverse_reverse]

theorem intText_not_blank (i : Int) : ∀ c ∈ intText i, isBlank c = false := by
  intro c hc
  cases i with
  | ofNat n => exact not_isBlank_of_isDigit (natText_isDigit hc)
  | negSucc n =>
    rcases List.mem_cons.mp hc with rfl | hc
    · decide
    · exact not_isBlank_of_isDigit (natText_isDigit hc)

/-- Reading a printed integer gives it back. -/
theorem readInt_intText (i : Int) : readInt (intText i) = some i := by
  unfold readInt
  rw [strip_eq_self _ (intText_not_blank i)]
  cases i with
  | ofNat n =>
    have hd := digits_natText n
    simp only [intText]
    cases h : natText n with
    | nil => exact absurd h Nat.toDigits_ne_nil
    | cons c cs =>
      have hc : c.isDigit := natText_isDigit (h ▸ List.mem_cons_self)
      have hm : c ≠ '-' := by rintro rfl; revert hc; decide
      have hp : c ≠ '+' := by rintro rfl; revert hc; decide
      rw [h] at hd
      split
      · simp_all
      · simp_all
      · simp [hd]
  | negSucc n =>
    simp [intText, digits_natText, Int.negSucc_eq]

end Numeral
