import Mathlib.Data.Nat.Digits.Defs
import Mathlib.Tactic.IntervalCases
import PointsTo.Text.Numeral

/-!
# Decimal numerals

A decimal numeral is an optional sign and one or more decimal digits, the most
significant digit first.  Reading a numeral accepts exactly these texts, if the
number fits in sixty-four bits, and results in the number that the digits have in
base ten.
-/

namespace PointsTo.Text

/-! ## Digits -/

/-- The characters of decimal digits. -/
def digitChars (digits : List (Fin 10)) : List Char :=
  digits.map fun digit => Nat.digitChar digit.val

/-- The number with the given digits, the most significant one first. -/
def ofDigits (digits : List (Fin 10)) : Nat :=
  Nat.ofDigits 10 (digits.reverse.map Fin.val)

theorem ofDigits_cons (first : Fin 10) (rest : List (Fin 10)) :
    ofDigits (first :: rest) = first * 10 ^ rest.length + ofDigits rest := by
  simp [ofDigits, Nat.ofDigits_append, Nat.mul_comm, Nat.add_comm]

theorem digitValue?_digitChar (digit : Fin 10) :
    digitValue? (Nat.digitChar digit) = some digit.val := by
  revert digit
  decide

/-- The digits below ten are the decimal ones. -/
theorem eq_digitChar_of_digitValue? {char : Char} {digit : Nat}
    (valued : digitValue? char = some digit) (decimal : digit < 10) :
    char = Nat.digitChar digit := by
  unfold digitValue? at valued
  split at valued
  · rename_i between
    have lower : 48 ≤ char.toNat := between.1
    have upper : char.toNat ≤ 57 := between.2
    cases valued
    rw [← Char.ofNat_toNat char]
    generalize char.toNat = code at *
    interval_cases code <;> rfl
  · -- Letters stand for ten and more.
    split at valued
    · cases valued
      omega
    · split at valued
      · cases valued
        omega
      · cases valued

theorem digitsFrom?_eq_some_iff {value number : Nat} {text : List Char} :
    digitsFrom? 10 value text = some number ↔
      ∃ digits, text = digitChars digits ∧
        number = value * 10 ^ digits.length + ofDigits digits := by
  constructor
  · intro read
    induction text generalizing value with
    | nil =>
        cases read
        exact ⟨[], rfl, by simp [ofDigits]⟩
    | cons char rest ih =>
        rw [digitsFrom?] at read
        split at read
        · rename_i digit valued
          split at read
          · rename_i decimal
            rcases ih read with ⟨digits, rfl, rfl⟩
            refine ⟨⟨digit, decimal⟩ :: digits, ?_, ?_⟩
            · rw [eq_digitChar_of_digitValue? valued decimal]
              rfl
            · rw [ofDigits_cons, List.length_cons]
              ring
          · cases read
        · cases read
  · rintro ⟨digits, rfl, rfl⟩
    induction digits generalizing value with
    | nil => simp [digitChars, digitsFrom?, ofDigits]
    | cons first rest ih =>
        rw [digitChars, List.map_cons, digitsFrom?]
        simp only [digitValue?_digitChar, first.isLt, if_true]
        rw [← digitChars, ih, ofDigits_cons, List.length_cons]
        congr 1
        ring

theorem digits?_eq_some_iff {text : List Char} {number : Nat} :
    digits? 10 text = some number ↔
      ∃ digits, digits ≠ [] ∧ text = digitChars digits ∧
        number = ofDigits digits := by
  rw [digits?, Option.ite_none_left_eq_some, digitsFrom?_eq_some_iff]
  constructor
  · rintro ⟨given, digits, rfl, rfl⟩
    refine ⟨digits, ?_, rfl, by simp⟩
    rintro rfl
    exact given rfl
  · rintro ⟨digits, given, rfl, rfl⟩
    refine ⟨?_, digits, rfl, by simp⟩
    simpa [digitChars] using given

/-! ## Signs -/

/-- An optional sign and one or more decimal digits, and the number that they
write. -/
inductive IsDecimal : List Char → Int → Prop where
  | unsigned {digits : List (Fin 10)} (given : digits ≠ []) :
      IsDecimal (digitChars digits) (ofDigits digits)
  | plus {digits : List (Fin 10)} (given : digits ≠ []) :
      IsDecimal ('+' :: digitChars digits) (ofDigits digits)
  | minus {digits : List (Fin 10)} (given : digits ≠ []) :
      IsDecimal ('-' :: digitChars digits) (-ofDigits digits)

theorem sign_digitChars (digits : List (Fin 10)) :
    sign (digitChars digits) = (false, digitChars digits) := by
  cases digits with
  | nil => rfl
  | cons first rest =>
      have noSign : Nat.digitChar first ≠ '-' ∧ Nat.digitChar first ≠ '+' := by
        revert first
        decide
      unfold sign
      split
      · rename_i other
        exact absurd (List.cons.inj other).1 noSign.1
      · rename_i other
        exact absurd (List.cons.inj other).1 noSign.2
      · rfl

theorem fitting?_eq_some_iff {number other : Int} :
    fitting? number = some other ↔
      number = other ∧ minInteger ≤ other ∧ other ≤ maxInteger := by
  rw [fitting?, Option.ite_none_right_eq_some]
  grind

/-- The decimal numerals of sixty-four bits are accepted, and nothing else. -/
theorem decimal?_eq_some_iff {text : List Char} {number : Int} :
    decimal? text = some number ↔
      IsDecimal text number ∧ minInteger ≤ number ∧ number ≤ maxInteger := by
  have read : decimal? text = some number ↔
      ∃ digits, digits ≠ [] ∧ (sign text).2 = digitChars digits ∧
        signed (sign text).1 (ofDigits digits) = number ∧
        minInteger ≤ number ∧ number ≤ maxInteger := by
    simp only [decimal?, Option.bind_eq_bind, Option.bind_eq_some_iff,
      digits?_eq_some_iff, fitting?_eq_some_iff]
    grind
  rw [read]
  constructor
  · rintro ⟨digits, given, shape, rfl, fits⟩
    refine ⟨?_, fits⟩
    unfold sign at shape ⊢
    split at shape <;> subst shape
    · exact .minus given
    · exact .plus given
    · exact .unsigned given
  · rintro ⟨written, fits⟩
    cases written with
    | @unsigned digits given =>
        rw [sign_digitChars]
        exact ⟨digits, given, rfl, rfl, fits⟩
    | @plus digits given => exact ⟨digits, given, rfl, rfl, fits⟩
    | @minus digits given => exact ⟨digits, given, rfl, rfl, fits⟩

end PointsTo.Text
