import Abacus.Text.Decimal

/-! # Checked integers

Values are 64-bit signed integers. An operation gives its exact mathematical
result, or nothing when that result does not fit. -/

namespace Abacus.Integer

def Fits (number : Int) : Prop :=
  Int64.minValue.toInt ≤ number ∧ number ≤ Int64.maxValue.toInt

instance (number : Int) : Decidable (Fits number) :=
  inferInstanceAs (Decidable (_ ∧ _))

def ofInt? (number : Int) : Option Int64 :=
  if Fits number then some (Int64.ofInt number) else none

def add? (left right : Int64) : Option Int64 := ofInt? (left.toInt + right.toInt)

def sub? (left right : Int64) : Option Int64 := ofInt? (left.toInt - right.toInt)

def mul? (left right : Int64) : Option Int64 := ofInt? (left.toInt * right.toInt)

def neg? (value : Int64) : Option Int64 := ofInt? (-value.toInt)

/-- The value that decimal text with at most one sign stands for, if it fits. -/
def ofText? (text : String) : Option Int64 :=
  (Text.readInteger? text).bind ofInt?

def text (value : Int64) : String :=
  Text.integerText value.toInt

theorem fits_toInt (value : Int64) : Fits value.toInt :=
  ⟨Int64.minValue_le_toInt value, Int64.toInt_le value⟩

theorem ofInt?_eq_some_iff {number : Int} {value : Int64} :
    ofInt? number = some value ↔ value.toInt = number := by
  unfold ofInt?
  split
  · next fits =>
      rw [Option.some.injEq]
      constructor
      · rintro rfl
        exact Int64.toInt_ofInt_of_le fits.1 (Int.lt_add_one_of_le fits.2)
      · rintro rfl
        exact Int64.ofInt_toInt value
  · next misfit =>
      simp only [reduceCtorEq, false_iff]
      rintro rfl
      exact misfit (fits_toInt value)

theorem ofInt?_eq_none_iff {number : Int} : ofInt? number = none ↔ ¬ Fits number := by
  simp [ofInt?]

theorem ofText?_naturalText (magnitude : Nat) :
    ofText? (Text.naturalText magnitude) = ofInt? magnitude := by
  rw [ofText?, Text.readInteger?_of_all_isDigit fun _ => Text.isDigit_of_mem_naturalText,
    Text.readDigits?_naturalText]
  rfl

theorem ofText?_minus_naturalText (magnitude : Nat) :
    ofText? ("-" ++ Text.naturalText magnitude) = ofInt? (-magnitude) := by
  rw [ofText?, Text.readInteger?_minus, Text.readDigits?_naturalText]
  rfl

theorem ofText?_text (value : Int64) : ofText? (text value) = some value := by
  rw [ofText?, text, Text.readInteger?_integerText, Option.bind_some, ofInt?_eq_some_iff]

end Abacus.Integer
