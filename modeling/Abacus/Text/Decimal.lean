/-! # Decimal text

Numbers written in base ten. Reading accepts leading zeros and one sign; writing
makes neither zeros in front nor a plus sign, and is undone by reading. -/

namespace Abacus.Text

def naturalText (number : Nat) : String :=
  String.ofList (Nat.toDigits 10 number)

def integerText (number : Int) : String :=
  if number < 0 then "-" ++ naturalText number.natAbs else naturalText number.natAbs

/-- The number that a non-empty row of ASCII digits stands for. -/
def readDigits? (digits : List Char) : Option Nat :=
  if !digits.isEmpty && digits.all Char.isDigit then some (Nat.ofDigitChars 10 digits 0) else none

/-- The number that digits with at most one sign in front stand for. -/
def readInteger? (text : String) : Option Int :=
  match text.toList with
  | '-' :: digits => (readDigits? digits).map fun magnitude : Nat => -(magnitude : Int)
  | '+' :: digits => (readDigits? digits).map Int.ofNat
  | digits => (readDigits? digits).map Int.ofNat

theorem toList_naturalText (number : Nat) :
    (naturalText number).toList = Nat.toDigits 10 number := by
  simp [naturalText]

theorem isDigit_of_mem_naturalText {number : Nat} {char : Char}
    (member : char ∈ (naturalText number).toList) : char.isDigit = true := by
  rw [toList_naturalText] at member
  exact Nat.isDigit_of_mem_toDigits (by decide) (by decide) member

theorem isMinus_or_isDigit_of_mem_integerText {number : Int} {char : Char}
    (member : char ∈ (integerText number).toList) : char = '-' ∨ char.isDigit = true := by
  unfold integerText at member
  split at member
  · rw [String.toList_append] at member
    rcases List.mem_append.mp member with sign | digit
    · exact .inl (List.mem_singleton.mp sign)
    · exact .inr (isDigit_of_mem_naturalText digit)
  · exact .inr (isDigit_of_mem_naturalText member)

theorem readDigits?_naturalText (number : Nat) :
    readDigits? (naturalText number).toList = some number := by
  have allDigits : (Nat.toDigits 10 number).all Char.isDigit = true :=
    List.all_eq_true.mpr fun _ member =>
      Nat.isDigit_of_mem_toDigits (by decide) (by decide) member
  have nonempty : Nat.toDigits 10 number ≠ [] := Nat.toDigits_ne_nil
  simp [readDigits?, toList_naturalText, allDigits, nonempty]

/-- Without a sign in front, the text is read as its digits. -/
theorem readInteger?_of_all_isDigit {text : String}
    (digits : ∀ char ∈ text.toList, char.isDigit = true) :
    readInteger? text = (readDigits? text.toList).map Int.ofNat := by
  unfold readInteger?
  split
  · next rest equal => exact absurd (digits '-' (by simp [equal])) (by decide)
  · next rest equal => exact absurd (digits '+' (by simp [equal])) (by decide)
  · rfl

theorem readInteger?_minus (text : String) :
    readInteger? ("-" ++ text) =
      (readDigits? text.toList).map fun magnitude : Nat => -(magnitude : Int) := by
  simp [readInteger?]

theorem readInteger?_integerText (number : Int) :
    readInteger? (integerText number) = some number := by
  unfold integerText
  split
  · next negative =>
      have magnitude : -(number.natAbs : Int) = number := by omega
      rw [readInteger?_minus, readDigits?_naturalText, Option.map_some, magnitude]
  · next nonnegative =>
      have magnitude : Int.ofNat number.natAbs = number := by
        rw [Int.ofNat_eq_natCast]
        omega
      rw [readInteger?_of_all_isDigit fun _ member => isDigit_of_mem_naturalText member,
        readDigits?_naturalText, Option.map_some, magnitude]

end Abacus.Text
