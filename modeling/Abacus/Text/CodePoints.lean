/-! # Sets of code points

The properties of the Unicode standard are given by ranges of code points. The
tables here follow version 15.1. -/

namespace Abacus.Text

/-- First and last code point of each range. -/
abbrev Ranges := List (Nat × Nat)

namespace Ranges

def contains (ranges : Ranges) (char : Char) : Bool :=
  ranges.any fun (first, last) => first ≤ char.toNat && char.toNat ≤ last

/-- Whether every range lies behind the one before it, and behind a code point. -/
def ascendingAfter (previous : Nat) : Ranges → Bool
  | [] => true
  | (first, last) :: rest => previous < first && first ≤ last && ascendingAfter last rest

end Ranges

end Abacus.Text
