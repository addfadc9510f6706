/-! # Alignment

Text filled up with blanks to a number of characters. Longer text is kept whole. -/

namespace Abacus.Text

def blanks (count : Nat) : String :=
  String.ofList (List.replicate count ' ')

def alignRight (width : Nat) (text : String) : String :=
  blanks (width - text.length) ++ text

def alignLeft (width : Nat) (text : String) : String :=
  text ++ blanks (width - text.length)

end Abacus.Text
