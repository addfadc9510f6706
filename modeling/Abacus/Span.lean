import Abacus.Text.Decimal

/-! # Spans

Where a piece of a source stands: a half-open range of byte offsets. -/

namespace Abacus

structure Span where
  start : Nat
  stop : Nat
deriving DecidableEq, Inhabited

namespace Span

/-- The empty span at one offset. -/
def point (offset : Nat) : Span := ⟨offset, offset⟩

/-- The smallest span that covers both. -/
def merge (first second : Span) : Span :=
  ⟨min first.start second.start, max first.stop second.stop⟩

def text (span : Span) : String :=
  Text.naturalText span.start ++ ".." ++ Text.naturalText span.stop

end Span

end Abacus
