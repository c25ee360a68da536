/-
**Places in a source text.**

A span holds the offsets of a stretch of text, its end excluded. The span `0..0` belongs to
generated code and is shown as such.
-/

namespace ObjectLowering

/-- A stretch of source text, its end excluded. -/
structure Span where
  start : Nat
  stop : Nat
  deriving DecidableEq, Repr, Inhabited

namespace Span

def generated : Span := ⟨0, 0⟩

/-- The smallest span that covers both. -/
def merge (first second : Span) : Span :=
  ⟨min first.start second.start, max first.stop second.stop⟩

/-- Whether the span is the one of generated code. -/
def isGenerated (span : Span) : Bool := span.start == 0 && span.stop == 0

def debug (span : Span) : String := s!"{span.start}..{span.stop}"

/-- The two offsets, or a word for generated code. -/
def display (span : Span) : String :=
  if span.isGenerated then "<generated>" else span.debug

end Span

end ObjectLowering
