import TemplateMarkup.Text.Slice

/-! Half-open pieces of a source, by byte offsets that are kept as 32-bit words. -/

namespace TemplateMarkup.Word

def bound : Nat := 4294967296

def wrap (n : Nat) : Nat :=
  n % bound

theorem wrap_of_lt {n : Nat} (h : n < bound) : wrap n = n :=
  Nat.mod_eq_of_lt h

end TemplateMarkup.Word

namespace TemplateMarkup

structure Span where
  start : Nat
  stop : Nat
deriving DecidableEq, Repr

structure Range where
  start : Nat
  stop : Nat
  start_le_stop : start ≤ stop

namespace Span

def ofOffsets (start stop : Nat) : Span :=
  ⟨Word.wrap start, Word.wrap stop⟩

def empty (offset : Nat) : Span :=
  ⟨offset, offset⟩

def length? (s : Span) : Option Nat :=
  if s.start ≤ s.stop then some (s.stop - s.start) else none

def isEmpty (s : Span) : Bool :=
  s.start == s.stop

def contains (s : Span) (offset : Nat) : Bool :=
  s.start ≤ offset && offset < s.stop

def touches (s : Span) (offset : Nat) : Bool :=
  s.start ≤ offset && offset ≤ s.stop

def slice (s : Span) (source : Text) : Text :=
  Text.slice s.start s.stop source

def range? (s : Span) : Option Range :=
  if h : s.start ≤ s.stop then some ⟨s.start, s.stop, h⟩ else none

end Span

namespace Range

def length (r : Range) : Nat :=
  r.stop - r.start

def span (r : Range) : Span :=
  ⟨r.start, r.stop⟩

end Range

end TemplateMarkup
