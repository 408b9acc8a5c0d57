import TemplateMarkup.Source.Span

namespace TemplateMarkup

structure Position where
  line : Nat
  column : Nat
deriving DecidableEq, Repr

structure Lines where
  starts : List Nat
  size : Nat
deriving DecidableEq, Repr

namespace Lines

def startsFrom (seen : List Nat) (offset : Nat) : Text → List Nat
  | [] => seen.reverse
  | c :: cs =>
    let next := offset + c.utf8Size
    startsFrom (if c = '\n' then Word.wrap next :: seen else seen) next cs

def ofText (source : Text) : Lines :=
  ⟨startsFrom [0] 0 source, Word.wrap (Text.size source)⟩

def count (lines : Lines) : Nat :=
  lines.starts.length

def position? (lines : Lines) (offset : Nat) : Option Position :=
  if lines.size < offset then none
  else
    let reached := lines.starts.takeWhile (· ≤ offset)
    some ⟨reached.length - 1, offset - reached.getLastD 0⟩

def trimReturns (cs : Text) : Text :=
  (cs.reverse.dropWhile (· == '\r')).reverse

/-- What `source` holds at a line, without the line break. The text may be another one than the
lines were taken from, and then need not hold that line. -/
def text? (lines : Lines) (line : Nat) (source : Text) : Option Text :=
  match lines.starts[line]? with
  | none => none
  | some start =>
    let stop := match lines.starts[line + 1]? with
      | some next => next - 1
      | none => Text.size source
    (Text.slice? start stop source).map trimReturns

end Lines

end TemplateMarkup
