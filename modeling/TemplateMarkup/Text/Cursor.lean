import TemplateMarkup.Text.Cut
import TemplateMarkup.Text.Slice

namespace TemplateMarkup.Text

/-- A place between the characters `passed`, last one first, and the characters `ahead`. -/
structure Cursor where
  passed : Text
  ahead : Text
deriving DecidableEq, Repr

namespace Cursor

def start (source : Text) : Cursor :=
  ⟨[], source⟩

def source (k : Cursor) : Text :=
  k.passed.reverse ++ k.ahead

def offset (k : Cursor) : Nat :=
  size k.passed

def isAtEnd (k : Cursor) : Bool :=
  k.ahead.isEmpty

def next? (k : Cursor) : Option Char :=
  k.ahead.head?

def later? (k : Cursor) (n : Nat) : Option Char :=
  k.ahead[n]?

def moveOver (k : Cursor) (run rest : Text) : Cursor :=
  ⟨run.reverse ++ k.passed, rest⟩

def read (k : Cursor) : Option Char × Cursor :=
  match k.ahead with
  | [] => (none, k)
  | c :: rest => (some c, k.moveOver [c] rest)

def startsWith (k : Cursor) (word : Text) : Bool :=
  word.isPrefixOf k.ahead

def accept (k : Cursor) (word : Text) : Bool × Cursor :=
  if k.startsWith word then (true, k.moveOver word (k.ahead.drop word.length)) else (false, k)

def readWhile (k : Cursor) (p : Char → Bool) : Cursor :=
  k.moveOver (k.ahead.takeWhile p) (k.ahead.dropWhile p)

def readBlank (k : Cursor) : Bool × Cursor :=
  (k.ahead.head?.any isBlank, k.readWhile isBlank)

def readPast (k : Cursor) (mark : Text) : Bool × Cursor :=
  let (run, rest) := Enclosed.read mark k.ahead
  (run.closed, k.moveOver (run.chars mark) rest)

def readToEnd (k : Cursor) : Cursor :=
  k.moveOver k.ahead []

def slice (k : Cursor) (start stop : Nat) : Text :=
  Text.slice start stop k.source

theorem source_moveOver {k : Cursor} {run rest : Text} (h : run ++ rest = k.ahead) :
    (k.moveOver run rest).source = k.source := by
  simp [moveOver, source, ← h]

theorem source_read (k : Cursor) : k.read.2.source = k.source := by
  unfold read
  split
  · rfl
  · rename_i c rest h
    exact source_moveOver (by simp [h])

theorem source_accept (k : Cursor) (word : Text) : (k.accept word).2.source = k.source := by
  unfold accept
  split
  · rename_i h
    obtain ⟨rest, hr⟩ := List.isPrefixOf_iff_prefix.1 h
    exact source_moveOver (by simp [← hr])
  · rfl

theorem source_readWhile (k : Cursor) (p : Char → Bool) : (k.readWhile p).source = k.source :=
  source_moveOver List.takeWhile_append_dropWhile

theorem source_readPast (k : Cursor) (mark : Text) : (k.readPast mark).2.source = k.source :=
  source_moveOver (Enclosed.chars_append mark k.ahead)

theorem source_readToEnd (k : Cursor) : k.readToEnd.source = k.source :=
  source_moveOver (List.append_nil k.ahead)

end Cursor

end TemplateMarkup.Text
