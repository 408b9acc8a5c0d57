import Mathlib.Data.List.TakeWhile
import TemplateMarkup.Proofs.Text.Boundary
import TemplateMarkup.Proofs.Text.Cut
import TemplateMarkup.Text.Cursor

namespace TemplateMarkup.Text

def behind? (source : Text) (offset : Nat) : Option Text :=
  (splitAt? offset source).map Prod.snd

def firstOffset? (mark : Text) : Text → Option Nat
  | [] => if mark = [] then some 0 else none
  | c :: cs => if mark <+: c :: cs then some 0 else (firstOffset? mark cs).map (c.utf8Size + ·)

variable {source cs : Text} {offset : Nat} {c : Char} {p : Char → Bool}

lemma behind?_append (before after : Text) : behind? (before ++ after) (size before) = some after := by
  rw [behind?, splitAt?_eq_some_iff.2 ⟨rfl, rfl⟩]
  rfl

lemma offset_lt_of_behind? (h : behind? source offset = some (c :: cs)) : offset < size source := by
  obtain ⟨⟨before, after⟩, hsplit, rfl⟩ := Option.map_eq_some_iff.1 h
  obtain ⟨rfl, rfl⟩ := splitAt?_eq_some_iff.1 hsplit
  have hpos := c.utf8Size_pos
  rw [size_append, size_cons]
  omega

def passWhile? (source : Text) (p : Char → Bool) (offset : Nat) : Option Nat :=
  match _ : behind? source offset with
  | none => none
  | some [] => some offset
  | some (c :: _) => if p c then passWhile? source p (offset + c.utf8Size) else some offset
termination_by size source - offset
decreasing_by
  have hlt := offset_lt_of_behind? ‹_›
  have hpos := c.utf8Size_pos
  omega

lemma passWhile?_nil (h : behind? source offset = some []) :
    passWhile? source p offset = some offset := by
  rw [passWhile?]
  split <;> simp_all

lemma passWhile?_cons (h : behind? source offset = some (c :: cs)) : passWhile? source p offset =
    if p c then passWhile? source p (offset + c.utf8Size) else some offset := by
  rw [passWhile?]
  split <;> simp_all

lemma passWhile?_append (before after : Text) (p : Char → Bool) :
    passWhile? (before ++ after) p (size before) =
      some (size before + size (after.takeWhile p)) := by
  induction after generalizing before with
  | nil => exact passWhile?_nil (behind?_append before [])
  | cons c after ih =>
    have hnext := ih (before ++ [c])
    rw [List.append_assoc, List.singleton_append, size_append, size_cons, size_nil, Nat.add_zero] at hnext
    rw [passWhile?_cons (behind?_append before (c :: after)), hnext, List.takeWhile_cons]
    split
    · rw [size_cons, Nat.add_assoc]
    · rfl

lemma firstOffset?_eq (mark cs : Text) :
    firstOffset? mark cs = (cutPast mark cs).map fun cut => size cut.1 := by
  induction cs with
  | nil =>
    cases mark <;> rfl
  | cons c cs ih =>
    rw [firstOffset?, cutPast_cons]
    split
    · rfl
    · rw [ih, Option.map_map, Option.map_map]
      rfl

namespace Cursor

inductive Operation where
  | next
  | later (n : Nat)
  | read
  | startsWith (word : Text)
  | accept (word : Text)
  | readWhile (p : Char → Bool)
  | readBlank
  | readPast (mark : Text)
  | readToEnd
  | slice (start stop : Nat)

inductive Answer where
  | character (found : Option Char)
  | truth (holds : Bool)
  | text (cs : Text)
  | nothing

namespace Operation

def answer (k : Cursor) : Operation → Answer
  | next => .character k.next?
  | later n => .character (k.later? n)
  | read => .character k.read.1
  | startsWith word => .truth (k.startsWith word)
  | accept word => .truth (k.accept word).1
  | readWhile _ => .nothing
  | readBlank => .truth k.readBlank.1
  | readPast mark => .truth (k.readPast mark).1
  | readToEnd => .nothing
  | slice start stop => .text (k.slice start stop)

def move (k : Cursor) : Operation → Cursor
  | next => k
  | later _ => k
  | read => k.read.2
  | startsWith _ => k
  | accept word => (k.accept word).2
  | readWhile p => k.readWhile p
  | readBlank => k.readBlank.2
  | readPast mark => (k.readPast mark).2
  | readToEnd => k.readToEnd
  | slice _ _ => k

/-- The operation on an offset: what it tells, and the next offset. There is none where the source has to be
cut and cannot be. -/
def atOffset? (source : Text) (offset : Nat) : Operation → Option (Answer × Nat)
  | next => (behind? source offset).map fun rest => (.character rest.head?, offset)
  | later n => (behind? source offset).map fun rest => (.character rest[n]?, offset)
  | read => (behind? source offset).map fun rest =>
      match rest with
      | [] => (.character none, offset)
      | c :: _ => (.character (some c), offset + c.utf8Size)
  | startsWith word => (behind? source offset).map fun rest => (.truth (word.isPrefixOf rest), offset)
  | accept word => (behind? source offset).map fun rest =>
      if word <+: rest then (.truth true, offset + size word) else (.truth false, offset)
  | readWhile p => (passWhile? source p offset).map fun stop => (.nothing, stop)
  | readBlank => (passWhile? source isBlank offset).map fun stop => (.truth (offset < stop), stop)
  | readPast mark => (behind? source offset).map fun rest =>
      match firstOffset? mark rest with
      | some found => (.truth true, offset + (found + size mark))
      | none => (.truth false, size source)
  | readToEnd => some (.nothing, size source)
  | slice start stop => some (.text (Text.slice start stop source), offset)

end Operation

structure Reads (k : Cursor) (run : Text) (k' : Cursor) : Prop where
  passed_eq : k'.passed = run.reverse ++ k.passed
  ahead_eq : k.ahead = run ++ k'.ahead

variable {k k' : Cursor} {run body rest word mark : Text} {c : Char} {p : Char → Bool}

lemma Reads.offset_eq (h : k.Reads run k') : k'.offset = k.offset + size run := by
  rw [offset, h.passed_eq, size_append, size_reverse, offset, Nat.add_comm]

lemma reads_self (k : Cursor) : k.Reads [] k :=
  ⟨rfl, rfl⟩

lemma moveOver_reads (h : k.ahead = run ++ rest) : k.Reads run (k.moveOver run rest) :=
  ⟨rfl, h⟩

lemma read_of_nil (h : k.ahead = []) : k.read = (none, k) := by
  rw [read, h]

lemma read_of_cons (h : k.ahead = c :: rest) : k.read = (some c, k.moveOver [c] rest) := by
  rw [read, h]

lemma accept_of_append (h : k.ahead = word ++ rest) : k.accept word = (true, k.moveOver word rest) := by
  have hstarts : k.startsWith word := by
    rw [startsWith, h, List.isPrefixOf_iff_prefix]
    exact List.prefix_append word rest
  rw [accept, if_pos hstarts, h, List.drop_left]

lemma accept_of_not_begins (h : ¬ word <+: k.ahead) : k.accept word = (false, k) := by
  rw [accept, if_neg]
  rwa [startsWith, List.isPrefixOf_iff_prefix]

lemma readPast_of_cutPast (h : cutPast mark k.ahead = some (body, rest)) :
    k.readPast mark = (true, k.moveOver (body ++ mark) rest) := by
  rw [readPast, Enclosed.read, h]
  rfl

lemma readPast_of_missing (h : ¬ mark <:+: k.ahead) : k.readPast mark = (false, k.readToEnd) := by
  rw [readPast, Enclosed.read, cutPast_eq_none_iff.2 h]
  rfl

lemma read_reads (k : Cursor) : k.Reads k.next?.toList k.read.2 := by
  rw [next?]
  cases h : k.ahead with
  | nil =>
    rw [read_of_nil h]
    exact reads_self k
  | cons c rest =>
    rw [read_of_cons h]
    exact moveOver_reads h

lemma readWhile_reads (k : Cursor) (p : Char → Bool) :
    k.Reads (k.ahead.takeWhile p) (k.readWhile p) :=
  moveOver_reads List.takeWhile_append_dropWhile.symm

lemma readToEnd_reads (k : Cursor) : k.Reads k.ahead k.readToEnd :=
  moveOver_reads (List.append_nil k.ahead).symm

lemma behind?_offset (k : Cursor) : behind? k.source k.offset = some k.ahead := by
  rw [source, offset, ← size_reverse]
  exact behind?_append k.passed.reverse k.ahead

lemma passWhile?_offset (k : Cursor) (p : Char → Bool) :
    passWhile? k.source p k.offset = some (k.readWhile p).offset := by
  rw [(readWhile_reads k p).offset_eq, source, offset, ← size_reverse]
  exact passWhile?_append k.passed.reverse k.ahead p

lemma size_source_eq (k : Cursor) : size k.source = k.readToEnd.offset := by
  rw [(readToEnd_reads k).offset_eq, source, offset, size_append, size_reverse]

lemma readBlank_fst (k : Cursor) : k.readBlank.1 = decide (k.offset < k.readBlank.2.offset) := by
  rw [readBlank, (readWhile_reads k isBlank).offset_eq]
  cases k.ahead with
  | nil => simp
  | cons c rest =>
    have hpos := c.utf8Size_pos
    by_cases hc : isBlank c
    · have hlt : k.offset < k.offset + size ((c :: rest).takeWhile isBlank) := by
        rw [List.takeWhile_cons_of_pos hc, size_cons]
        omega
      rw [decide_eq_true hlt]
      exact hc
    · rw [List.takeWhile_cons_of_neg hc, size_nil, Nat.add_zero]
      simp [hc]

namespace Operation

lemma exists_reads (o : Operation) (k : Cursor) : ∃ run, k.Reads run (o.move k) := by
  cases o with
  | next => exact ⟨_, reads_self k⟩
  | later n => exact ⟨_, reads_self k⟩
  | read => exact ⟨_, read_reads k⟩
  | startsWith word => exact ⟨_, reads_self k⟩
  | accept word =>
    rw [move]
    by_cases h : word <+: k.ahead
    · obtain ⟨rest, hrest⟩ := h
      rw [accept_of_append hrest.symm]
      exact ⟨_, moveOver_reads hrest.symm⟩
    · rw [accept_of_not_begins h]
      exact ⟨_, reads_self k⟩
  | readWhile p => exact ⟨_, readWhile_reads k p⟩
  | readBlank => exact ⟨_, readWhile_reads k isBlank⟩
  | readPast mark => exact ⟨_, moveOver_reads (Enclosed.chars_append mark k.ahead).symm⟩
  | readToEnd => exact ⟨_, readToEnd_reads k⟩
  | slice start stop => exact ⟨_, reads_self k⟩

lemma source_move (o : Operation) (k : Cursor) : (o.move k).source = k.source := by
  cases o with
  | next => rfl
  | later n => rfl
  | read => exact source_read k
  | startsWith word => rfl
  | accept word => exact source_accept k word
  | readWhile p => exact source_readWhile k p
  | readBlank => exact source_readWhile k isBlank
  | readPast mark => exact source_readPast k mark
  | readToEnd => exact source_readToEnd k
  | slice start stop => rfl

lemma offset_le_move (o : Operation) (k : Cursor) : k.offset ≤ (o.move k).offset := by
  obtain ⟨run, h⟩ := o.exists_reads k
  rw [h.offset_eq]
  exact Nat.le_add_right _ _

-- A cut at the offset of a cursor gives what is ahead of it, so no operation gets stuck there.
lemma atOffset?_read (k : Cursor) :
    read.atOffset? k.source k.offset = some (.character k.read.1, k.read.2.offset) := by
  rw [atOffset?, behind?_offset]
  cases h : k.ahead with
  | nil =>
    rw [read_of_nil h]
    rfl
  | cons c rest =>
    rw [read_of_cons h, (moveOver_reads h).offset_eq]
    rfl

lemma atOffset?_accept (k : Cursor) (word : Text) : (accept word).atOffset? k.source k.offset =
    some (.truth (k.accept word).1, (k.accept word).2.offset) := by
  rw [atOffset?, behind?_offset, Option.map_some]
  by_cases h : word <+: k.ahead
  · rw [if_pos h]
    obtain ⟨rest, hrest⟩ := h
    rw [accept_of_append hrest.symm, (moveOver_reads hrest.symm).offset_eq]
  · rw [if_neg h, accept_of_not_begins h]

lemma atOffset?_readPast (k : Cursor) (mark : Text) : (readPast mark).atOffset? k.source k.offset =
    some (.truth (k.readPast mark).1, (k.readPast mark).2.offset) := by
  rw [atOffset?, behind?_offset, Option.map_some, firstOffset?_eq]
  cases h : cutPast mark k.ahead with
  | none =>
    rw [readPast_of_missing (cutPast_eq_none_iff.1 h), size_source_eq]
    rfl
  | some cut =>
    rw [readPast_of_cutPast h, (moveOver_reads (eq_of_cutPast h)).offset_eq, size_append]
    rfl

lemma atOffset?_eq (o : Operation) (k : Cursor) :
    o.atOffset? k.source k.offset = some (o.answer k, (o.move k).offset) := by
  cases o with
  | next =>
    rw [atOffset?, behind?_offset]
    rfl
  | later n =>
    rw [atOffset?, behind?_offset]
    rfl
  | read => exact atOffset?_read k
  | startsWith word =>
    rw [atOffset?, behind?_offset]
    rfl
  | accept word => exact atOffset?_accept k word
  | readWhile p =>
    rw [atOffset?, passWhile?_offset]
    rfl
  | readBlank =>
    rw [atOffset?, passWhile?_offset, answer, readBlank_fst]
    rfl
  | readPast mark => exact atOffset?_readPast k mark
  | readToEnd =>
    rw [atOffset?, size_source_eq]
    rfl
  | slice start stop => rfl

def offsetAfter? (source : Text) (offset : Nat) (operations : List Operation) : Option Nat :=
  operations.foldlM (fun offset o => (o.atOffset? source offset).map Prod.snd) offset

end Operation

def after (k : Cursor) (operations : List Operation) : Cursor :=
  operations.foldl Operation.move k

lemma source_after (k : Cursor) (operations : List Operation) :
    (k.after operations).source = k.source := by
  induction operations generalizing k with
  | nil => rfl
  | cons o operations ih =>
    have hnext := ih (o.move k)
    rw [o.source_move] at hnext
    exact hnext

lemma offsetAfter?_eq (k : Cursor) (operations : List Operation) :
    Operation.offsetAfter? k.source k.offset operations = some (k.after operations).offset := by
  induction operations generalizing k with
  | nil => rfl
  | cons o operations ih =>
    have hnext := ih (o.move k)
    rw [o.source_move] at hnext
    rw [Operation.offsetAfter?, List.foldlM_cons, o.atOffset?_eq]
    exact hnext

structure IsLongest (p : Char → Bool) (cs run : Text) : Prop where
  isPrefix : run <+: cs
  mem : ∀ c ∈ run, p c
  longest : ∀ more, more <+: cs → (∀ c ∈ more, p c) → more <+: run

inductive ReadsPast (k : Cursor) (mark : Text) : Bool × Cursor → Prop
  | found {body : Text} {k' : Cursor} : k.Reads (body ++ mark) k' → EndsFirst mark body →
      ReadsPast k mark (true, k')
  | missing {k' : Cursor} : k.Reads k.ahead k' → ¬ mark <:+: k.ahead → ReadsPast k mark (false, k')

lemma isLongest_takeWhile (p : Char → Bool) (cs : Text) : IsLongest p cs (cs.takeWhile p) := by
  refine ⟨List.takeWhile_prefix p, fun c hc => List.mem_takeWhile_imp hc, fun more hmore hp => ?_⟩
  obtain ⟨rest, rfl⟩ := hmore
  rw [List.takeWhile_append_of_pos hp]
  exact List.prefix_append _ _

lemma readPast_readsPast (k : Cursor) (mark : Text) : k.ReadsPast mark (k.readPast mark) := by
  cases h : cutPast mark k.ahead with
  | none =>
    have hnone := cutPast_eq_none_iff.1 h
    rw [readPast_of_missing hnone]
    exact .missing (readToEnd_reads k) hnone
  | some cut =>
    rw [readPast_of_cutPast h]
    exact .found (moveOver_reads (eq_of_cutPast h)) (endsFirst_of_cutPast h)

lemma readPast_fst_iff (k : Cursor) (mark : Text) :
    (k.readPast mark).1 = true ↔ mark <:+: k.ahead := by
  have h := readPast_readsPast k mark
  generalize k.readPast mark = told at h ⊢
  cases h with
  | found hreads hfirst =>
    exact iff_of_true rfl ⟨_, _, hreads.ahead_eq.symm⟩
  | missing hreads hnone => exact iff_of_false Bool.false_ne_true hnone

lemma read_fst (k : Cursor) : k.read.1 = k.next? := by
  rw [next?]
  cases h : k.ahead with
  | nil => rw [read_of_nil h, List.head?_nil]
  | cons c rest => rw [read_of_cons h, List.head?_cons]

lemma next?_eq_none_iff (k : Cursor) : k.next? = none ↔ k.offset = size k.source := by
  rw [next?, List.head?_eq_none_iff, size_source_eq, (readToEnd_reads k).offset_eq, Nat.left_eq_add,
    size_eq_zero_iff]

lemma offset_isBoundary (k : Cursor) : IsBoundary k.source k.offset :=
  ⟨k.passed.reverse, k.ahead, rfl, size_reverse k.passed⟩

/-- Whatever is done with a cursor, its offset is where the same operations on offsets lead, each of which is
possible. It is where a character ends, never goes back, and what stands behind it is ahead. One character is
read unless the end is reached, a run is the longest one, and a mark is the first one. -/
theorem operations_exact (source : Text) (operations : List Operation) :
    let k := (start source).after operations
    (Operation.offsetAfter? source 0 operations = some k.offset ∧ k.offset ≤ size source ∧
      IsBoundary source k.offset ∧ behind? source k.offset = some k.ahead) ∧
    (∀ o : Operation, o.atOffset? source k.offset = some (o.answer k, (o.move k).offset) ∧
      k.offset ≤ (o.move k).offset) ∧
    (k.read.1 = k.next? ∧ (k.read.1 = none ↔ k.offset = size source) ∧
      k.Reads k.next?.toList k.read.2) ∧
    (∀ p, ∃ run, k.Reads run (k.readWhile p) ∧ IsLongest p k.ahead run) ∧
    ∀ mark, ((k.readPast mark).1 = true ↔ mark <:+: k.ahead) ∧ k.ReadsPast mark (k.readPast mark) := by
  intro k
  have hsource : k.source = source := source_after (start source) operations
  have hoffset : Operation.offsetAfter? source 0 operations = some k.offset :=
    offsetAfter?_eq (start source) operations
  have hboundary := k.offset_isBoundary
  have hbehind := behind?_offset k
  have hend := next?_eq_none_iff k
  have hstep : ∀ o : Operation,
      o.atOffset? k.source k.offset = some (o.answer k, (o.move k).offset) := fun o => o.atOffset?_eq k
  rw [hsource] at hboundary hbehind hend
  simp only [hsource] at hstep
  refine ⟨⟨hoffset, hboundary.le_size, hboundary, hbehind⟩, fun o => ⟨hstep o, o.offset_le_move k⟩,
    ⟨read_fst k, ?_, read_reads k⟩, fun p => ⟨_, readWhile_reads k p, isLongest_takeWhile p k.ahead⟩,
    fun mark => ⟨readPast_fst_iff k mark, readPast_readsPast k mark⟩⟩
  rw [read_fst]
  exact hend

example : Operation.offsetAfter? ['é', '}', '}', '}'] 0 [.read, .readPast ['}', '}'], .readPast ['}', '}']] =
    some 5 := by decide

end Cursor

end TemplateMarkup.Text
