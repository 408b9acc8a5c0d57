import Mathlib.Data.List.Flatten
import Mathlib.Data.Prod.Lex
import TemplateMarkup.Proofs.Source.Lines
import TemplateMarkup.Proofs.Text.Bytes

namespace TemplateMarkup

namespace Text

def feed : UInt8 := 10

def brokenBytes (ls : List Text) : List UInt8 :=
  ls.flatMap fun l => bytes l ++ [feed]

variable {c : Char} {cs l : Text} {ls ms : List Text}

lemma feed_not_mem_bytes (h : '\n' ∉ cs) : feed ∉ bytes cs :=
  not_mem_bytes rfl (by decide) h

lemma newline_not_mem_lines : ∀ l ∈ lines cs, '\n' ∉ l := by
  induction cs with
  | nil => simp [lines]
  | cons c cs ih =>
    by_cases hc : c = '\n'
    · rw [hc, lines_feed]
      exact List.forall_mem_cons.2 ⟨List.not_mem_nil, ih⟩
    · obtain ⟨l, ls, hlines⟩ := exists_lines cs
      rw [hlines] at ih
      obtain ⟨hl, hls⟩ := List.forall_mem_cons.1 ih
      rw [lines_cons hc hlines]
      exact List.forall_mem_cons.2 ⟨List.not_mem_cons_of_ne_of_not_mem (Ne.symm hc) hl, hls⟩

lemma feed_not_mem_lines (h : l ∈ lines cs) : feed ∉ bytes l :=
  feed_not_mem_bytes (newline_not_mem_lines l h)

lemma bytes_broken (ls : List Text) : bytes (broken ls) = brokenBytes ls := by
  induction ls with
  | nil => rfl
  | cons l ls ih =>
    rw [broken_cons, bytes_append, bytes_cons, ih, brokenBytes, brokenBytes, List.flatMap_cons,
      List.append_assoc]
    rfl

lemma brokenBytes_lines (cs : Text) : brokenBytes (lines cs) = bytes cs ++ [feed] := by
  rw [← bytes_broken, broken_lines, bytes_append]
  rfl

lemma length_brokenBytes (ls : List Text) : (brokenBytes ls).length = brokenSize ls := by
  rw [← bytes_broken, length_bytes, size_broken]

lemma count_brokenBytes (h : ∀ l ∈ ls, feed ∉ bytes l) : (brokenBytes ls).count feed = ls.length := by
  induction ls with
  | nil => rfl
  | cons l ls ih =>
    obtain ⟨hl, hls⟩ := List.forall_mem_cons.1 h
    rw [brokenBytes, List.flatMap_cons, List.count_append, List.count_append, ← brokenBytes, ih hls,
      List.count_eq_zero.2 hl, List.count_singleton_self, List.length_cons]
    omega

lemma getLast?_brokenBytes (ls : List Text) :
    brokenBytes ls = [] ∨ (brokenBytes ls).getLast? = some feed := by
  cases ls using List.reverseRecOn with
  | nil => exact Or.inl rfl
  | append_singleton ls l =>
    right
    simp [brokenBytes]

lemma brokenSize_le (h : ls <+: ms) : brokenSize ls ≤ brokenSize ms := by
  obtain ⟨more, rfl⟩ := h
  rw [brokenSize_append]
  exact Nat.le_add_right ..

lemma eq_of_lineStarts_getElem? {i start s : Nat} (h : (lineStarts start ls)[i]? = some s) :
    s = start + brokenSize (ls.take i) := by
  induction ls generalizing i start with
  | nil => cases h
  | cons l ls ih =>
    cases i with
    | zero => exact (Option.some.inj h).symm
    | succ i =>
      rw [lineStarts, List.getElem?_cons_succ] at h
      rw [ih h, List.take_succ_cons, brokenSize_cons, Nat.add_assoc]

end Text

/-- The first `offset` bytes of the source hold a line feed for each line before the position, and the column
is the distance from the last of them. -/
structure Position.CountsFeeds (source : Text) (offset : Nat) (p : Position) : Prop where
  line_eq : p.line = ((Text.bytes source).take offset).count Text.feed
  column_eq : ∃ before after, (Text.bytes source).take offset = before ++ after ∧
    (before = [] ∨ before.getLast? = some Text.feed) ∧ Text.feed ∉ after ∧
      p.column = offset - before.length

structure Lines.Reaches (lines : Lines) (offset n : Nat) : Prop where
  le_count : n ≤ lines.count
  start_le_iff : ∀ i start, lines.starts[i]? = some start → (start ≤ offset ↔ i < n)

variable {source : Text} {offset : Nat} {p : Position}

namespace Position.IsAt

lemma take_bytes (h : p.IsAt source offset) : ∃ before line,
    (∀ l ∈ before, Text.feed ∉ Text.bytes l) ∧ Text.feed ∉ Text.bytes line ∧
      before.length = p.line ∧ Text.brokenSize before + p.column = offset ∧
        (Text.bytes source).take offset =
          Text.brokenBytes before ++ (Text.bytes line).take p.column := by
  obtain ⟨before, line, after, hlines, hlen, hoffset, hcolumn⟩ := h.split
  have hfree : ∀ l ∈ before ++ line :: after, Text.feed ∉ Text.bytes l := by
    rw [← hlines]
    exact fun l hl => Text.feed_not_mem_lines hl
  refine ⟨before, line, fun l hl => hfree l (List.mem_append_left _ hl), hfree line (by simp), hlen,
    hoffset, ?_⟩
  have hbytes := Text.brokenBytes_lines source
  rw [hlines, Text.brokenBytes, List.flatMap_append, List.flatMap_cons, ← Text.brokenBytes] at hbytes
  calc (Text.bytes source).take offset
      = (Text.bytes source ++ [Text.feed]).take offset := by
        rw [List.take_append_of_le_length]
        rw [Text.length_bytes]
        exact h.le_size.2
    _ = Text.brokenBytes before ++ (Text.bytes line).take p.column := by
        rw [← hbytes, ← hoffset, ← Text.length_brokenBytes, List.take_length_add_append,
          List.append_assoc, List.take_append_of_le_length]
        rwa [Text.length_bytes]

lemma countsFeeds (h : p.IsAt source offset) : p.CountsFeeds source offset := by
  obtain ⟨before, line, hbefore, hline, hlen, hoffset, htake⟩ := h.take_bytes
  have hafter : Text.feed ∉ (Text.bytes line).take p.column := fun hmem =>
    hline (List.mem_of_mem_take hmem)
  constructor
  · rw [htake, List.count_append, Text.count_brokenBytes hbefore, List.count_eq_zero.2 hafter, hlen]
    rfl
  · refine ⟨_, _, htake, Text.getLast?_brokenBytes before, hafter, ?_⟩
    rw [Text.length_brokenBytes]
    omega

lemma reaches (hs : Text.size source < Word.bound) (h : p.IsAt source offset) :
    (Lines.ofText source).Reaches offset (p.line + 1) := by
  obtain ⟨line, hline, hcolumn⟩ := h.column_le
  have hoffset := h.offset_eq
  constructor
  · rw [Lines.count, Lines.starts_ofText hs, Text.length_lineStarts]
    exact (List.getElem?_eq_some_iff.1 hline).1
  · intro i start hstart
    rw [Lines.starts_ofText hs] at hstart
    have hstart := Text.eq_of_lineStarts_getElem? hstart
    rcases Nat.lt_or_ge p.line i with hlt | hle
    · have hmore := Text.brokenSize_le (List.take_prefix_take_left (l := Text.lines source) hlt)
      rw [List.take_add_one, hline, Option.toList_some, Text.brokenSize_append,
        Text.brokenSize_cons] at hmore
      omega
    · have hless := Text.brokenSize_le (List.take_prefix_take_left (l := Text.lines source) hle)
      omega

lemma lt_of_lt {offset' : Nat} {q : Position} (hp : p.IsAt source offset)
    (hq : q.IsAt source offset') (h : offset < offset') :
    toLex (p.line, p.column) < toLex (q.line, q.column) := by
  have hline : p.line ≤ q.line := by
    rw [hp.countsFeeds.line_eq, hq.countsFeeds.line_eq]
    exact (List.take_sublist_take_left (Nat.le_of_lt h)).count_le _
  rw [Prod.Lex.toLex_lt_toLex]
  rcases Nat.lt_or_eq_of_le hline with hlt | heq
  · exact Or.inl hlt
  · have hoffset := hp.offset_eq
    have hoffset' := hq.offset_eq
    rw [heq] at hoffset
    exact Or.inr ⟨heq, by simp only; omega⟩

end Position.IsAt

namespace Lines

lemma count_ofText (hs : Text.size source < Word.bound) :
    (ofText source).count = (Text.bytes source).count Text.feed + 1 := by
  have hfree (l : Text) (hl : l ∈ Text.lines source) : Text.feed ∉ Text.bytes l :=
    Text.feed_not_mem_lines hl
  have hcount := Text.count_brokenBytes hfree
  rw [Text.brokenBytes_lines, List.count_append, List.count_singleton_self] at hcount
  rw [count, starts_ofText hs, Text.length_lineStarts, hcount]

lemma position?_injOn (hs : Text.size source < Word.bound) :
    Set.InjOn (ofText source).position? {offset | offset ≤ Text.size source} := by
  intro o ho o' _ heq
  obtain ⟨p, hp, hat⟩ := exists_position? hs ho
  rw [hp, eq_comm, position?_eq_some_iff hs] at heq
  exact hat.offset_eq.symm.trans heq.offset_eq

/-- An offset in a source has the position that counts the line feeds before it and the bytes behind the last
of them. The lines that begin at or before it are the first ones, and there is one more of these than the
number of its line. -/
theorem position_counts_feeds (source : Text) (hs : Text.size source < Word.bound) :
    (∀ offset, Text.size source < offset → (ofText source).position? offset = none) ∧
    (∀ offset, offset ≤ Text.size source → ∃ p, (ofText source).position? offset = some p ∧
      p.CountsFeeds source offset ∧ (ofText source).Reaches offset (p.line + 1) ∧
        p.line < Word.bound) ∧
    (ofText source).count = (Text.bytes source).count Text.feed + 1 ∧
    Set.InjOn (ofText source).position? {offset | offset ≤ Text.size source} ∧
    ∀ o o', o < o' → o' ≤ Text.size source → ∃ p q, (ofText source).position? o = some p ∧
      (ofText source).position? o' = some q ∧
        toLex (p.line, p.column) < toLex (q.line, q.column) := by
  refine ⟨fun offset h => ?_, fun offset h => ?_, count_ofText hs, position?_injOn hs, ?_⟩
  · rw [position?, size_ofText hs, if_pos h]
  · obtain ⟨p, hp, hat⟩ := exists_position? hs h
    exact ⟨p, hp, hat.countsFeeds, hat.reaches hs, Nat.lt_of_le_of_lt hat.line_le_size hs⟩
  · intro o o' hlt hle
    obtain ⟨p, hp, hat⟩ := exists_position? hs (Nat.le_trans (Nat.le_of_lt hlt) hle)
    obtain ⟨q, hq, hat'⟩ := exists_position? hs hle
    exact ⟨p, q, hp, hq, hat.lt_of_lt hat' hlt⟩

theorem position_counts_feeds_inside_character :
    Text.size ['é', '\n', '\n'] < Word.bound ∧ 4 ≤ Text.size ['é', '\n', '\n'] ∧
    [0, 1, 3, 4, 5].map (ofText ['é', '\n', '\n']).position? =
      [some ⟨0, 0⟩, some ⟨0, 1⟩, some ⟨1, 0⟩, some ⟨2, 0⟩, none] ∧
    (⟨2, 0⟩ : Position).CountsFeeds ['é', '\n', '\n'] 4 ∧
    (ofText ['é', '\n', '\n']).Reaches 4 3 := by
  have hat : (ofText ['é', '\n', '\n']).position? 4 = some ⟨2, 0⟩ := by decide
  obtain ⟨p, hp, hcounts, hreaches, -⟩ :=
    (position_counts_feeds ['é', '\n', '\n'] (by decide)).2.1 4 (by decide)
  obtain rfl := Option.some.inj (hp.symm.trans hat)
  exact ⟨by decide, by decide, by decide, hcounts, hreaches⟩

end Lines

end TemplateMarkup
