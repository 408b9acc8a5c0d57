import TemplateMarkup.Proofs.Markup.Reading

/-! The span of an attribute leaves out the blanks behind a name without a value, so a tag is what its name and
its attributes cover, some blanks, and its ending. -/

namespace TemplateMarkup.Markup

namespace WrittenAttribute

def covered (a : WrittenAttribute) : Text :=
  match a.assignment with
  | none => a.blank ++ a.name
  | some assignment => a.blank ++ a.name ++ a.gap ++ assignment.chars

def trail (a : WrittenAttribute) : Text :=
  match a.assignment with
  | none => a.gap
  | some _ => []

def core (w : WrittenAttribute) : Text :=
  match w.assignment with
  | none => w.name
  | some assignment => w.name ++ (w.gap ++ assignment.chars)

def tail (w : WrittenAttribute) : Text :=
  (w.assignment.map fun assignment => w.gap ++ assignment.chars).getD []

lemma core_eq (w : WrittenAttribute) : w.core = w.name ++ w.tail := by
  cases h : w.assignment <;> simp [core, tail, h]

lemma covered_eq (w : WrittenAttribute) : w.covered = w.blank ++ w.core := by
  cases h : w.assignment <;> simp [covered, core, h]

lemma covered_append_trail (a : WrittenAttribute) : a.covered ++ a.trail = a.chars := by
  cases h : a.assignment <;> simp [covered, trail, chars, h]

lemma chars_eq (w : WrittenAttribute) : w.chars = w.blank ++ (w.core ++ w.trail) := by
  rw [← covered_append_trail, covered_eq, List.append_assoc]

lemma size_covered_le (a : WrittenAttribute) : Text.size a.covered ≤ Text.size a.chars := by
  rw [← a.covered_append_trail, Text.size_append]
  omega

lemma trail_blank {cs rest : Text} {a : WrittenAttribute} (h : read? cs = some (a, rest)) :
    ∀ c ∈ a.trail, Text.isBlank c := by
  rw [trail]
  split
  · exact gap_blank_of_read? h
  · simp

lemma place_name (id owner pos : Nat) (w : WrittenAttribute) :
    (w.place id owner pos).name = w.name := by
  rw [place]
  split <;> rfl

lemma place_outerStart (id owner pos : Nat) (w : WrittenAttribute) :
    (w.place id owner pos).outerStart = Word.wrap pos := by
  rw [place]
  split <;> rfl

lemma place_span (id owner pos : Nat) (a : WrittenAttribute) :
    (a.place id owner pos).span =
      Span.ofOffsets (pos + Text.size a.blank) (pos + Text.size a.covered) := by
  cases h : a.assignment with
  | none => simp [place, covered, h, Nat.add_assoc]
  | some assignment =>
    simp only [place, covered, h, Assignment.chars, Text.size_append, Text.size_cons,
      show Char.utf8Size '=' = 1 from rfl]
    congr 1
    omega

lemma place_span_of_lt {id owner pos : Nat} {a : WrittenAttribute}
    (h : pos + Text.size a.chars < Word.bound) : (a.place id owner pos).span =
      ⟨pos + Text.size a.blank, pos + Text.size a.covered⟩ := by
  have hcovered := a.size_covered_le
  have hblank : Text.size a.blank ≤ Text.size a.chars := by
    simp only [chars, Text.size_append]
    omega
  rw [place_span, Span.ofOffsets, Word.wrap_of_lt (by omega), Word.wrap_of_lt (by omega)]

lemma place_span_core {id owner pos : Nat} {a : WrittenAttribute}
    (h : pos + Text.size a.chars < Word.bound) : (a.place id owner pos).span =
      ⟨pos + Text.size a.blank, pos + Text.size a.blank + Text.size a.core⟩ := by
  rw [place_span_of_lt h, covered_eq, Text.size_append, Nat.add_assoc]

lemma placeAll_concat (owner id pos : Nat) (as : List WrittenAttribute) (a : WrittenAttribute) :
    placeAll owner id pos (as ++ [a]) = placeAll owner id pos as ++
      [a.place (id + as.length) owner (pos + Text.size (as.flatMap chars))] := by
  induction as generalizing id pos with
  | nil => simp [placeAll]
  | cons b as ih =>
    simp only [List.cons_append, placeAll, ih, List.length_cons, List.flatMap_cons, Text.size_append]
    congr 4 <;> omega

end WrittenAttribute

namespace WrittenTag

def covered (tag : WrittenTag) : Text :=
  tag.name ++ tag.attributes.dropLast.flatMap WrittenAttribute.chars ++
    tag.attributes.getLast?.elim [] WrittenAttribute.covered

def trail (tag : WrittenTag) : Text :=
  tag.attributes.getLast?.elim [] WrittenAttribute.trail ++ tag.gap

lemma chars_eq (tag : WrittenTag) : tag.chars = tag.covered ++ (tag.trail ++ tag.ending.chars) := by
  rcases List.eq_nil_or_concat tag.attributes with h | ⟨as, a, h⟩
  · simp [chars, covered, trail, h]
  · simp [chars, covered, trail, h, ← a.covered_append_trail]

lemma trail_blank (first : Char) (cs : Text) :
    ∀ c ∈ (read first cs).1.trail, Text.isBlank c := by
  intro c hc
  rcases List.mem_append.1 hc with hc | hc
  · cases hl : (read first cs).1.attributes.getLast? with
    | none => simp [hl] at hc
    | some a =>
      rw [hl] at hc
      obtain ⟨ds, after, hr⟩ := exists_read?_of_mem (List.mem_of_getLast? hl)
      exact WrittenAttribute.trail_blank hr c hc
  · exact gap_blank first cs c hc

lemma placeAll_last_stop {start owner id : Nat} {tag : WrittenTag}
    (h : start + 1 + Text.size tag.chars < Word.bound) :
    ((WrittenAttribute.placeAll owner id (start + 1 + Text.size tag.name)
      tag.attributes).getLast?.elim (start + 1 + Text.size tag.name) fun a => a.span.stop) =
        start + 1 + Text.size tag.covered := by
  rcases List.eq_nil_or_concat tag.attributes with has | ⟨as, a, has⟩
  · simp [has, WrittenAttribute.placeAll, covered]
  · rw [List.concat_eq_append] at has
    have hsize : Text.size tag.name + Text.size (as.flatMap WrittenAttribute.chars) +
        Text.size a.chars ≤ Text.size tag.chars := by
      simp only [chars, has, List.flatMap_append, List.flatMap_singleton, Text.size_append]
      omega
    rw [has, WrittenAttribute.placeAll_concat, List.getLast?_concat, Option.elim_some,
      WrittenAttribute.place_span_of_lt (by omega)]
    simp only [covered, has, List.dropLast_concat, List.getLast?_concat, Option.elim_some,
      Text.size_append]
    omega

lemma ending_ne_missing_iff (first : Char) (cs : Text) :
    (read first cs).1.ending ≠ .missing ↔
      Text.size (read first cs).1.covered < Text.size (read first cs).1.chars ∧
        ('<' :: (read first cs).1.chars).getLast? = some '>' := by
  have hblank := trail_blank first cs
  generalize (read first cs).1 = tag at hblank ⊢
  have hbracket {before : Text} (h : tag.chars = tag.covered ++ (before ++ ['>'])) :
      Text.size tag.covered < Text.size tag.chars ∧ ('<' :: tag.chars).getLast? = some '>' := by
    have hsize : Char.utf8Size '>' = 1 := rfl
    constructor
    · simp only [h, Text.size_append, Text.size_cons, hsize]
      omega
    · rw [h, ← List.append_assoc, ← List.cons_append, List.getLast?_concat]
  cases he : tag.ending with
  | missing =>
    have hchars : tag.chars = tag.covered ++ tag.trail := by simp [chars_eq, he, Ending.chars]
    simp only [ne_eq, not_true_eq_false, false_iff, not_and, hchars, Text.size_append]
    intro hlt hlast
    have hne : tag.trail ≠ [] := by
      rintro hnil
      simp [hnil] at hlt
    rw [← List.cons_append, List.getLast?_append_of_ne_nil _ hne] at hlast
    exact absurd (hblank '>' (List.mem_of_getLast? hlast)) (by decide)
  | plain =>
    refine iff_of_true (by simp) (@hbracket tag.trail ?_)
    rw [chars_eq, he, Ending.chars]
  | slashed =>
    refine iff_of_true (by simp) (@hbracket (tag.trail ++ ['/']) ?_)
    rw [chars_eq, he, Ending.chars, List.append_assoc]
    rfl

end WrittenTag

end TemplateMarkup.Markup
