import TemplateMarkup.Text.Cut

/-! Attributes as they are written inside a tag. Reading one keeps every character. -/

namespace TemplateMarkup.Markup

def isNameStart (c : Char) : Bool :=
  c.isAlpha

def isNameChar (c : Char) : Bool :=
  !(c < ' ' || c == ' ' || c == '/' || c == '>')

def isAttributeChar (c : Char) : Bool :=
  isNameChar c && !(c == '=' || c == '"' || c == '\'')

theorem not_isAttributeChar_of_isBlank {c : Char} (h : Text.isBlank c) :
    isAttributeChar c = false := by
  simp only [Text.isBlank, Bool.or_eq_true, beq_iff_eq] at h
  rcases h with (((rfl | rfl) | rfl) | rfl) | rfl <;> decide

/-- What follows an equals sign. A value without quotes ends only where another character comes. -/
inductive WrittenValue where
  | quoted (quote : Char) (run : Text.Enclosed)
  | bare (text : Text) (ended : Bool)
  | missing
deriving DecidableEq, Repr

namespace WrittenValue

def read : Text → WrittenValue × Text
  | [] => (.missing, [])
  | c :: cs =>
    if c = '"' ∨ c = '\'' then
      let (run, rest) := Text.Enclosed.read [c] cs
      (.quoted c run, rest)
    else if isAttributeChar c then
      let rest := cs.dropWhile isAttributeChar
      (.bare (c :: cs.takeWhile isAttributeChar) (!rest.isEmpty), rest)
    else (.missing, c :: cs)

def chars : WrittenValue → Text
  | quoted quote run => quote :: run.chars [quote]
  | bare text _ => text
  | missing => []

theorem chars_append (cs : Text) : (read cs).1.chars ++ (read cs).2 = cs := by
  unfold read
  split
  · rfl
  · rename_i c cs
    split
    · simp [chars, Text.Enclosed.chars_append]
    · split <;> simp [chars]

end WrittenValue

structure Assignment where
  blank : Text
  value : WrittenValue
deriving DecidableEq, Repr

def Assignment.chars (a : Assignment) : Text :=
  '=' :: (a.blank ++ a.value.chars)

structure WrittenAttribute where
  blank : Text
  name : Text
  gap : Text
  assignment : Option Assignment
deriving DecidableEq, Repr

namespace WrittenAttribute

def chars (a : WrittenAttribute) : Text :=
  a.blank ++ a.name ++ a.gap ++ (a.assignment.map Assignment.chars).getD []

def read? (cs : Text) : Option (WrittenAttribute × Text) :=
  let (blank, rest) := Text.cutBlank cs
  let name := rest.takeWhile isAttributeChar
  if name.isEmpty then none
  else
    let (gap, rest) := Text.cutBlank (rest.dropWhile isAttributeChar)
    match rest with
    | '=' :: rest =>
      let (space, rest) := Text.cutBlank rest
      let (value, rest) := WrittenValue.read rest
      some (⟨blank, name, gap, some ⟨space, value⟩⟩, rest)
    | rest => some (⟨blank, name, gap, none⟩, rest)

theorem chars_of_read? {cs rest : Text} {a : WrittenAttribute} (h : read? cs = some (a, rest)) :
    a.chars ++ rest = cs := by
  simp only [read?] at h
  split at h
  · cases h
  · split at h
    · rename_i after he
      simp only [Option.some.injEq, Prod.mk.injEq] at h
      obtain ⟨rfl, rfl⟩ := h
      simp only [chars, Assignment.chars, Option.map_some, Option.getD_some, List.append_assoc,
        List.cons_append, WrittenValue.chars_append, Text.cutBlank_append]
      rw [← he, Text.cutBlank_append, List.takeWhile_append_dropWhile, Text.cutBlank_append]
    · simp only [Option.some.injEq, Prod.mk.injEq] at h
      obtain ⟨rfl, rfl⟩ := h
      simp only [chars, Option.map_none, Option.getD_none, List.append_nil, List.append_assoc,
        Text.cutBlank_append, List.takeWhile_append_dropWhile]

theorem name_ne_nil_of_read? {cs rest : Text} {a : WrittenAttribute}
    (h : read? cs = some (a, rest)) : a.name ≠ [] := by
  simp only [read?] at h
  split at h
  · cases h
  · rename_i hn
    split at h <;>
    · simp only [Option.some.injEq, Prod.mk.injEq] at h
      obtain ⟨rfl, rfl⟩ := h
      simpa using hn

theorem length_lt_of_read? {cs rest : Text} {a : WrittenAttribute} (h : read? cs = some (a, rest)) :
    rest.length < cs.length := by
  have hn := List.length_pos_iff.2 (name_ne_nil_of_read? h)
  have hl := congrArg List.length (chars_of_read? h)
  simp only [chars, List.length_append] at hl
  omega

def readFrom (seen : List WrittenAttribute) (cs : Text) : List WrittenAttribute × Text :=
  match _read : read? cs with
  | none => (seen.reverse, cs)
  | some (a, rest) => readFrom (a :: seen) rest
termination_by cs.length
decreasing_by exact length_lt_of_read? _read

def readAll (cs : Text) : List WrittenAttribute × Text :=
  readFrom [] cs

theorem readFrom_eq (seen : List WrittenAttribute) (cs : Text) :
    readFrom seen cs = (seen.reverse ++ (readAll cs).1, (readAll cs).2) := by
  unfold readAll
  suffices h : ∀ first second : List WrittenAttribute,
      readFrom (first ++ second) cs =
        (second.reverse ++ (readFrom first cs).1, (readFrom first cs).2) by
    simpa using h [] seen
  intro first second
  fun_induction readFrom first cs with
  | case1 first cs h =>
    rw [readFrom]
    split
    · simp
    · rename_i h'
      simp [h] at h'
  | case2 first cs a rest h ih =>
    rw [readFrom]
    split
    · rename_i h'
      simp [h] at h'
    · rename_i a' rest' h'
      rw [h] at h'
      cases h'
      exact ih

theorem readAll_eq (cs : Text) :
    readAll cs = match read? cs with
      | none => ([], cs)
      | some (a, rest) => (a :: (readAll rest).1, (readAll rest).2) := by
  rw [readAll, readFrom]
  split
  · rename_i h
    simp [h]
  · rename_i a rest h
    simp [h, readFrom_eq]

theorem chars_readAll (cs : Text) :
    ((readAll cs).1.flatMap chars) ++ (readAll cs).2 = cs := by
  induction h : cs.length using Nat.strongRecOn generalizing cs with
  | _ n ih =>
    rw [readAll_eq]
    split
    · simp
    · rename_i a rest hr
      have := ih rest.length (h ▸ length_lt_of_read? hr) rest rfl
      simp [this, chars_of_read? hr]

end WrittenAttribute

end TemplateMarkup.Markup
