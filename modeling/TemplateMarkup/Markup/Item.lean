import TemplateMarkup.Markup.Tag

namespace TemplateMarkup.Markup

/-- A piece of markup. A bracket before anything but a letter opens a nameless tag, which takes the
character after the bracket with it. -/
inductive Piece where
  | comment (run : Text.Enclosed)
  | endTag (run : Text.Enclosed)
  | interpolation (run : Text.Enclosed)
  | text (chars : Text)
  | nameless (taken : Option Char)
  | tag (written : WrittenTag)
deriving DecidableEq, Repr

namespace Piece

def chars : Piece → Text
  | comment run => ['<', '!', '-', '-'] ++ run.chars ['-', '-', '>']
  | endTag run => ['<', '/'] ++ run.chars ['>']
  | interpolation run => ['{', '{'] ++ run.chars ['}', '}']
  | text cs => cs
  | nameless taken => '<' :: taken.toList
  | tag written => '<' :: written.chars

def endsText : Text → Bool
  | '<' :: _ => true
  | '{' :: '{' :: _ => true
  | _ => false

def readTag : Text → Piece × Text
  | [] => (.nameless none, [])
  | c :: rest =>
    if isNameStart c then
      let (written, rest) := WrittenTag.read c rest
      (.tag written, rest)
    else (.nameless (some c), rest)

def read : Text → Piece × Text
  | '<' :: '!' :: '-' :: '-' :: rest =>
    let (run, rest) := Text.Enclosed.read ['-', '-', '>'] rest
    (.comment run, rest)
  | '<' :: '/' :: rest =>
    let (run, rest) := Text.Enclosed.read ['>'] rest
    (.endTag run, rest)
  | '<' :: rest => readTag rest
  | '{' :: '{' :: rest =>
    let (run, rest) := Text.Enclosed.read ['}', '}'] rest
    (.interpolation run, rest)
  | c :: rest =>
    -- The first character is text whatever it is.
    let (more, rest) := Text.cutBefore endsText rest
    (.text (c :: more), rest)
  | [] => (.text [], [])

theorem chars_readTag (cs : Text) : (readTag cs).1.chars ++ (readTag cs).2 = '<' :: cs := by
  unfold readTag
  split
  · rfl
  · split <;> simp [chars, WrittenTag.chars_append]

theorem chars_append (cs : Text) : (read cs).1.chars ++ (read cs).2 = cs := by
  unfold read
  split
  · simp [chars, Text.Enclosed.chars_append]
  · simp [chars, Text.Enclosed.chars_append]
  · exact chars_readTag _
  · simp [chars, Text.Enclosed.chars_append]
  · simp [chars, Text.cutBefore_append]
  · rfl

theorem chars_read_ne_nil {cs : Text} (h : cs ≠ []) : (read cs).1.chars ≠ [] := by
  unfold read
  split
  · simp [chars]
  · simp [chars]
  · rename_i rest _ _
    unfold readTag
    split
    · simp [chars]
    · split <;> simp [chars]
  · simp [chars]
  · simp [chars]
  · exact absurd rfl h

end Piece

structure Item where
  blank : Text
  piece : Piece
deriving DecidableEq, Repr

namespace Item

def chars (item : Item) : Text :=
  item.blank ++ item.piece.chars

def read? (cs : Text) : Option (Item × Text) :=
  if cs.isEmpty then none
  else
    let (blank, rest) := Text.cutBlank cs
    let (piece, rest) := Piece.read rest
    some (⟨blank, piece⟩, rest)

theorem chars_of_read? {cs rest : Text} {item : Item} (h : read? cs = some (item, rest)) :
    item.chars ++ rest = cs := by
  simp only [read?] at h
  split at h
  · cases h
  · simp only [Option.some.injEq, Prod.mk.injEq] at h
    obtain ⟨rfl, rfl⟩ := h
    simp [chars, Piece.chars_append]

theorem chars_ne_nil_of_read? {cs rest : Text} {item : Item} (h : read? cs = some (item, rest)) :
    item.chars ≠ [] := by
  simp only [read?] at h
  split at h
  · cases h
  · rename_i hne
    simp only [Option.some.injEq, Prod.mk.injEq] at h
    obtain ⟨rfl, rfl⟩ := h
    intro he
    obtain ⟨hb, hp⟩ := List.append_eq_nil_iff.1 he
    by_cases hr : (Text.cutBlank cs).2 = []
    · have := Text.cutBlank_append cs
      rw [show (Text.cutBlank cs).1 = [] from hb, hr] at this
      simp [← this] at hne
    · exact Piece.chars_read_ne_nil hr hp

theorem length_lt_of_read? {cs rest : Text} {item : Item} (h : read? cs = some (item, rest)) :
    rest.length < cs.length := by
  have hn := List.length_pos_iff.2 (chars_ne_nil_of_read? h)
  have hl := congrArg List.length (chars_of_read? h)
  simp only [List.length_append] at hl
  omega

def readFrom (seen : List Item) (cs : Text) : List Item :=
  match _read : read? cs with
  | none => seen.reverse
  | some (item, rest) => readFrom (item :: seen) rest
termination_by cs.length
decreasing_by exact length_lt_of_read? _read

end Item

def items (cs : Text) : List Item :=
  Item.readFrom [] cs

theorem Item.readFrom_eq (seen : List Item) (cs : Text) :
    readFrom seen cs = seen.reverse ++ items cs := by
  suffices h : ∀ first second : List Item,
      readFrom (first ++ second) cs = second.reverse ++ readFrom first cs by
    simpa [items] using h [] seen
  intro first second
  fun_induction readFrom first cs with
  | case1 first cs h =>
    rw [readFrom]
    split
    · simp
    · rename_i h'
      simp [h] at h'
  | case2 first cs item rest h ih =>
    rw [readFrom]
    split
    · rename_i h'
      simp [h] at h'
    · rename_i item' rest' h'
      rw [h] at h'
      cases h'
      exact ih

theorem items_eq (cs : Text) :
    items cs = match Item.read? cs with
      | none => []
      | some (item, rest) => item :: items rest := by
  rw [items, Item.readFrom]
  split
  · rename_i h
    simp [h]
  · rename_i item rest h
    simp [h, Item.readFrom_eq]

theorem chars_items (cs : Text) : (items cs).flatMap Item.chars = cs := by
  induction h : cs.length using Nat.strongRecOn generalizing cs with
  | _ n ih =>
    rw [items_eq]
    split
    · rename_i hr
      simp only [Item.read?] at hr
      split at hr
      · simp_all
      · cases hr
    · rename_i item rest hr
      simp [ih rest.length (h ▸ Item.length_lt_of_read? hr) rest rfl, Item.chars_of_read? hr]

end TemplateMarkup.Markup
