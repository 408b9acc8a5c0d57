import Mathlib.Data.List.TakeWhile
import TemplateMarkup.Proofs.Text.Cut
import TemplateMarkup.Template.Placement

namespace TemplateMarkup

lemma Text.isBlank_of_mem_cutBlank {cs : Text} {c : Char} (h : c ∈ (Text.cutBlank cs).1) :
    Text.isBlank c :=
  List.mem_takeWhile_imp h

namespace Markup

open Text (cutBlank isBlank)

namespace WrittenAttribute

variable {cs rest : Text} {a : WrittenAttribute}

lemma gap_blank_of_read? (h : read? cs = some (a, rest)) : ∀ c ∈ a.gap, isBlank c := by
  simp only [read?] at h
  split at h
  · cases h
  · split at h <;>
    · simp only [Option.some.injEq, Prod.mk.injEq] at h
      obtain ⟨rfl, rfl⟩ := h
      exact fun c hc => Text.isBlank_of_mem_cutBlank hc

lemma readAll_of_read?_none (h : read? cs = none) : readAll cs = ([], cs) := by
  rw [readAll_eq, h]

lemma readAll_of_read? (h : read? cs = some (a, rest)) :
    readAll cs = (a :: (readAll rest).1, (readAll rest).2) := by
  rw [readAll_eq, h]

lemma readAll_induction {motive : Text → Prop} (none : ∀ cs, read? cs = none → motive cs)
    (some : ∀ cs a rest, read? cs = some (a, rest) → motive rest → motive cs) (cs : Text) :
    motive cs := by
  induction hl : cs.length using Nat.strongRecOn generalizing cs with
  | _ n ih =>
    cases hr : read? cs with
    | none => exact none cs hr
    | some read =>
      obtain ⟨a, rest⟩ := read
      exact some cs a rest hr (ih rest.length (hl ▸ length_lt_of_read? hr) rest rfl)

lemma exists_read?_of_mem_readAll (h : a ∈ (readAll cs).1) :
    ∃ ds after, read? ds = some (a, after) := by
  induction cs using readAll_induction with
  | none cs hr =>
    rw [readAll_of_read?_none hr] at h
    cases h
  | some cs b rest hr ih =>
    rw [readAll_of_read? hr] at h
    rcases List.mem_cons.1 h with rfl | hrest
    · exact ⟨cs, rest, hr⟩
    · exact ih hrest

lemma length_le_of_names {as : List WrittenAttribute} (h : ∀ a ∈ as, a.name ≠ []) :
    as.length ≤ (as.flatMap chars).length := by
  induction as with
  | nil => exact Nat.le_refl 0
  | cons a as ih =>
    have ha := List.length_pos_iff.2 (h a (List.mem_cons_self ..))
    have has := ih fun b hb => h b (List.mem_cons_of_mem a hb)
    simp only [List.flatMap_cons, List.length_append, List.length_cons, chars]
    omega

end WrittenAttribute

namespace WrittenTag

variable {first : Char} {cs : Text}

lemma read_name (first : Char) (cs : Text) :
    (read first cs).1.name = first :: cs.takeWhile isNameChar := rfl

lemma gap_blank (first : Char) (cs : Text) : ∀ c ∈ (read first cs).1.gap, isBlank c :=
  fun _ hc => Text.isBlank_of_mem_cutBlank hc

lemma exists_read?_of_mem {a : WrittenAttribute} (h : a ∈ (read first cs).1.attributes) :
    ∃ ds after, WrittenAttribute.read? ds = some (a, after) :=
  WrittenAttribute.exists_read?_of_mem_readAll h

lemma length_attributes_le (first : Char) (cs : Text) :
    (read first cs).1.attributes.length ≤ (read first cs).1.chars.length := by
  have h : (read first cs).1.attributes.length ≤
      ((read first cs).1.attributes.flatMap WrittenAttribute.chars).length := by
    refine WrittenAttribute.length_le_of_names fun a ha => ?_
    obtain ⟨ds, after, hr⟩ := exists_read?_of_mem ha
    exact WrittenAttribute.name_ne_nil_of_read? hr
  simp only [chars, List.length_append]
  omega

end WrittenTag

namespace Piece

lemma endsText_iff {cs : Text} :
    endsText cs ↔ (∃ rest, cs = '<' :: rest) ∨ ∃ rest, cs = '{' :: '{' :: rest := by
  fun_cases endsText cs with
  | case1 rest => simp
  | case2 rest => simp
  | case3 cs hbracket hbraces =>
    refine iff_of_false (by simp) ?_
    rintro (⟨rest, h⟩ | ⟨rest, h⟩)
    · exact hbracket rest h
    · exact hbraces rest h

inductive Reads : Text → Piece × Text → Prop
  | comment (rest : Text) : Reads ('<' :: '!' :: '-' :: '-' :: rest)
      (.comment (Text.Enclosed.read ['-', '-', '>'] rest).1,
        (Text.Enclosed.read ['-', '-', '>'] rest).2)
  | endTag (rest : Text) : Reads ('<' :: '/' :: rest)
      (.endTag (Text.Enclosed.read ['>'] rest).1, (Text.Enclosed.read ['>'] rest).2)
  | bracket : Reads ['<'] (.nameless none, [])
  | nameless {c : Char} (rest : Text) : isNameStart c = false → c ≠ '/' →
      ¬ ['!', '-', '-'] <+: c :: rest → Reads ('<' :: c :: rest) (.nameless (some c), rest)
  | tag {c : Char} (rest : Text) : isNameStart c → Reads ('<' :: c :: rest)
      (.tag (WrittenTag.read c rest).1, (WrittenTag.read c rest).2)
  | interpolation (rest : Text) : Reads ('{' :: '{' :: rest)
      (.interpolation (Text.Enclosed.read ['}', '}'] rest).1,
        (Text.Enclosed.read ['}', '}'] rest).2)
  | text {c : Char} (rest : Text) : endsText (c :: rest) = false → Reads (c :: rest)
      (.text (c :: (Text.cutBefore endsText rest).1), (Text.cutBefore endsText rest).2)
  | nothing : Reads [] (.text [], [])

lemma reads_readTag {cs : Text} (hcomment : ¬ ['!', '-', '-'] <+: cs) (hslash : cs.head? ≠ some '/') :
    Reads ('<' :: cs) (readTag cs) := by
  cases cs with
  | nil => exact .bracket
  | cons c rest =>
    rw [readTag]
    by_cases hc : isNameStart c
    · rw [if_pos hc]
      exact .tag rest hc
    · rw [if_neg hc]
      refine .nameless rest (Bool.eq_false_iff.2 hc) ?_ hcomment
      rintro rfl
      exact hslash rfl

lemma reads (cs : Text) : Reads cs (read cs) := by
  rw [read.eq_def]
  split
  · exact .comment _
  · exact .endTag _
  · rename_i rest hcomment hslash
    refine reads_readTag ?_ ?_
    · rintro ⟨after, h⟩
      exact hcomment after h.symm
    · intro h
      obtain ⟨after, rfl⟩ := List.head?_eq_some_iff.1 h
      exact hslash after rfl
  · exact .interpolation _
  · rename_i c rest _ _ hbracket hbraces
    refine .text rest (Bool.eq_false_iff.2 fun h => ?_)
    rcases endsText_iff.1 h with ⟨_, h⟩ | ⟨_, h⟩
    · exact hbracket (List.cons.inj h).1
    · exact hbraces _ (List.cons.inj h).1 (List.cons.inj h).2
  · exact .nothing

lemma read_of_isNameStart {c : Char} (rest : Text) (hc : isNameStart c) :
    read ('<' :: c :: rest) = (.tag (WrittenTag.read c rest).1, (WrittenTag.read c rest).2) := by
  have hr := reads ('<' :: c :: rest)
  generalize read ('<' :: c :: rest) = out at hr ⊢
  cases hr with
  | comment rest => exact absurd hc (by decide)
  | endTag rest => exact absurd hc (by decide)
  | nameless rest hn => exact absurd (hn.symm.trans hc) (by decide)
  | tag rest hn => rfl
  | text rest he => cases he

lemma read_of_endsText {c : Char} {rest : Text} (h : endsText (c :: rest) = false) :
    read (c :: rest) =
      (.text (c :: (Text.cutBefore endsText rest).1), (Text.cutBefore endsText rest).2) := by
  have hr := reads (c :: rest)
  generalize hcs : c :: rest = cs at hr
  generalize read cs = out at hr ⊢
  cases hr with
  | text rest he =>
    obtain ⟨rfl, rfl⟩ := List.cons.inj hcs
    rfl
  | nothing => cases hcs
  | _ =>
    rw [hcs] at h
    cases h

lemma attributeCount_lt {cs : Text} (h : cs ≠ []) :
    (read cs).1.attributeCount < (read cs).1.chars.length := by
  have hlen := List.length_pos_iff.2 (chars_read_ne_nil h)
  have hr := reads cs
  generalize read cs = out at hr hlen ⊢
  cases hr with
  | tag rest hc =>
    simp only [attributeCount, chars, List.length_cons]
    exact Nat.lt_succ_of_le (WrittenTag.length_attributes_le _ _)
  | _ => exact hlen

end Piece

namespace Item

variable {cs rest : Text} {item : Item}

lemma read?_eq_some_iff : read? cs = some (item, rest) ↔ cs ≠ [] ∧
    item.blank = (cutBlank cs).1 ∧ Piece.read (cutBlank cs).2 = (item.piece, rest) := by
  rw [read?]
  cases cs with
  | nil => simp
  | cons c cs =>
    obtain ⟨blank, piece⟩ := item
    simp only [List.isEmpty_cons, Bool.false_eq_true, if_false, Option.some.injEq,
      Item.mk.injEq, ne_eq, reduceCtorEq, not_false_iff, true_and, Prod.ext_iff, and_assoc]
    constructor
    · rintro ⟨rfl, h⟩
      exact ⟨rfl, h⟩
    · rintro ⟨rfl, h⟩
      exact ⟨rfl, h⟩

lemma read?_eq_none_iff : read? cs = none ↔ cs = [] := by
  cases cs <;> simp [read?]

lemma blank_of_read? (h : read? cs = some (item, rest)) : ∀ c ∈ item.blank, isBlank c := by
  obtain ⟨-, hb, -⟩ := read?_eq_some_iff.1 h
  rw [hb]
  exact fun c hc => Text.isBlank_of_mem_cutBlank hc

lemma piece_head_not_blank (h : read? cs = some (item, rest)) :
    ∀ c ∈ item.piece.chars.head?, isBlank c = false := by
  intro c hc
  obtain ⟨-, -, hp⟩ := read?_eq_some_iff.1 h
  have hfront := Piece.chars_append (cutBlank cs).2
  rw [hp] at hfront
  have hstop := List.head?_dropWhile_not isBlank cs
  rw [show cs.dropWhile isBlank = item.piece.chars ++ rest from hfront.symm, List.head?_append,
    Option.mem_def.1 hc] at hstop
  simpa using hstop

lemma reads_of_read? (h : read? cs = some (item, rest)) :
    Piece.Reads (item.piece.chars ++ rest) (item.piece, rest) := by
  obtain ⟨-, -, hp⟩ := read?_eq_some_iff.1 h
  have hc := Piece.chars_append (cutBlank cs).2
  rw [hp] at hc
  rw [hc, ← hp]
  exact Piece.reads _

lemma piece_ne_nil_of_read? (h : read? cs = some (item, rest)) (hr : rest ≠ []) :
    item.piece.chars ≠ [] := by
  intro he
  have hread := reads_of_read? h
  rw [he, List.nil_append] at hread
  cases hp : item.piece with
  | text t =>
    obtain rfl : t = [] := by simpa [Piece.chars, hp] using he
    rw [hp] at hread
    cases hread
    exact hr rfl
  | _ => simp [Piece.chars, hp] at he

lemma attributeCount_lt_of_read? (h : read? cs = some (item, rest)) :
    item.piece.attributeCount < Text.size item.chars := by
  have hl := Text.length_le_size item.chars
  obtain ⟨hne, hb, hp⟩ := read?_eq_some_iff.1 h
  by_cases hc : (cutBlank cs).2 = []
  · rw [hc] at hp
    have hz : item.piece.attributeCount = 0 := by
      rw [show item.piece = .text [] from (Prod.mk.inj hp).1.symm]
      rfl
    have := List.length_pos_iff.2 (chars_ne_nil_of_read? h)
    omega
  · have hpiece := Piece.attributeCount_lt hc
    simp only [hp] at hpiece
    simp only [chars, List.length_append] at hl ⊢
    omega

end Item

lemma items_induction {motive : Text → Prop} (nil : motive [])
    (cons : ∀ cs item rest, Item.read? cs = some (item, rest) → motive rest → motive cs)
    (cs : Text) : motive cs := by
  induction hl : cs.length using Nat.strongRecOn generalizing cs with
  | _ n ih =>
    cases hr : Item.read? cs with
    | none => exact Item.read?_eq_none_iff.1 hr ▸ nil
    | some read =>
      obtain ⟨item, rest⟩ := read
      exact cons cs item rest hr (ih rest.length (hl ▸ Item.length_lt_of_read? hr) rest rfl)

@[simp] lemma items_nil : items [] = [] := by
  rw [items_eq]
  rfl

lemma items_of_read? {cs rest : Text} {item : Item} (h : Item.read? cs = some (item, rest)) :
    items cs = item :: items rest := by
  rw [items_eq, h]

end Markup

end TemplateMarkup
