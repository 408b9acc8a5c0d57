import TemplateMarkup.Markup.Fault
import TemplateMarkup.Proofs.Markup.Locality

/-! A piece that shows its own end is read as before when more text follows. Only a text, and a comment that is
not closed, would take some of it. -/

namespace TemplateMarkup

namespace Text

variable {mark cs : Text}

lemma cutBlank_append_more (more : Text) (h : (cutBlank cs).2 ≠ []) :
    cutBlank (cs ++ more) = ((cutBlank cs).1, (cutBlank cs).2 ++ more) := by
  have hback := cutBlank_append cs
  generalize hcut : cutBlank cs = cut at h hback ⊢
  obtain ⟨blank, rest⟩ := cut
  have hagain := @cutBlank_local cs blank rest (rest ++ more) hcut (List.head?_append_of_ne_nil _ h)
  rw [← hback, List.append_assoc, hagain]

lemma Enclosed.read_append_more (more : Text) (h : (Enclosed.read mark cs).1.closed) :
    Enclosed.read mark (cs ++ more) =
      ((Enclosed.read mark cs).1, (Enclosed.read mark cs).2 ++ more) := by
  have hread := @read_local mark cs ((Enclosed.read mark cs).2 ++ more) (Or.inl h)
  rwa [← List.append_assoc, chars_append] at hread

end Text

namespace Markup

open Text (cutBlank)

namespace WrittenValue

def IsWhole (value : WrittenValue) : Prop :=
  value.text?.isSome

end WrittenValue

namespace WrittenAttribute

variable {cs rest : Text} {a : WrittenAttribute}

def IsWhole (a : WrittenAttribute) : Prop :=
  ∀ blank value, a.assignment = some ⟨blank, value⟩ → value.IsWhole

lemma isWhole_of_fault?_eq_none {pos : Nat} (h : a.fault? pos = none) : a.IsWhole := by
  intro blank value ha
  rw [fault?, ha] at h
  cases value with
  | missing => cases h
  | quoted quote run =>
    cases hc : run.closed with
    | false => simp [WrittenValue.isCutOff, hc] at h
    | true => simp [WrittenValue.IsWhole, WrittenValue.text?, hc]
  | bare text ended =>
    cases ended with
    | false => simp [WrittenValue.isCutOff] at h
    | true => rfl

lemma isWhole_of_faults_eq_nil {as : List WrittenAttribute} {pos : Nat} (h : faults pos as = []) :
    ∀ a ∈ as, a.IsWhole := by
  induction as generalizing pos with
  | nil => simp
  | cons a as ih =>
    obtain ⟨ha, has⟩ := List.append_eq_nil_iff.1 h
    intro b hb
    rcases List.mem_cons.1 hb with rfl | hb
    · exact isWhole_of_fault?_eq_none (Option.toList_eq_nil_iff.1 ha)
    · exact ih has b hb

end WrittenAttribute

namespace WrittenTag

structure IsWhole (tag : WrittenTag) : Prop where
  attributes_whole : ∀ a ∈ tag.attributes, a.IsWhole
  ending_ne_missing : tag.ending ≠ .missing

lemma read_append_more {first : Char} {cs : Text} (more : Text) (h : (read first cs).1.IsWhole) :
    read first (cs ++ more) = ((read first cs).1, (read first cs).2 ++ more) := by
  have hback := chars_append first cs
  generalize hread : read first cs = out at h hback ⊢
  obtain ⟨tag, rest⟩ := out
  obtain ⟨tail, hchars, hagain⟩ := read_local hread h.ending_ne_missing (rest ++ more)
  rw [hchars, List.cons_append, List.cons.injEq] at hback
  rw [← hback.2, List.append_assoc, hagain]

end WrittenTag

namespace Piece

def IsWhole : Piece → Prop
  | comment run => run.closed
  | endTag run => run.closed
  | interpolation run => run.closed
  | text _ => False
  | nameless _ => False
  | tag written => written.IsWhole

def IsOpenEnded : Piece → Prop
  | comment run => run.closed = false
  | text _ => True
  | _ => False

lemma isWhole_of_faults_eq_nil {piece : Piece} {start : Nat} (h : piece.faults start = [])
    (hend : ¬ piece.IsOpenEnded) : piece.IsWhole := by
  cases piece with
  | comment run => simpa [IsOpenEnded, IsWhole] using hend
  | endTag run =>
    by_contra hc
    simp [faults, show run.closed = false by simpa [IsWhole] using hc] at h
  | interpolation run =>
    by_contra hc
    simp [faults, show run.closed = false by simpa [IsWhole] using hc] at h
  | text cs => exact hend trivial
  | nameless c => cases h
  | tag written =>
    obtain ⟨has, hending⟩ := List.append_eq_nil_iff.1 h
    refine ⟨WrittenAttribute.isWhole_of_faults_eq_nil has, fun hmissing => ?_⟩
    rw [hmissing] at hending
    cases hending

lemma endsText_append_more {c : Char} {cs : Text} (more : Text) (h : cs ≠ []) :
    endsText (c :: (cs ++ more)) = endsText (c :: cs) := by
  obtain ⟨d, ds, rfl⟩ := List.exists_cons_of_ne_nil h
  rw [Bool.eq_iff_iff, endsText_iff, endsText_iff]
  simp

lemma cutBefore_endsText_append_more {cs : Text} (more : Text)
    (h : (Text.cutBefore endsText cs).2 ≠ []) : Text.cutBefore endsText (cs ++ more) =
      ((Text.cutBefore endsText cs).1, (Text.cutBefore endsText cs).2 ++ more) := by
  induction cs with
  | nil => exact absurd rfl h
  | cons c cs ih =>
    rw [List.cons_append]
    rw [Text.cutBefore_cons] at h ⊢
    rw [Text.cutBefore_cons]
    by_cases hc : endsText (c :: cs)
    · have hmore : endsText (c :: (cs ++ more)) := endsText_append hc more
      rw [if_pos hc, if_pos hmore]
      rfl
    · rw [if_neg hc] at h ⊢
      have hne : cs ≠ [] := by
        rintro rfl
        exact h rfl
      rw [endsText_append_more more hne, if_neg hc, ih h]

lemma read_append_more {cs : Text} (more : Text)
    (h : (read cs).1.IsWhole ∨ (read cs).1.IsOpenEnded ∧ (read cs).2 ≠ []) :
    read (cs ++ more) = ((read cs).1, (read cs).2 ++ more) := by
  have hr := reads cs
  generalize read cs = out at hr h ⊢
  cases hr with
  | comment rest =>
    have hclosed : (Text.Enclosed.read ['-', '-', '>'] rest).1.closed := by
      rcases h with h | ⟨h, hne⟩
      · exact h
      · exact absurd (Text.Enclosed.read_of_not_closed h).2 hne
    show read ('<' :: '!' :: '-' :: '-' :: (rest ++ more)) = _
    rw [read, Text.Enclosed.read_append_more more hclosed]
  | endTag rest =>
    have hclosed := h.resolve_right fun h => h.1
    show read ('<' :: '/' :: (rest ++ more)) = _
    rw [read, Text.Enclosed.read_append_more more hclosed]
  | bracket => exact (h.elim id And.left).elim
  | nameless rest hn hs hc => exact (h.elim id And.left).elim
  | tag rest hc =>
    have hwhole := h.resolve_right fun h => h.1
    rw [List.cons_append, List.cons_append, read_of_isNameStart _ hc,
      WrittenTag.read_append_more more hwhole]
  | interpolation rest =>
    have hclosed := h.resolve_right fun h => h.1
    show read ('{' :: '{' :: (rest ++ more)) = _
    rw [read, Text.Enclosed.read_append_more more hclosed]
  | text rest he =>
    have hrest := (h.resolve_left id).2
    have hne : rest ≠ [] := by
      rintro rfl
      exact hrest rfl
    rw [← endsText_append_more more hne] at he
    rw [List.cons_append, read_of_endsText he, cutBefore_endsText_append_more more hrest]
  | nothing => exact absurd rfl (h.resolve_left id).2

end Piece

lemma Item.read?_append_more {cs rest : Text} {item : Item} (more : Text)
    (h : Item.read? cs = some (item, rest))
    (hw : item.piece.IsWhole ∨ item.piece.IsOpenEnded ∧ rest ≠ []) :
    Item.read? (cs ++ more) = some (item, rest ++ more) := by
  obtain ⟨hne, hblank, hpiece⟩ := Item.read?_eq_some_iff.1 h
  have hfront : (cutBlank cs).2 ≠ [] := by
    intro hnil
    rw [hnil] at hpiece
    obtain ⟨hp, rfl⟩ := Prod.mk.inj hpiece
    rw [← hp] at hw
    exact (hw.resolve_left id).2 rfl
  have hread := @Piece.read_append_more (cutBlank cs).2 more (by rwa [hpiece])
  refine Item.read?_eq_some_iff.2 ⟨by simp [hne], ?_, ?_⟩
  · rw [Text.cutBlank_append_more more hfront, hblank]
  · rw [Text.cutBlank_append_more more hfront, hread, hpiece]

lemma items_append {cs : Text} (more : Text)
    (hfaults : ∀ item ∈ items cs, ∃ start, item.piece.faults start = [])
    (hlast : ∀ item, (items cs).getLast? = some item → ¬ item.piece.IsOpenEnded) :
    items (cs ++ more) = items cs ++ items more := by
  induction cs using items_induction with
  | nil => rw [List.nil_append, items_nil, List.nil_append]
  | cons cs item rest hr ih =>
    rw [items_of_read? hr] at hfaults hlast ⊢
    have hw : item.piece.IsWhole ∨ item.piece.IsOpenEnded ∧ rest ≠ [] := by
      by_cases hopen : item.piece.IsOpenEnded
      · right
        refine ⟨hopen, ?_⟩
        rintro rfl
        exact hlast item (by rw [items_nil]; rfl) hopen
      · obtain ⟨start, hf⟩ := hfaults item (List.mem_cons_self ..)
        exact Or.inl (Piece.isWhole_of_faults_eq_nil hf hopen)
    have hrest := ih (fun i hi => hfaults i (List.mem_cons_of_mem item hi)) (fun i hi => by
      apply hlast i
      rw [List.getLast?_cons, hi]
      rfl)
    rw [items_of_read? (Item.read?_append_more more hr hw), hrest, List.cons_append]

end Markup

end TemplateMarkup
