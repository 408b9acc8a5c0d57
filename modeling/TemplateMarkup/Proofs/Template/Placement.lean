import TemplateMarkup.Proofs.Markup.Reading
import TemplateMarkup.Proofs.Template.Building

/-! The items of a source follow each other without a gap, and in a source of fewer than 2^32 bytes no offset
and no id is too large for a word. -/

namespace TemplateMarkup

open Markup (Item items)

namespace Text

lemma slice?_append {before mid after : Text} {start stop : Nat} (hs : size before = start)
    (ht : start + size mid = stop) : slice? start stop (before ++ (mid ++ after)) = some mid :=
  slice?_eq_some_iff.2 ⟨before, after, rfl, hs, by omega⟩

lemma slice_append {before mid after : Text} {start stop : Nat} (hs : size before = start)
    (ht : start + size mid = stop) : slice start stop (before ++ (mid ++ after)) = mid := by
  rw [slice, slice?_append hs ht]
  rfl

lemma slice_self (offset : Nat) (cs : Text) : slice offset offset cs = [] := by
  rw [slice]
  cases h : slice? offset offset cs with
  | none => rfl
  | some mid =>
    obtain ⟨before, after, -, -, hs⟩ := slice?_eq_some_iff.1 h
    have hmid : size mid = 0 := by omega
    exact size_eq_zero_iff.1 hmid

def after (offset : Nat) (cs : Text) : Text :=
  ((splitAt? offset cs).map Prod.snd).getD []

lemma after_append {before rest : Text} {offset : Nat} (h : size before = offset) :
    after offset (before ++ rest) = rest := by
  rw [after, splitAt?_eq_some_iff.2 ⟨rfl, h⟩]
  rfl

end Text

lemma Markup.Piece.extent_eq_size {piece : Markup.Piece} (h : ¬ ∃ c, piece = .nameless c) :
    piece.extent = Text.size piece.chars := by
  cases piece with
  | nameless c => exact absurd ⟨c, rfl⟩ h
  | _ => rfl

namespace Placed

def start (p : Placed) : Nat :=
  p.pos + Text.size p.item.blank

def stop (p : Placed) : Nat :=
  p.pos + Text.size p.item.chars

def IsIn (p : Placed) (source rest : Text) : Prop :=
  ∃ before cs, source = before ++ cs ∧ Text.size before = p.pos ∧
    Item.read? cs = some (p.item, rest)

structure Precedes (p q : Placed) : Prop where
  start_lt : p.start < q.start
  stop_le : p.stop ≤ q.pos
  id_lt : p.id + p.item.piece.attributeCount < q.id

lemma start_add_size (p : Placed) : p.start + Text.size p.item.piece.chars = p.stop := by
  simp only [start, stop, Item.chars, Text.size_append]
  omega

variable {p : Placed} {source rest : Text}

lemma IsIn.split (h : p.IsIn source rest) : ∃ before, Text.size before = p.pos ∧
    source = before ++ (p.item.blank ++ (p.item.piece.chars ++ rest)) := by
  obtain ⟨before, cs, rfl, hs, hr⟩ := h
  refine ⟨before, hs, ?_⟩
  rw [← Item.chars_of_read? hr, Item.chars, List.append_assoc]

lemma IsIn.size_eq (h : p.IsIn source rest) : p.stop + Text.size rest = Text.size source := by
  obtain ⟨before, hs, rfl⟩ := h.split
  simp only [stop, Item.chars, Text.size_append, ← hs]
  omega

lemma IsIn.slice?_blank (h : p.IsIn source rest) :
    Text.slice? p.pos p.start source = some p.item.blank := by
  obtain ⟨before, hs, rfl⟩ := h.split
  exact Text.slice?_append hs rfl

lemma IsIn.slice_piece (h : p.IsIn source rest) :
    Text.slice p.start p.stop source = p.item.piece.chars := by
  obtain ⟨before, hs, rfl⟩ := h.split
  rw [← List.append_assoc]
  refine Text.slice_append ?_ p.start_add_size
  rw [Text.size_append, hs, start]

end Placed

namespace Builder

variable {cs rest : Text} {item : Item}

lemma placed_of_read? (b : Builder) (h : Item.read? cs = some (item, rest)) :
    b.placed (items cs) =
      ⟨b.nextId, b.offset, b.current.head, item⟩ :: (b.add item).placed (items rest) := by
  rw [Markup.items_of_read? h, placed]

lemma placed_ge (found : List Item) (b : Builder) :
    ∀ p ∈ b.placed found, b.offset ≤ p.pos ∧ b.nextId ≤ p.id := by
  induction found generalizing b with
  | nil => simp [placed]
  | cons item found ih =>
    intro p hp
    rcases List.mem_cons.1 hp with rfl | hp
    · exact ⟨Nat.le_refl _, Nat.le_refl _⟩
    · obtain ⟨ho, hi⟩ := ih (b.add item) p hp
      rw [(add_step b item).offset_eq] at ho
      rw [(add_step b item).nextId_eq] at hi
      exact ⟨by omega, by omega⟩

lemma placed_isIn (cs : Text) : ∀ (b : Builder) (before : Text), Text.size before = b.offset →
    ∀ p ∈ b.placed (items cs), ∃ rest, p.IsIn (before ++ cs) rest := by
  induction cs using Markup.items_induction with
  | nil => simp
  | cons cs item rest hr ih =>
    intro b before hb p hp
    rw [placed_of_read? b hr] at hp
    rcases List.mem_cons.1 hp with rfl | hp
    · exact ⟨rest, before, cs, rfl, hb, hr⟩
    · have hbefore : Text.size (before ++ item.chars) = (b.add item).offset := by
        rw [(add_step b item).offset_eq, Text.size_append, hb]
      have hp := ih (b.add item) (before ++ item.chars) hbefore p hp
      rwa [List.append_assoc, Item.chars_of_read? hr] at hp

lemma placed_pairwise (cs : Text) : ∀ b : Builder,
    (b.placed (items cs)).Pairwise Placed.Precedes := by
  induction cs using Markup.items_induction with
  | nil => simp
  | cons cs item rest hr ih =>
    intro b
    rw [placed_of_read? b hr]
    refine List.Pairwise.cons (fun q hq => ?_) (ih (b.add item))
    have hne : item.piece.chars ≠ [] := by
      refine Item.piece_ne_nil_of_read? hr ?_
      rintro rfl
      simp at hq
    have hsize : Text.size item.piece.chars ≠ 0 := fun h => hne (Text.size_eq_zero_iff.1 h)
    obtain ⟨ho, hi⟩ := placed_ge (items rest) (b.add item) q hq
    rw [(add_step b item).offset_eq] at ho
    rw [(add_step b item).nextId_eq] at hi
    refine ⟨?_, ho, ?_⟩
    · simp only [Item.chars, Text.size_append] at ho
      simp only [Placed.start]
      omega
    · show b.nextId + item.piece.attributeCount < q.id
      omega

lemma placed_id_le (cs : Text) : ∀ b : Builder, b.nextId ≤ b.offset + 1 →
    ∀ p ∈ b.placed (items cs), p.id + p.item.piece.attributeCount ≤ p.stop := by
  induction cs using Markup.items_induction with
  | nil => simp
  | cons cs item rest hr ih =>
    intro b hb p hp
    have hcount := Item.attributeCount_lt_of_read? hr
    rw [placed_of_read? b hr] at hp
    rcases List.mem_cons.1 hp with rfl | hp
    · simp only [Placed.stop]
      omega
    · refine ih (b.add item) ?_ p hp
      rw [(add_step b item).offset_eq, (add_step b item).nextId_eq]
      omega

end Builder

variable {source : Text} {p : Placed}

lemma placed_isIn (h : p ∈ placed source) : ∃ rest, p.IsIn source rest :=
  Builder.placed_isIn source Builder.start [] rfl p h

lemma placed_pairwise (source : Text) : (placed source).Pairwise Placed.Precedes :=
  Builder.placed_pairwise source Builder.start

lemma stop_le_of_mem_placed (h : p ∈ placed source) : p.stop ≤ Text.size source := by
  obtain ⟨rest, hin⟩ := placed_isIn h
  have := hin.size_eq
  omega

lemma id_le_of_mem_placed (h : p ∈ placed source) :
    p.id + p.item.piece.attributeCount ≤ Text.size source :=
  (Builder.placed_id_le source Builder.start (Nat.le_refl 1) p h).trans (stop_le_of_mem_placed h)

namespace Placed

lemma start_add_extent_le (p : Placed) : p.start + p.item.piece.extent ≤ p.stop := by
  have := p.start_add_size
  cases hp : p.item.piece <;> simp [hp, Markup.Piece.extent] at this ⊢ <;> omega

lemma head_id (h : p ∈ placed source) (hs : Text.size source < Word.bound) : p.head.id = p.id := by
  have := id_le_of_mem_placed h
  exact Word.wrap_of_lt (by omega)

lemma head_outerStart (h : p ∈ placed source) (hs : Text.size source < Word.bound) :
    p.head.outerStart = p.pos := by
  have := stop_le_of_mem_placed h
  exact Word.wrap_of_lt (by simp only [stop] at this; omega)

lemma head_span (h : p ∈ placed source) (hs : Text.size source < Word.bound) :
    p.head.span = ⟨p.start, p.start + p.item.piece.extent⟩ := by
  have hstop := stop_le_of_mem_placed h
  have hextent := p.start_add_extent_le
  show Span.ofOffsets p.start (p.start + p.item.piece.extent) = _
  rw [Span.ofOffsets, Word.wrap_of_lt (by omega), Word.wrap_of_lt (by omega)]

end Placed

end TemplateMarkup
