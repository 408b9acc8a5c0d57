import TemplateMarkup.Proofs.Template.Placement

namespace TemplateMarkup

open Markup (Item Piece)

structure Head.IsOf (source : Text) (piece : Piece) (h : Head) : Prop where
  kind : ∃ id start, h.kind = piece.kind id start
  slice : h.span.slice source = piece.chars

namespace Builder

def moved (b : Builder) (offset nextId : Nat) : Builder :=
  { b with offset := offset, nextId := nextId }

def appendAll (b : Builder) (ns : List Node) : Builder :=
  ns.foldl append b

lemma append_moved (b : Builder) (offset nextId : Nat) (n : Node) :
    (b.moved offset nextId).append n = (b.append n).moved offset nextId := by
  cases h : b.opened with
  | nil => rw [append_of_nil h, append_of_nil (show (b.moved offset nextId).opened = [] from h)]; rfl
  | cons f rest =>
    rw [append_of_cons h, append_of_cons (show (b.moved offset nextId).opened = f :: rest from h)]
    rfl

lemma appendAll_moved (b : Builder) (offset nextId : Nat) (ns : List Node) :
    (b.moved offset nextId).appendAll ns = (b.appendAll ns).moved offset nextId := by
  induction ns generalizing b with
  | nil => rfl
  | cons n ns ih => rw [appendAll, List.foldl_cons, append_moved, ← appendAll, ih]; rfl

lemma appendAll_of_nil {b : Builder} (h : b.opened = []) (ns : List Node) :
    b.appendAll ns = { b with root := b.root.addAll ns.reverse } := by
  induction ns generalizing b with
  | nil => rfl
  | cons n ns ih =>
    have hrest := ih (b := { b with root := b.root.add n }) h
    rw [appendAll, List.foldl_cons, append_of_nil h]
    exact hrest.trans (by simp [Frame.addAll, Frame.add])

lemma appendAll_of_cons {b : Builder} {f : Frame} {rest : List Frame} (h : b.opened = f :: rest)
    (ns : List Node) : b.appendAll ns = { b with opened := f.addAll ns.reverse :: rest } := by
  induction ns generalizing b f with
  | nil =>
    rw [show f.addAll [].reverse = f from rfl, ← h]
    rfl
  | cons n ns ih =>
    have hrest := ih (b := { b with opened := f.add n :: rest }) rfl
    rw [appendAll, List.foldl_cons, append_of_cons h]
    exact hrest.trans (by simp [Frame.addAll, Frame.add])

variable {b : Builder} {piece : Piece}

lemma pass_of_no_faults (item : Item) (h : item.faults b.offset = []) : b.pass item =
    b.moved (b.offset + Text.size item.chars) (b.nextId + 1 + item.piece.attributeCount) := by
  rw [pass, h]
  rfl

lemma nextHead_isOf {source before after : Text} (hs : Text.size source < Word.bound)
    (hsource : source = before ++ (piece.chars ++ after)) (hb : Text.size before = b.offset)
    (hn : piece.extent = Text.size piece.chars) :
    (b.nextHead ⟨[], piece⟩).IsOf source piece := by
  refine ⟨⟨b.nextId, b.offset, rfl⟩, ?_⟩
  have hspan : (b.nextHead ⟨[], piece⟩).span =
      Span.ofOffsets b.offset (b.offset + piece.extent) := rfl
  have hstop : b.offset + Text.size piece.chars ≤ Text.size source := by
    simp only [hsource, Text.size_append]
    omega
  rw [hspan, hn, Span.ofOffsets, Word.wrap_of_lt (by omega), Word.wrap_of_lt (by omega), hsource]
  exact Text.slice_append hb rfl

lemma add_leaf (hs : ∀ name attributes, (b.nextHead ⟨[], piece⟩).kind ≠ .startTag name attributes)
    (he : ∀ name, (b.nextHead ⟨[], piece⟩).kind ≠ .endTag name)
    (hf : piece.faults b.offset = []) :
    b.add ⟨[], piece⟩ = (b.append ⟨b.nextHead ⟨[], piece⟩, []⟩).moved
      (b.offset + Text.size piece.chars) (b.nextId + 1 + piece.attributeCount) := by
  rw [add_of_leaf hs he, pass_of_no_faults ⟨[], piece⟩ hf, append_moved]
  rfl

lemma add_opening {name : Text} {attributes : List Attribute}
    (hk : (b.nextHead ⟨[], piece⟩).kind = .startTag name attributes)
    (hf : piece.faults b.offset = []) :
    b.add ⟨[], piece⟩ = (b.moved (b.offset + Text.size piece.chars)
      (b.nextId + 1 + piece.attributeCount)).push (b.nextHead ⟨[], piece⟩) := by
  rw [add_of_startTag hk, pass_of_no_faults ⟨[], piece⟩ hf]
  rfl

lemma add_closing {f : Frame} {rest : List Frame} {name : Text} {attributes : List Attribute}
    (ho : b.opened = f :: rest) (hf : f.head.kind = .startTag name attributes) :
    b.add ⟨[], .endTag ⟨name, true⟩⟩ =
      ({ b with opened := rest }.append
        (f.add ⟨b.nextHead ⟨[], .endTag ⟨name, true⟩⟩, []⟩).node).moved
          (b.offset + Text.size (Piece.endTag ⟨name, true⟩).chars) (b.nextId + 1) := by
  have hname : b.current.name = name := by
    simp [current, ho, Frame.name, hf, NodeKind.name?]
  have hk : (b.nextHead ⟨[], .endTag ⟨name, true⟩⟩).kind = .endTag (some name) := rfl
  have hpop := append_pop_of_cons (b := b.pass ⟨[], .endTag ⟨name, true⟩⟩) ho
  rw [add_of_endTag hk, close, append_current_name, pass_current, hname, if_pos rfl, hpop]
  exact append_moved { b with opened := rest } _ _ _

/-- Wherever `chars` stands in the source, its items add nodes that are `good` to the innermost open tag, and
do nothing else. -/
def Adds (source chars : Text) (found : List Item) (good : List Node → Prop) : Prop :=
  ∀ (b : Builder) (before after : Text), source = before ++ (chars ++ after) →
    Text.size before = b.offset → ∃ ns id, good ns ∧
      found.foldl add b = (b.appendAll ns).moved (b.offset + Text.size chars) id

namespace Adds

variable {source chars more : Text} {found next : List Item} {good fine : List Node → Prop}

lemma nil (h : good []) : Adds source [] [] good :=
  fun b _ _ _ _ => ⟨[], b.nextId, h, rfl⟩

lemma imp (h : Adds source chars found good) (hgood : ∀ ns, good ns → fine ns) :
    Adds source chars found fine := by
  intro b before after hsource hb
  obtain ⟨ns, id, hns, hfold⟩ := h b before after hsource hb
  exact ⟨ns, id, hgood ns hns, hfold⟩

lemma append (h : Adds source chars found good) (hmore : Adds source more next fine) :
    Adds source (chars ++ more) (found ++ next)
      fun ns => ∃ front back, ns = front ++ back ∧ good front ∧ fine back := by
  intro b before after hsource hb
  rw [List.append_assoc] at hsource
  obtain ⟨front, id, hfront, hfold⟩ := h b before (more ++ after) hsource hb
  rw [← List.append_assoc] at hsource
  have hsize : Text.size (before ++ chars) = b.offset + Text.size chars := by
    rw [Text.size_append, hb]
  obtain ⟨back, id', hback, hrest⟩ := hmore ((b.appendAll front).moved (b.offset + Text.size chars) id)
    (before ++ chars) after hsource hsize
  refine ⟨front ++ back, id', ⟨front, back, rfl, hfront, hback⟩, ?_⟩
  rw [List.foldl_append, hfold, hrest, appendAll_moved, appendAll, appendAll, appendAll,
    List.foldl_append, Text.size_append, ← Nat.add_assoc]
  rfl

lemma leaf (hs : Text.size source < Word.bound) (hn : piece.extent = Text.size piece.chars)
    (hstart : ∀ id start name attributes, piece.kind id start ≠ .startTag name attributes)
    (hend : ∀ id start name, piece.kind id start ≠ .endTag name)
    (hfaults : ∀ start, piece.faults start = []) :
    Adds source piece.chars [⟨[], piece⟩]
      fun ns => ∃ head : Head, head.IsOf source piece ∧ ns = [⟨head, []⟩] := by
  intro b before after hsource hb
  refine ⟨[⟨b.nextHead ⟨[], piece⟩, []⟩], b.nextId + 1 + piece.attributeCount,
    ⟨_, nextHead_isOf hs hsource hb hn, rfl⟩, ?_⟩
  exact add_leaf (hstart _ _) (hend _ _) (hfaults _)

lemma enclose {name : Text} (hs : Text.size source < Word.bound)
    (hn : piece.extent = Text.size piece.chars)
    (hstart : ∀ id start, ∃ attributes, piece.kind id start = .startTag name attributes)
    (hfaults : ∀ start, piece.faults start = []) (h : Adds source chars found good) :
    Adds source (piece.chars ++ (chars ++ (Piece.endTag ⟨name, true⟩).chars))
      (⟨[], piece⟩ :: (found ++ [⟨[], .endTag ⟨name, true⟩⟩]))
      fun ns => ∃ (head last : Head) (inner : List Node), head.IsOf source piece ∧
        last.IsOf source (.endTag ⟨name, true⟩) ∧ good inner ∧
          ns = [⟨head, inner ++ [⟨last, []⟩]⟩] := by
  intro b before after hsource hb
  let head := b.nextHead ⟨[], piece⟩
  obtain ⟨attributes, hk⟩ := hstart b.nextId b.offset
  have hopen : b.add ⟨[], piece⟩ = (b.moved _ _).push head := add_opening hk (hfaults _)
  rw [List.append_assoc, List.append_assoc] at hsource
  -- The content is read with the tag open, and nothing below the tag changes meanwhile.
  let b₁ := (b.moved (b.offset + Text.size piece.chars) (b.nextId + 1 + piece.attributeCount)).push
    head
  have hopened₁ : b₁.opened = ⟨head, []⟩ :: b.opened := rfl
  obtain ⟨inner, id, hinner, hfold⟩ := h b₁ (before ++ piece.chars) _
    (by rw [hsource, List.append_assoc]) (by rw [Text.size_append, hb]; rfl)
  rw [appendAll_of_cons hopened₁] at hfold
  let b₂ := ({ b₁ with opened := Frame.addAll ⟨head, []⟩ inner.reverse :: b.opened } : Builder).moved
    (b₁.offset + Text.size chars) id
  have hopened₂ : b₂.opened = Frame.addAll ⟨head, []⟩ inner.reverse :: b.opened := rfl
  let last := b₂.nextHead ⟨[], .endTag ⟨name, true⟩⟩
  have hlast : last.IsOf source (.endTag ⟨name, true⟩) := by
    refine @nextHead_isOf b₂ _ source (before ++ piece.chars ++ chars) after hs ?_ ?_ rfl
    · simp only [hsource, List.append_assoc]
    · rw [Text.size_append, Text.size_append, hb]
      rfl
  have hclose := add_closing hopened₂ hk
  have hnode : ((Frame.addAll ⟨head, []⟩ inner.reverse).add ⟨last, []⟩).node =
      ⟨head, inner ++ [⟨last, []⟩]⟩ := by
    simp [Frame.addAll, Frame.add, Frame.node]
  have hbelow : ({ b₂ with opened := b.opened } : Builder) = b.moved b₂.offset id := rfl
  refine ⟨_, id + 1, ⟨head, last, inner, nextHead_isOf hs hsource hb hn, hlast, hinner, rfl⟩, ?_⟩
  calc (⟨[], piece⟩ :: (found ++ [⟨[], .endTag ⟨name, true⟩⟩])).foldl add b
      = b₂.add ⟨[], .endTag ⟨name, true⟩⟩ := by
        rw [List.foldl_cons, hopen, List.foldl_append, hfold]
        rfl
    _ = ((b.append ⟨head, inner ++ [⟨last, []⟩]⟩).moved b₂.offset id).moved
          (b₂.offset + Text.size (Piece.endTag ⟨name, true⟩).chars) (id + 1) := by
        rw [hclose, hnode, hbelow, append_moved]
        rfl
    _ = _ := by
        rw [Text.size_append, Text.size_append, ← Nat.add_assoc, ← Nat.add_assoc]
        rfl

end Adds

end Builder

end TemplateMarkup
