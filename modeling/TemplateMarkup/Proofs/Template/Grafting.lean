import TemplateMarkup.Proofs.Template.Shift

/-! Building a tree behind one that is finished: the open tags and their content are moved, and the root has the
nodes of the finished tree in front of its own. -/

namespace TemplateMarkup

open Markup (Item)

def Shift.frame (d : Shift) (f : Frame) : Frame :=
  ⟨d.head f.head, f.children.map d.node⟩

lemma Shift.frame_node (d : Shift) (f : Frame) : (d.frame f).node = d.node f.node := by
  rw [node_eq, frame, Frame.node, Frame.node, List.map_reverse]

lemma Shift.frame_add (d : Shift) (f : Frame) (n : Node) :
    (d.frame f).add (d.node n) = d.frame (f.add n) := rfl

namespace Builder

def graft (front : List Node) (d : Shift) (b : Builder) : Builder :=
  { offset := b.offset + d.bytes
    nextId := b.nextId + d.ids
    opened := b.opened.map d.frame
    root := ⟨b.root.head, b.root.children.map d.node ++ front⟩
    faults := b.faults.map d.fault }

variable {front : List Node} {d : Shift} {b : Builder} {item : Item}

lemma graft_append (n : Node) : (b.graft front d).append (d.node n) = (b.append n).graft front d := by
  cases ho : b.opened with
  | nil =>
    have hg : (b.graft front d).opened = [] := by rw [graft, ho]; rfl
    rw [append_of_nil ho, append_of_nil hg]
    rfl
  | cons f rest =>
    have hg : (b.graft front d).opened = d.frame f :: rest.map d.frame := by rw [graft, ho]; rfl
    rw [append_of_cons ho, append_of_cons hg, d.frame_add]
    rfl

lemma graft_pop : (b.graft front d).pop = b.pop.graft front d := by
  cases ho : b.opened with
  | nil => simp only [pop, graft, ho, List.map_nil]
  | cons f rest =>
    simp only [pop, graft, ho, List.map_cons, d.frame_node]
    exact graft_append (b := { b with opened := rest }) f.node

lemma graft_isEmpty : (b.graft front d).opened.isEmpty = b.opened.isEmpty := by
  rw [graft, List.isEmpty_map]

lemma graft_current_name : (b.graft front d).current.name = b.current.name := by
  cases ho : b.opened with
  | nil => simp only [current, graft, ho, List.map_nil, List.headD_nil, Frame.name]
  | cons f rest =>
    simp only [current, graft, ho, List.map_cons, List.headD_cons, Frame.name, Shift.frame,
      Shift.head, Shift.name?_kind]

lemma graft_current_id (hb : b.Framed) :
    (b.graft front d).current.head.id = d.id b.current.head.id := by
  cases ho : b.opened with
  | nil =>
    simp only [current, graft, ho, List.map_nil, List.headD_nil, hb.root_head]
    rfl
  | cons f rest => simp only [current, graft, ho, List.map_cons, List.headD_cons]; rfl

lemma graft_close (name : Option Text) (span : Span) :
    (b.graft front d).close name (d.span span) = (b.close name span).graft front d := by
  simp only [close, graft_current_name, graft_isEmpty]
  split
  · exact graft_pop
  · split
    · simp only [graft, List.map_cons]
      rfl
    · rfl

lemma graft_push (h : Head) : (b.graft front d).push (d.head h) = (b.push h).graft front d := rfl

lemma graft_pass (hbytes : b.offset + Text.size item.chars + d.bytes < Word.bound) :
    (b.graft front d).pass item = (b.pass item).graft front d := by
  simp only [pass, graft, Item.faults_add hbytes, List.map_append, List.map_reverse, Builder.mk.injEq,
    and_true]
  omega

lemma graft_nextHead (hb : b.Framed) (hid : 0 < b.nextId)
    (hids : b.nextId + item.piece.attributeCount + d.ids < Word.bound)
    (hbytes : b.offset + Text.size item.chars + d.bytes < Word.bound) :
    (b.graft front d).nextHead item = d.head (b.nextHead item) := by
  rw [nextHead, graft_current_id hb]
  exact Item.head_add b.current.head.id hid hids hbytes

lemma graft_add (hb : b.Framed) (hid : 0 < b.nextId)
    (hids : b.nextId + item.piece.attributeCount + d.ids < Word.bound)
    (hbytes : b.offset + Text.size item.chars + d.bytes < Word.bound) :
    (b.graft front d).add item = (b.add item).graft front d := by
  have hhead : (b.graft front d).nextHead item = d.head (b.nextHead item) :=
    graft_nextHead hb hid hids hbytes
  have hpass : (b.graft front d).pass item = (b.pass item).graft front d := graft_pass hbytes
  have hleaf : d.node ⟨b.nextHead item, []⟩ = ⟨d.head (b.nextHead item), []⟩ := d.node_eq _
  have hkind : ((b.graft front d).nextHead item).kind = d.kind (b.nextHead item).kind := by
    rw [hhead]
    rfl
  cases hk : (b.nextHead item).kind with
  | startTag name attributes =>
    rw [hk] at hkind
    rw [add_of_startTag hk, add_of_startTag hkind, hpass, hhead, graft_push]
  | endTag name =>
    rw [hk] at hkind
    rw [add_of_endTag hk, add_of_endTag hkind, hpass, hhead, ← hleaf, graft_append]
    exact graft_close name (b.nextHead item).span
  | _ =>
    rw [hk] at hkind
    rw [add_of_leaf (by simp [hkind, Shift.kind]) (by simp [hkind, Shift.kind]),
      add_of_leaf (by simp [hk]) (by simp [hk]), hpass, hhead, ← hleaf, graft_append]

lemma graft_foldl (hids : d.ids ≤ d.bytes) (cs : Text) : ∀ b : Builder, b.Framed → 0 < b.nextId →
    b.nextId ≤ b.offset + 1 → b.offset + Text.size cs + d.bytes < Word.bound →
    (Markup.items cs).foldl add (b.graft front d) =
      ((Markup.items cs).foldl add b).graft front d := by
  induction cs using Markup.items_induction with
  | nil =>
    intro b _ _ _ _
    rw [Markup.items_nil]
    rfl
  | cons cs item rest hr ih =>
    intro b hb hid hnext hbytes
    have hstep := add_step b item
    have hoffset := hstep.offset_eq
    have hnextId := hstep.nextId_eq
    have hcount := Item.attributeCount_lt_of_read? hr
    have hsize := congrArg Text.size (Item.chars_of_read? hr)
    rw [Text.size_append] at hsize
    -- An item takes fewer ids than bytes, so no id outgrows a word before the offsets do.
    rw [Markup.items_of_read? hr, List.foldl_cons, List.foldl_cons,
      graft_add hb hid (by omega) (by omega)]
    exact ih (b.add item) (hb.step hstep) (by omega) (by omega) (by omega)

lemma graft_nest (inner : Option Node) (opened : List Frame) :
    nest (inner.map d.node) (opened.map d.frame) = (nest inner opened).map d.node := by
  induction opened generalizing inner with
  | nil => rfl
  | cons f rest ih =>
    have hf : ((d.frame f).addAll (inner.map d.node).toList).node =
        d.node (f.addAll inner.toList).node := by
      rw [← d.frame_node]
      cases inner <;> rfl
    rw [List.map_cons, nest, nest, List.foldl_cons, List.foldl_cons, hf]
    exact ih (some (f.addAll inner.toList).node)

lemma graft_tree : (b.graft front d).tree =
    ⟨b.root.head, front.reverse ++ b.tree.children.map d.node⟩ := by
  have hn : nest none (b.opened.map d.frame) = (nest none b.opened).map d.node := graft_nest none _
  have hg : (b.graft front d).opened = b.opened.map d.frame := rfl
  rw [tree_eq, tree_eq, hg, hn]
  cases nest none b.opened <;> simp [graft, Frame.addAll, Frame.node, List.map_reverse]

lemma graft_allFaults : (b.graft front d).allFaults = b.allFaults.map d.fault := by
  simp only [allFaults, graft, List.map_append, List.map_reverse, List.map_map]
  rfl

lemma eq_graft_start (hopened : b.opened = []) (hfaults : b.faults = [])
    (hroot : b.root.head = rootHead) (hid : 0 < b.nextId) :
    b = start.graft b.root.children ⟨b.nextId - 1, b.offset⟩ := by
  obtain ⟨offset, nextId, opened, root, faults⟩ := b
  obtain rfl : opened = [] := hopened
  obtain rfl : faults = [] := hfaults
  have hnext : nextId = 1 + (nextId - 1) := by
    have : 0 < nextId := hid
    omega
  simp only [graft, start, List.map_nil, List.nil_append, Nat.zero_add, ← hnext, ← hroot]

end Builder

end TemplateMarkup
