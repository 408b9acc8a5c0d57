import TemplateMarkup.Proofs.Template.Numbering

/-! Moving a tree to a later place. What an item becomes there is what it becomes here, moved. -/

namespace TemplateMarkup

open Markup (Item Piece Fault WrittenAttribute WrittenTag WrittenValue)

/-- What is added to the ids and to the offsets. The root stays where it is and keeps its id. -/
structure Shift where
  ids : Nat
  bytes : Nat

namespace Shift

variable (d : Shift)

def id (n : Nat) : Nat :=
  if n = 0 then 0 else n + d.ids

def span (s : Span) : Span :=
  ⟨s.start + d.bytes, s.stop + d.bytes⟩

def attr (a : Attribute) : Attribute :=
  { id := d.id a.id, owner := d.id a.owner, outerStart := a.outerStart + d.bytes, span := d.span a.span
    name := a.name, value := a.value, valueStart := a.valueStart.map (· + d.bytes) }

def kind : NodeKind → NodeKind
  | .startTag name attributes => .startTag name (attributes.map d.attr)
  | .selfClosingTag name attributes => .selfClosingTag name (attributes.map d.attr)
  | k => k

def head (h : Head) : Head :=
  { id := d.id h.id, parent := h.parent.map d.id, outerStart := h.outerStart + d.bytes
    span := d.span h.span, kind := d.kind h.kind }

mutual

def node : Node → Node
  | ⟨h, children⟩ => ⟨d.head h, nodes children⟩

def nodes : List Node → List Node
  | [] => []
  | n :: rest => node n :: nodes rest

end

def entry : Entry → Entry
  | .node n => .node (d.node n)
  | .attr owner a => .attr (d.node owner) (d.attr a)

def fault (f : Fault) : Fault :=
  { f with span := d.span f.span }

lemma nodes_eq_map (ns : List Node) : d.nodes ns = ns.map d.node := by
  induction ns with
  | nil => rfl
  | cons n ns ih => rw [nodes, ih, List.map_cons]

lemma node_eq (n : Node) : d.node n = ⟨d.head n.head, n.children.map d.node⟩ := by
  cases n
  rw [node, nodes_eq_map]

@[simp] lemma node_head (n : Node) : (d.node n).head = d.head n.head := by
  rw [node_eq]

@[simp] lemma attributes_kind (k : NodeKind) :
    (d.kind k).attributes = k.attributes.map d.attr := by
  cases k <;> rfl

@[simp] lemma name?_kind (k : NodeKind) : (d.kind k).name? = k.name? := by
  cases k <;> rfl

@[simp] lemma isContainer_kind (k : NodeKind) : (d.kind k).isContainer = k.isContainer := by
  cases k <;> rfl

mutual

lemma preorder_node : ∀ n : Node, (d.node n).preorder = n.preorder.map d.node
  | ⟨h, children⟩ => by
    rw [node, Node.preorder, Node.preorder, preorders_nodes children, List.map_cons, node]

lemma preorders_nodes : ∀ ns : List Node,
    Node.preorders (d.nodes ns) = (Node.preorders ns).map d.node
  | [] => rfl
  | n :: rest => by
    rw [nodes, Node.preorders, Node.preorders, preorder_node n, preorders_nodes rest,
      List.map_append]

end

lemma entries_node (n : Node) : (d.node n).entries = n.entries.map d.entry := by
  simp only [Node.entries, Node.attributes, node_head, head, attributes_kind, List.map_cons,
    List.map_map]
  rfl

lemma entries_preorders (ns : List Node) :
    (Node.preorders (ns.map d.node)).flatMap Node.entries =
      ((Node.preorders ns).flatMap Node.entries).map d.entry := by
  rw [← nodes_eq_map, preorders_nodes, List.flatMap_map, List.map_flatMap]
  simp only [entries_node]

variable {d : Shift}

lemma id_wrap {n m : Nat} (hn : 0 < n) (hm : m = n + d.ids) (h : m < Word.bound) :
    Word.wrap m = d.id (Word.wrap n) := by
  rw [hm, Word.wrap_of_lt (by omega), Word.wrap_of_lt (by omega), id, if_neg (by omega)]

lemma wrap_bytes {n m : Nat} (hm : m = n + d.bytes) (h : m < Word.bound) :
    Word.wrap m = Word.wrap n + d.bytes := by
  rw [hm, Word.wrap_of_lt (by omega), Word.wrap_of_lt (by omega)]

lemma span_ofOffsets {start stop start' stop' : Nat} (hs : start' = start + d.bytes)
    (ht : stop' = stop + d.bytes) (hle : start ≤ stop) (h : stop' < Word.bound) :
    Span.ofOffsets start' stop' = d.span (Span.ofOffsets start stop) := by
  simp only [Span.ofOffsets, span]
  rw [wrap_bytes hs (by omega), wrap_bytes ht h]

end Shift

namespace Markup

open Shift

variable {d : Shift}

namespace WrittenValue

lemma map_textStart?_add {pos pos' : Nat} {value : WrittenValue} (hpos : pos' = pos + d.bytes)
    (h : pos' + Text.size value.chars < Word.bound) :
    (value.textStart? pos').map Word.wrap =
      ((value.textStart? pos).map Word.wrap).map (· + d.bytes) := by
  cases value with
  | quoted quote run =>
    have hquote : 0 < quote.utf8Size := Char.utf8Size_pos quote
    rw [chars, Text.size_cons] at h
    exact congrArg some (wrap_bytes (by omega) (by omega))
  | bare text ended => exact congrArg some (wrap_bytes hpos (by omega))
  | missing => rfl

end WrittenValue

namespace WrittenAttribute

lemma place_add {id owner pos : Nat} {a : WrittenAttribute} (hid : 0 < id) (howner : 0 < owner)
    (hids : id + d.ids < Word.bound) (howners : owner + d.ids < Word.bound)
    (hbytes : pos + Text.size a.chars + d.bytes < Word.bound) :
    a.place (id + d.ids) (owner + d.ids) (pos + d.bytes) = d.attr (a.place id owner pos) := by
  cases ha : a.assignment with
  | none =>
    simp only [chars, ha, Text.size_append] at hbytes
    simp only [place, ha, attr, Attribute.mk.injEq, Option.map_none, and_self, and_true]
    exact ⟨id_wrap hid rfl hids, id_wrap howner rfl howners, wrap_bytes rfl (by omega),
      span_ofOffsets (by omega) (by omega) (by omega) (by omega)⟩
  | some assignment =>
    obtain ⟨blank, value⟩ := assignment
    have hsign : Char.utf8Size '=' = 1 := rfl
    simp only [chars, ha, Option.map_some, Option.getD_some, Assignment.chars, Text.size_append,
      Text.size_cons, hsign] at hbytes
    simp only [place, ha, attr, Attribute.mk.injEq, true_and]
    exact ⟨id_wrap hid rfl hids, id_wrap howner rfl howners, wrap_bytes rfl (by omega),
      span_ofOffsets (by omega) (by omega) (by omega) (by omega),
      WrittenValue.map_textStart?_add (by omega) (by omega)⟩

lemma placeAll_add {as : List WrittenAttribute} {id owner pos : Nat} (hid : 0 < id)
    (howner : 0 < owner) (howners : owner + d.ids < Word.bound)
    (hids : id + as.length + d.ids ≤ Word.bound)
    (hbytes : pos + Text.size (as.flatMap chars) + d.bytes < Word.bound) :
    placeAll (owner + d.ids) (id + d.ids) (pos + d.bytes) as =
      (placeAll owner id pos as).map d.attr := by
  induction as generalizing id pos with
  | nil => rfl
  | cons a as ih =>
    simp only [List.flatMap_cons, Text.size_append] at hbytes
    rw [List.length_cons] at hids
    have hhead := place_add hid howner (by omega) howners
      (show pos + Text.size a.chars + d.bytes < Word.bound by omega)
    have htail := @ih (id + 1) (pos + Text.size a.chars) (by omega) (by omega) (by omega)
    rw [placeAll, placeAll, List.map_cons, hhead, ← htail, Nat.add_right_comm id,
      Nat.add_right_comm pos]

lemma fault?_add {pos : Nat} {a : WrittenAttribute}
    (h : pos + Text.size a.chars + d.bytes < Word.bound) :
    a.fault? (pos + d.bytes) = (a.fault? pos).map d.fault := by
  have hblank : Text.size a.blank ≤ Text.size a.chars := by
    simp only [chars, Text.size_append]
    omega
  have hstop := @span_ofOffsets d (pos + Text.size a.chars) (pos + Text.size a.chars)
    (pos + d.bytes + Text.size a.chars) (pos + d.bytes + Text.size a.chars) (by omega) (by omega)
    (Nat.le_refl _) (by omega)
  have hwhole := @span_ofOffsets d (pos + Text.size a.blank) (pos + Text.size a.chars)
    (pos + d.bytes + Text.size a.blank) (pos + d.bytes + Text.size a.chars) (by omega) (by omega)
    (by omega) (by omega)
  simp only [fault?, hstop, hwhole]
  split
  · rfl
  · rfl
  · split <;> rfl

lemma faults_add {as : List WrittenAttribute} {pos : Nat}
    (h : pos + Text.size (as.flatMap chars) + d.bytes < Word.bound) :
    faults (pos + d.bytes) as = (faults pos as).map d.fault := by
  induction as generalizing pos with
  | nil => rfl
  | cons a as ih =>
    simp only [List.flatMap_cons, Text.size_append] at h
    have htail := @ih (pos + Text.size a.chars) (by omega)
    rw [faults, faults, List.map_append, fault?_add (by omega), ← htail, Nat.add_right_comm pos]
    cases a.fault? pos <;> rfl

end WrittenAttribute

namespace Piece

lemma size_tag (written : WrittenTag) : Text.size (tag written).chars =
    1 + Text.size written.name + Text.size (written.attributes.flatMap WrittenAttribute.chars) +
      Text.size written.gap + Text.size written.ending.chars := by
  have hbracket : Char.utf8Size '<' = 1 := rfl
  simp only [chars, WrittenTag.chars, Text.size_cons, Text.size_append, hbracket]
  omega

lemma extent_le (piece : Piece) : piece.extent ≤ Text.size piece.chars := by
  cases piece with
  | nameless c => exact Nat.zero_le _
  | _ => exact Nat.le_refl _

lemma kind_add {id start : Nat} {piece : Piece} (hid : 0 < id)
    (hids : id + piece.attributeCount + d.ids < Word.bound)
    (hbytes : start + Text.size piece.chars + d.bytes < Word.bound) :
    piece.kind (id + d.ids) (start + d.bytes) = d.kind (piece.kind id start) := by
  cases piece with
  | tag written =>
    rw [size_tag] at hbytes
    rw [attributeCount] at hids
    have hattributes := @WrittenAttribute.placeAll_add d written.attributes (id + 1) id
      (start + 1 + Text.size written.name) (by omega) hid (by omega) (by omega) (by omega)
    rw [Nat.add_right_comm id, Nat.add_right_comm (start + 1), Nat.add_right_comm start]
      at hattributes
    simp only [kind, hattributes]
    split <;> rfl
  | _ => rfl

lemma faults_add {start : Nat} {piece : Piece}
    (h : start + Text.size piece.chars + d.bytes < Word.bound) :
    piece.faults (start + d.bytes) = (piece.faults start).map d.fault := by
  have hspan := @span_ofOffsets d start (start + Text.size piece.chars) (start + d.bytes)
    (start + d.bytes + Text.size piece.chars) rfl (by omega) (by omega) (by omega)
  cases piece with
  | comment run => rfl
  | endTag run => simp only [faults, hspan]; split <;> rfl
  | interpolation run => simp only [faults, hspan]; split <;> rfl
  | text cs => rfl
  | nameless c => simp only [faults, hspan]; rfl
  | tag written =>
    have hsize := size_tag written
    have hattributes := @WrittenAttribute.faults_add d written.attributes
      (start + 1 + Text.size written.name) (by omega)
    have hbracket : Char.utf8Size '<' = 1 := rfl
    rw [chars, Text.size_cons, hbracket, ← Nat.add_assoc, ← Nat.add_assoc] at hspan
    rw [Nat.add_right_comm (start + 1), Nat.add_right_comm start] at hattributes
    simp only [faults, WrittenTag.faults, hattributes, hspan, List.map_append]
    congr 1
    split
    · split <;> rfl
    · rfl
    · rfl

end Piece

namespace Item

variable {item : Item} {pos : Nat}

lemma size_chars (item : Item) :
    Text.size item.chars = Text.size item.blank + Text.size item.piece.chars := by
  rw [chars, Text.size_append]

lemma head_add {id : Nat} (parent : Nat) (hid : 0 < id)
    (hids : id + item.piece.attributeCount + d.ids < Word.bound)
    (hbytes : pos + Text.size item.chars + d.bytes < Word.bound) :
    item.head (id + d.ids) (d.id parent) (pos + d.bytes) = d.head (item.head id parent pos) := by
  rw [size_chars] at hbytes
  have hextent := item.piece.extent_le
  have hkind := @Piece.kind_add d id (pos + Text.size item.blank) item.piece hid hids (by omega)
  rw [Nat.add_right_comm pos] at hkind
  simp only [Item.head, Shift.head, hkind, Option.map_some, Head.mk.injEq, true_and, and_true]
  exact ⟨id_wrap hid rfl (by omega), wrap_bytes rfl (by omega),
    span_ofOffsets (by omega) (by omega) (by omega) (by omega)⟩

lemma faults_add (hbytes : pos + Text.size item.chars + d.bytes < Word.bound) :
    item.faults (pos + d.bytes) = (item.faults pos).map d.fault := by
  rw [size_chars] at hbytes
  rw [faults, faults, ← Piece.faults_add (by omega), Nat.add_right_comm pos]

end Item

end Markup

end TemplateMarkup
