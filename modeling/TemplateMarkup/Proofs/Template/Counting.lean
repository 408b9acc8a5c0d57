import TemplateMarkup.Proofs.Template.Coverage
import TemplateMarkup.Proofs.Template.Numbering
import TemplateMarkup.Template.Selection

namespace TemplateMarkup

open Markup (Item Piece Stats)

def NodeKind.isStartTag : NodeKind → Bool
  | startTag _ _ => true
  | _ => false

def NodeKind.isSelfClosingTag : NodeKind → Bool
  | selfClosingTag _ _ => true
  | _ => false

def NodeKind.isEndTag : NodeKind → Bool
  | endTag _ => true
  | _ => false

def NodeKind.stats : NodeKind → Stats
  | root => Stats.zero
  | startTag _ attributes => { Stats.zero with openTags := 1, attributes := attributes.length }
  | selfClosingTag _ attributes =>
    { Stats.zero with selfClosingTags := 1, attributes := attributes.length }
  | endTag _ => { Stats.zero with closeTags := 1 }
  | text => { Stats.zero with texts := 1 }
  | comment => { Stats.zero with comments := 1 }
  | interpolation => { Stats.zero with interpolations := 1 }

lemma Markup.Piece.stats_kind (id start : Nat) (piece : Piece) :
    (piece.kind id start).stats = piece.stats := by
  cases piece with
  | tag written =>
    rw [kind, stats]
    split <;> rw [NodeKind.stats, WrittenAttribute.length_placeAll]
  | _ => rfl

namespace Markup.Stats

def ofEntries (es : List Entry) : Stats where
  openTags := es.countP (Entry.isNode NodeKind.isStartTag)
  closeTags := es.countP (Entry.isNode NodeKind.isEndTag)
  selfClosingTags := es.countP (Entry.isNode NodeKind.isSelfClosingTag)
  attributes := es.countP Entry.isAttribute
  comments := es.countP (Entry.isNode (· = .comment))
  interpolations := es.countP (Entry.isNode (· = .interpolation))
  texts := es.countP (Entry.isNode (· = .text))

lemma zero_add (s : Stats) : zero.add s = s := by
  simp [add, zero]

lemma add_assoc (s t u : Stats) : (s.add t).add u = s.add (t.add u) := by
  simp [add, Nat.add_assoc]

lemma foldl_add (found : List Item) (s : Stats) :
    found.foldl (fun s item => s.add item.piece.stats) s = s.add (ofItems found) := by
  induction found generalizing s with
  | nil => rfl
  | cons item found ih =>
    have hcons : ofItems (item :: found) = item.piece.stats.add (ofItems found) := by
      rw [ofItems, List.foldl_cons, ih, zero_add]
    rw [List.foldl_cons, ih, hcons, add_assoc]

lemma ofItems_append (xs ys : List Item) :
    ofItems (xs ++ ys) = (ofItems xs).add (ofItems ys) := by
  rw [ofItems, List.foldl_append, foldl_add]
  rfl

lemma ofItems_cons (item : Item) (found : List Item) :
    ofItems (item :: found) = item.piece.stats.add (ofItems found) := by
  rw [ofItems, List.foldl_cons, foldl_add, zero_add]

lemma ofEntries_append (es fs : List Entry) :
    ofEntries (es ++ fs) = (ofEntries es).add (ofEntries fs) := by
  simp only [ofEntries, add, List.countP_append]

lemma ofEntries_attributes (n : Node) (as : List Attribute) :
    ofEntries (as.map (.attr n)) = { zero with attributes := as.length } := by
  induction as with
  | nil => rfl
  | cons a as ih =>
    have hone : ofEntries [.attr n a] = { zero with attributes := 1 } := rfl
    rw [List.map_cons, ← List.singleton_append, ofEntries_append, ih, hone]
    simp [add, zero, Nat.add_comm]

lemma ofEntries_entries (n : Node) : ofEntries n.entries = n.kind.stats := by
  have hentries : ofEntries n.entries = (ofEntries [.node n]).add
      { zero with attributes := n.kind.attributes.length } := by
    rw [Node.entries, ← List.singleton_append, ofEntries_append, ofEntries_attributes]
    rfl
  rw [hentries]
  cases h : n.kind <;>
    simp [ofEntries, Entry.isNode, Entry.isAttribute, h, NodeKind.isStartTag, NodeKind.isEndTag,
      NodeKind.isSelfClosingTag, NodeKind.attributes, NodeKind.stats, add, zero]

lemma ofEntries_flatMap {ns : List Node} {ps : List Placed}
    (h : ns.map Node.head = ps.map Placed.head) :
    ofEntries (ns.flatMap Node.entries) = ofItems (ps.map Placed.item) := by
  induction ns generalizing ps with
  | nil =>
    obtain rfl := List.map_eq_nil_iff.1 h.symm
    rfl
  | cons n ns ih =>
    obtain ⟨p, qs, rfl, hp, hps⟩ := List.map_eq_cons_iff.1 h.symm
    have hkind : n.kind = p.item.piece.kind p.id p.start := by
      rw [Node.kind, ← hp]
      rfl
    rw [List.flatMap_cons, ofEntries_append, ofEntries_entries, hkind, Piece.stats_kind, ih hps.symm,
      List.map_cons, ofItems_cons]

end Markup.Stats

/-- Each count is the number of entries of its sort, so together they count all entries but the root. -/
theorem stats_count_entries (source : Text) :
    (parse source).stats = Stats.ofEntries (parse source).entries ∧
      (parse source).stats.total + 1 = (parse source).entries.length := by
  refine ⟨?_, stats_total source⟩
  have hheads : (Node.preorders (parse source).root.children).map Node.head =
      (placed source).map Placed.head := by
    have hall := parse_nodes_heads source
    rw [Template.nodes_eq, Node.preorder_eq, List.map_cons] at hall
    exact (List.cons.inj hall).2
  have hroot : (parse source).root.kind.stats = Stats.zero := by
    rw [Node.kind, parse_root_head]
    rfl
  rw [Template.entries_eq, Node.preorder_eq, List.flatMap_cons, Stats.ofEntries_append,
    Stats.ofEntries_entries, hroot, Stats.zero_add, Stats.ofEntries_flatMap hheads, placed,
    Builder.map_item_placed]
  rfl

end TemplateMarkup
