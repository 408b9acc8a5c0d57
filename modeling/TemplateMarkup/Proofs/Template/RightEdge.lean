import Mathlib.Data.List.Chain
import TemplateMarkup.Proofs.Template.OpenTags

/-! The tags that stay open lie along the right edge of the finished tree, each the last child of the one around
it. Everything else in the tree is closed. -/

namespace TemplateMarkup

open Markup (Item Piece)

namespace Node

def endsWith (n : Node) (name : Text) : Bool :=
  n.children.getLast?.any fun c => c.kind == .endTag (some name)

def isUnclosed (n : Node) : Bool :=
  match n.kind with
  | .startTag name _ => !n.endsWith name
  | _ => false

/-- A node is complete: a start tag ends with the only end tag of its name, and all else is empty. -/
inductive Sealed (n : Node) : Prop
  | closed {name : Text} {attributes : List Attribute} {init : List Node} {last : Node} :
      n.kind = .startTag name attributes → n.children = init ++ [last] →
      last.kind = .endTag (some name) → (∀ c ∈ init, c.kind ≠ .endTag (some name)) → Sealed n
  | leaf : (∀ name attributes, n.kind ≠ .startTag name attributes) → n.children = [] → Sealed n

/-- The tags left open along the last nodes of a list, outermost first. -/
inductive RightEdge : List Node → List Node → Prop
  | nil {ns : List Node} : (∀ m ∈ preorders ns, m.Sealed) → RightEdge [] ns
  | cons {tags init : List Node} {n : Node} {name : Text} {attributes : List Attribute} :
      (∀ m ∈ preorders init, m.Sealed) → n.kind = .startTag name attributes →
      (∀ c ∈ n.children, c.kind ≠ .endTag (some name)) → RightEdge tags n.children →
      RightEdge (n :: tags) (init ++ [n])

variable {n : Node} {ns tags init : List Node} {name : Text} {attributes : List Attribute}

lemma isUnclosed_of_startTag (h : n.kind = .startTag name attributes) :
    n.isUnclosed = !n.endsWith name := by
  simp only [isUnclosed, h]

lemma endsWith_eq_false (h : ∀ c ∈ n.children, c.kind ≠ .endTag (some name)) :
    n.endsWith name = false := by
  rw [endsWith]
  cases hl : n.children.getLast? with
  | none => rfl
  | some c => simpa using h c (List.mem_of_getLast? hl)

lemma Sealed.isUnclosed_eq (h : n.Sealed) : n.isUnclosed = false := by
  cases h with
  | closed hk hc hlast _ => simp [isUnclosed_of_startTag hk, endsWith, hc, hlast]
  | leaf hk _ =>
    rw [isUnclosed]
    split
    · exact absurd ‹_› (hk _ _)
    · rfl

namespace RightEdge

lemma prepend (h : RightEdge tags ns) (hi : ∀ m ∈ preorders init, m.Sealed) :
    RightEdge tags (init ++ ns) := by
  cases h with
  | nil hns =>
    apply RightEdge.nil
    intro m hm
    rw [preorders_append] at hm
    exact (List.mem_append.1 hm).elim (hi m) (hns m)
  | @cons tags before n name attributes hb hk hc ht =>
    rw [← List.append_assoc]
    refine RightEdge.cons ?_ hk hc ht
    intro m hm
    rw [preorders_append] at hm
    exact (List.mem_append.1 hm).elim (hi m) (hb m)

lemma filter_isUnclosed (h : RightEdge tags ns) : (preorders ns).filter isUnclosed = tags := by
  have hsealed : ∀ ms : List Node, (∀ m ∈ preorders ms, m.Sealed) →
      (preorders ms).filter isUnclosed = [] := by
    intro ms hms
    rw [List.filter_eq_nil_iff]
    intro m hm
    simp [(hms m hm).isUnclosed_eq]
  induction h with
  | nil hns => exact hsealed _ hns
  | @cons tags init n name attributes hi hk hc ht ih =>
    have hn : n.isUnclosed := by rw [isUnclosed_of_startTag hk, endsWith_eq_false hc]; rfl
    rw [preorders_append, List.filter_append, hsealed init hi, preorders, preorder_eq, preorders,
      List.append_nil, List.filter_cons_of_pos hn, ih, List.nil_append]

lemma not_isUnclosed_of_mem_dropLast (h : RightEdge tags ns) {c : Node} (hc : c ∈ ns.dropLast) :
    c.isUnclosed = false := by
  cases h with
  | nil hns => exact (hns c (mem_preorders_of_mem (List.dropLast_subset ns hc))).isUnclosed_eq
  | cons hi _ _ _ =>
    rw [List.dropLast_concat] at hc
    exact (hi c (mem_preorders_of_mem hc)).isUnclosed_eq

lemma mem_cases (h : RightEdge tags ns) {m : Node} (hm : m ∈ preorders ns) :
    (∀ k ∈ m.preorder, k.Sealed) ∨ ∃ name attributes below, m.kind = .startTag name attributes ∧
      (∀ c ∈ m.children, c.kind ≠ .endTag (some name)) ∧ RightEdge below m.children := by
  induction h with
  | nil hns => exact Or.inl fun k hk => hns k (preorder_subset_of_mem_preorders _ hm hk)
  | @cons tags init n name attributes hi hk hc ht ih =>
    rw [preorders_append] at hm
    rcases List.mem_append.1 hm with hm | hm
    · exact Or.inl fun k hk => hi k (preorder_subset_of_mem_preorders _ hm hk)
    · rw [preorders, preorder_eq, preorders, List.append_nil] at hm
      rcases List.mem_cons.1 hm with rfl | hm
      · exact Or.inr ⟨name, attributes, tags, hk, hc, ht⟩
      · exact ih hm

lemma isChain {p : Node} (h : RightEdge tags ns) (hp : p.children = ns) :
    (p :: tags).IsChain fun p c => p.children.getLast? = some c := by
  induction h generalizing p with
  | nil _ => exact List.isChain_singleton p
  | @cons tags init n name attributes _ _ _ _ ih =>
    refine List.IsChain.cons_cons ?_ (ih rfl)
    rw [hp, List.getLast?_concat]

end RightEdge

end Node

open Node (preorders RightEdge)

structure Frame.Pending (f : Frame) : Prop where
  children_sealed : ∀ c ∈ f.children, ∀ m ∈ c.preorder, m.Sealed
  not_closed : ∀ name attributes, f.head.kind = .startTag name attributes →
    ∀ c ∈ f.children, c.kind ≠ .endTag (some name)

lemma Frame.Pending.add {f : Frame} {n : Node} (hf : f.Pending) (hn : ∀ m ∈ n.preorder, m.Sealed)
    (hc : ∀ name attributes, f.head.kind = .startTag name attributes →
      n.kind ≠ .endTag (some name)) : (f.add n).Pending := by
  constructor
  · intro c hmem
    rcases List.mem_cons.1 hmem with rfl | hmem
    · exact hn
    · exact hf.children_sealed c hmem
  · intro name attributes hk c hmem
    rcases List.mem_cons.1 hmem with rfl | hmem
    · exact hc name attributes hk
    · exact hf.not_closed name attributes hk c hmem

lemma Node.leaf_sealed {h : Head} (hk : ∀ name attributes, h.kind ≠ .startTag name attributes) :
    ∀ m ∈ Node.preorder ⟨h, []⟩, m.Sealed := by
  intro m hm
  rw [Node.preorder_eq, Node.preorders, List.mem_singleton] at hm
  rw [hm]
  exact .leaf hk rfl

lemma Frame.Pending.node_sealed {f : Frame} {h : Head} {name : Text} {attributes : List Attribute}
    (hf : f.Pending) (hk : f.head.kind = .startTag name attributes)
    (he : h.kind = .endTag (some name)) : ∀ m ∈ (f.add ⟨h, []⟩).node.preorder, m.Sealed := by
  have hchildren : (f.add ⟨h, []⟩).node.children = f.children.reverse ++ [⟨h, []⟩] := by
    simp [Frame.node, Frame.add]
  intro m hm
  rw [Node.preorder_eq] at hm
  rcases List.mem_cons.1 hm with rfl | hm
  · refine .closed hk hchildren he ?_
    exact fun c hc => hf.not_closed name attributes hk c (List.mem_reverse.1 hc)
  · rw [hchildren, Node.mem_preorders] at hm
    obtain ⟨c, hc, hm⟩ := hm
    rcases List.mem_append.1 hc with hc | hc
    · exact hf.children_sealed c (List.mem_reverse.1 hc) m hm
    · rw [List.mem_singleton.1 hc] at hm
      exact Node.leaf_sealed (by simp [he]) m hm

namespace Builder

def Matched (b : Builder) : Prop :=
  b.root.Pending ∧ ∀ f ∈ b.opened, f.Pending

variable {b d : Builder} {item : Item}

lemma Matched.append {n : Node} (hb : b.Matched) (hn : ∀ m ∈ n.preorder, m.Sealed)
    (hc : ∀ name attributes, b.current.head.kind = .startTag name attributes →
      n.kind ≠ .endTag (some name)) : (b.append n).Matched := by
  rw [Builder.append]
  split
  · rename_i h
    refine ⟨hb.1.add hn ?_, hb.2⟩
    simpa [current, h] using hc
  · rename_i f rest h
    refine ⟨hb.1, ?_⟩
    intro g hg
    rcases List.mem_cons.1 hg with rfl | hg
    · refine (hb.2 f (by simp [h])).add hn ?_
      simpa [current, h] using hc
    · exact hb.2 g (by simp [h, hg])

lemma Matched.close (hb : b.Matched) (hf : b.Framed) {h : Head}
    (hk : h.kind = .endTag (some b.current.name)) : (b.append ⟨h, []⟩).pop.Matched := by
  cases ho : b.opened with
  | nil =>
    have hroot : b.current.head.kind = .root := by
      simp [current, ho, hf.root_head, rootHead]
    rw [append_pop_of_nil ho]
    exact hb.append (Node.leaf_sealed (by simp [hk])) (by simp [hroot])
  | cons f rest =>
    obtain ⟨name, attributes, hfk, -⟩ := hf.opened_kind f.head (by simp [ho])
    have hname : b.current.name = name := by simp [current, ho, Frame.name, hfk, NodeKind.name?]
    have hpend := hb.2 f (by simp [ho])
    rw [hname] at hk
    rw [append_pop_of_cons ho]
    refine Matched.append ⟨hb.1, fun g hg => hb.2 g (by simp [ho, hg])⟩
      (hpend.node_sealed hfk hk) ?_
    intro _ _ _ he
    rw [show (f.add ⟨h, []⟩).node.kind = f.head.kind from rfl, hfk] at he
    cases he

lemma Matched.step (hb : b.Matched) (hf : b.Framed) (h : Step b item d) : d.Matched := by
  have hp : (b.pass item).Matched := hb
  -- An end tag is added to the innermost tag without closing it only when the names differ.
  have hother : (b.nextHead item).kind ≠ .endTag (some b.current.name) →
      ∀ name attributes, (b.pass item).current.head.kind = .startTag name attributes →
        (b.nextHead item).kind ≠ .endTag (some name) := by
    intro hne name attributes hk
    have hname : b.current.name = name := by
      rw [pass_current] at hk
      simp [Frame.name, hk, NodeKind.name?]
    exact hname ▸ hne
  cases h with
  | push hk =>
    refine ⟨hp.1, fun f hmem => ?_⟩
    rcases List.mem_cons.1 hmem with rfl | hmem
    · exact ⟨by simp, by simp⟩
    · exact hp.2 f hmem
  | pop hk =>
    have hfp : (b.pass item).Framed := ⟨hf.root_head, hf.opened_kind⟩
    exact hp.close hfp hk
  | stray hk hn hv =>
    have hs : ∀ name attributes, (b.nextHead item).kind ≠ .startTag name attributes := by simp [hk]
    have happ := hp.append (Node.leaf_sealed hs) (hother (by simpa [hk] using hn))
    exact ⟨happ.1, happ.2⟩
  | leaf hs he hv => exact hp.append (Node.leaf_sealed hs) (hother he)

lemma rightEdge_nest (root : Frame) (hroot : root.Pending) (opened : List Frame)
    (hopened : ∀ f ∈ opened, f.Pending ∧ ∃ name attributes, f.head.kind = .startTag name attributes)
    (inner : Option Node) (hinner : ∀ n ∈ inner, ∀ name, n.kind ≠ .endTag name)
    (tags : List Node) (ht : RightEdge tags inner.toList) :
    ∃ outer, outer.map Node.head = (opened.map Frame.head).reverse ∧
      RightEdge (outer ++ tags) (root.children.reverse ++ (nest inner opened).toList) := by
  induction opened generalizing inner tags with
  | nil =>
    refine ⟨[], rfl, ht.prepend ?_⟩
    intro m hm
    obtain ⟨c, hc, hm⟩ := Node.mem_preorders.1 hm
    exact hroot.children_sealed c (List.mem_reverse.1 hc) m hm
  | cons f rest ih =>
    obtain ⟨hf, name, attributes, hk⟩ := hopened f (List.mem_cons_self ..)
    let n := (f.addAll inner.toList).node
    have hchildren : n.children = f.children.reverse ++ inner.toList := by
      cases inner <;> simp [n, Frame.node, Frame.addAll]
    have hn : RightEdge (n :: tags) ([] ++ [n]) := by
      refine RightEdge.cons (by simp [preorders]) hk ?_ ?_
      · intro c hc
        rw [hchildren] at hc
        rcases List.mem_append.1 hc with hc | hc
        · exact hf.not_closed name attributes hk c (List.mem_reverse.1 hc)
        · exact hinner c (by simpa using hc) _
      · rw [hchildren]
        refine ht.prepend ?_
        intro m hm
        obtain ⟨c, hc, hm⟩ := Node.mem_preorders.1 hm
        exact hf.children_sealed c (List.mem_reverse.1 hc) m hm
    obtain ⟨outer, houter, hedge⟩ := ih (fun g hg => hopened g (List.mem_cons_of_mem f hg)) (some n)
      (by simp [show n.kind = f.head.kind from rfl, hk]) (n :: tags) hn
    refine ⟨outer ++ [n], ?_, ?_⟩
    · rw [List.map_append, houter]
      exact List.reverse_cons.symm
    · rw [List.append_assoc]
      exact hedge

end Builder

lemma built_matched (source : Text) : (built source).Matched := by
  have h : (built source).Framed ∧ (built source).Matched := by
    apply built_induction (P := fun b => b.Framed ∧ b.Matched)
    · exact ⟨Builder.framed_start, ⟨by simp [Builder.start], by simp [Builder.start]⟩,
        by simp [Builder.start]⟩
    · rintro b item d ⟨hf, hm⟩ hstep
      exact ⟨hf.step hstep, hm.step hf hstep⟩
  exact h.2

lemma parse_rightEdge (source : Text) : ∃ tags,
    tags.map Node.head = ((built source).opened.map Frame.head).reverse ∧
      RightEdge tags (parse source).root.children := by
  have hf := built_framed source
  have hm := built_matched source
  obtain ⟨tags, htags, hedge⟩ := Builder.rightEdge_nest (built source).root hm.1 (built source).opened
    (fun f hmem => ⟨hm.2 f hmem, by
      obtain ⟨name, attributes, hk, -⟩ := hf.opened_kind f.head (List.mem_map_of_mem hmem)
      exact ⟨name, attributes, hk⟩⟩)
    none (by simp) [] (.nil (by simp [preorders]))
  refine ⟨tags, htags, ?_⟩
  rw [List.append_nil] at hedge
  have hchildren : (parse source).root.children = (built source).root.children.reverse ++
      (Builder.nest none (built source).opened).toList := by
    show ((built source).root.addAll (Builder.nest none (built source).opened).toList).node.children =
      _
    cases Builder.nest none (built source).opened <;> simp [Frame.node, Frame.addAll]
  rw [hchildren]
  exact hedge

end TemplateMarkup
