import Mathlib.Data.List.Nodup
import TemplateMarkup.Proofs.Template.Coverage
import TemplateMarkup.Proofs.Template.RightEdge

namespace TemplateMarkup

open Markup (Fault FaultKind)

variable {source : Text}

lemma placed_starts_increase (hs : Text.size source < Word.bound) :
    ((placed source).map fun p => p.head.span.start).Pairwise (· < ·) := by
  have hstarts : ((placed source).map fun p => p.head.span.start) =
      (placed source).map Placed.start :=
    List.map_congr_left fun p hp => by rw [Placed.head_span hp hs]
  rw [hstarts, List.pairwise_map]
  exact (placed_pairwise source).imp fun h => h.start_lt

lemma starts_nodup (hs : Text.size source < Word.bound) :
    ((placed source).map fun p => p.head.span.start).Nodup :=
  (placed_starts_increase hs).imp Nat.ne_of_lt

lemma content_spans_nodup (hs : Text.size source < Word.bound) :
    ((parse source).content.map fun n => n.head.span).Nodup := by
  have hstarts := starts_nodup hs
  rw [List.Nodup, List.pairwise_map] at hstarts ⊢
  apply pairwise_content (R := fun g h => g.span ≠ h.span)
  exact hstarts.imp fun hne heq => hne (congrArg Span.start heq)

lemma links_spans_nodup (hs : Text.size source < Word.bound) :
    ((parse source).root.links.map fun l => l.2.span).Nodup := by
  rw [parse_links, List.map_map]
  apply List.Nodup.of_map Span.start
  rw [List.map_map]
  exact starts_nodup hs

lemma parse_unclosed (source : Text) : ∃ tags, Node.RightEdge tags (parse source).root.children ∧
    (parse source).nodes.filter Node.isUnclosed = tags ∧
    tags.map Node.head = ((built source).opened.map Frame.head).reverse := by
  obtain ⟨tags, htags, hedge⟩ := parse_rightEdge source
  have hroot : (parse source).root.isUnclosed = false := by
    simp [Node.isUnclosed, Node.kind, parse_root_head, rootHead]
  refine ⟨tags, hedge, ?_, htags⟩
  rw [Template.nodes_eq, Node.preorder_eq, List.filter_cons_of_neg (by simp [hroot]),
    hedge.filter_isUnclosed]

lemma unmatched_faults (source : Text) :
    ((built source).opened.map fun f => (⟨.unmatchedOpeningTag, f.head.span⟩ : Fault)) =
      (((parse source).nodes.filter Node.isUnclosed).map fun n =>
        ⟨.unmatchedOpeningTag, n.head.span⟩).reverse := by
  obtain ⟨tags, -, htags, hheads⟩ := parse_unclosed source
  let fault : Head → Fault := fun h => ⟨.unmatchedOpeningTag, h.span⟩
  calc ((built source).opened.map fun f => fault f.head)
      = ((built source).opened.map Frame.head).map fault := by rw [List.map_map]; rfl
    _ = ((tags.map Node.head).reverse).map fault := by rw [hheads, List.reverse_reverse]
    _ = (tags.map fun n => fault n.head).reverse := by
        rw [List.map_reverse, List.map_map]
        rfl
    _ = _ := by rw [htags]

lemma filter_content_isUnclosed (t : Template) :
    t.content.filter Node.isUnclosed = t.nodes.filter Node.isUnclosed := by
  rw [Template.content, List.filter_filter]
  apply List.filter_congr
  intro n _
  cases hk : n.kind <;> simp [Node.isUnclosed, hk]

lemma mem_content_of_kind {t : Template} {n : Node} (h : n ∈ t.nodes) (hk : n.kind ≠ .root) :
    n ∈ t.content :=
  List.mem_filter.2 ⟨h, by simpa using hk⟩

lemma count_unmatched (hs : Text.size source < Word.bound) {n : Node}
    (hn : n ∈ (parse source).content) :
    (parse source).faults.count ⟨.unmatchedOpeningTag, n.head.span⟩ =
      if n.isUnclosed then 1 else 0 := by
  let fault : Node → Fault := fun m => ⟨.unmatchedOpeningTag, m.head.span⟩
  let tags := (parse source).nodes.filter Node.isUnclosed
  have htags : tags = (parse source).content.filter Node.isUnclosed :=
    (filter_content_isUnclosed (parse source)).symm
  have hnodup : (tags.map fault).Nodup := by
    have hspans : (tags.map fun m => m.head.span).Nodup := by
      have hsub : tags.Sublist (parse source).content := by
        rw [htags]
        exact List.filter_sublist
      exact (content_spans_nodup hs).sublist (hsub.map _)
    exact List.Nodup.of_map Fault.span (by rw [List.map_map]; exact hspans)
  have hmem : fault n ∈ tags.map fault ↔ n.isUnclosed := by
    constructor
    · intro h
      obtain ⟨m, hm, he⟩ := List.mem_map.1 h
      rw [htags] at hm
      obtain ⟨hmc, hmu⟩ := List.mem_filter.1 hm
      have hspan : m.head.span = n.head.span := congrArg Fault.span he
      rwa [← List.inj_on_of_nodup_map (content_spans_nodup hs) hmc hn hspan]
    · intro h
      exact List.mem_map_of_mem (List.mem_filter.2 ⟨(List.mem_filter.1 hn).1, h⟩)
  have hrest : ((placed source).flatMap Placed.faults).count (fault n) = 0 := by
    rw [List.count_eq_zero]
    intro h
    obtain ⟨p, hp, hf⟩ := List.mem_flatMap.1 h
    rcases List.mem_append.1 hf with hf | hf
    · exact absurd (Markup.Item.isOwn_of_mem_faults hf) (by simp [fault, FaultKind.isOwn])
    · have := (kind_of_strayFault? (Option.mem_toList.1 hf)).1
      simp [fault] at this
  calc (parse source).faults.count (fault n)
      = (tags.map fault).count (fault n) := by
        rw [parse_faults, List.count_append, hrest, Nat.zero_add, unmatched_faults,
          List.count_reverse]
    _ = if fault n ∈ tags.map fault then 1 else 0 := hnodup.count
    _ = if n.isUnclosed then 1 else 0 := by simp only [hmem]

def isMismatch (f : Fault) : Bool :=
  match f.kind with
  | .mismatchedClosingTag _ => true
  | _ => false

lemma filter_isMismatch (source : Text) :
    (parse source).faults.filter isMismatch = (parse source).root.links.filterMap strayFault? := by
  rw [filter_parse_faults source isMismatch fun _ => rfl, parse_links, List.filterMap_map,
    List.filterMap_eq_flatMap_toList]
  apply List.flatMap_congr
  intro p _
  have hown : (p.item.faults p.pos).filter isMismatch = [] := by
    rw [List.filter_eq_nil_iff]
    intro f hf hm
    have := Markup.Item.isOwn_of_mem_faults hf
    cases hk : f.kind <;> simp_all [isMismatch, FaultKind.isOwn]
  have hstray : (strayFault? p.link).toList.filter isMismatch = (strayFault? p.link).toList := by
    rw [List.filter_eq_self]
    intro f hf
    rw [(kind_of_strayFault? (Option.mem_toList.1 hf)).1]
    rfl
  rw [hown, hstray]
  rfl

lemma spans_strayFault?_sublist (links : List (Head × Head)) :
    ((links.filterMap strayFault?).map Fault.span).Sublist (links.map fun l => l.2.span) := by
  induction links with
  | nil => exact List.Sublist.slnil
  | cons link links ih =>
    rw [List.filterMap_cons, List.map_cons]
    cases hf : strayFault? link with
    | none => exact ih.cons _
    | some f =>
      rw [(kind_of_strayFault? hf).1]
      exact ih.cons_cons _

lemma count_mismatched (hs : Text.size source < Word.bound) {top h : Head} {name : Option Text}
    (hl : (top, h) ∈ (parse source).root.links) (hk : h.kind = .endTag name) :
    (parse source).faults.count ⟨.mismatchedClosingTag [], h.span⟩ =
      if top.kind.isNameless ∧ name ≠ some [] then 1 else 0 := by
  let f : Fault := ⟨.mismatchedClosingTag [], h.span⟩
  let strays := (parse source).root.links.filterMap strayFault?
  have hnodup : strays.Nodup := List.Nodup.of_map Fault.span
    ((links_spans_nodup hs).sublist (spans_strayFault?_sublist _))
  have hmem : f ∈ strays ↔ top.kind.isNameless ∧ name ≠ some [] := by
    rw [List.mem_filterMap]
    constructor
    · rintro ⟨link, hlink, hf⟩
      obtain ⟨hfault, hnameless, name', hk', hname'⟩ := kind_of_strayFault? hf
      have hspan : link.2.span = h.span := (congrArg Fault.span hfault).symm
      have hlink' : link = (top, h) :=
        List.inj_on_of_nodup_map (links_spans_nodup hs) hlink hl hspan
      rw [hlink'] at hnameless hk'
      rw [hk] at hk'
      exact ⟨hnameless, NodeKind.endTag.inj hk' ▸ hname'⟩
    · intro hstray
      exact ⟨(top, h), hl, by rw [strayFault?_of_endTag hk, if_pos hstray]⟩
  calc (parse source).faults.count f
      = ((parse source).faults.filter isMismatch).count f := (List.count_filter rfl).symm
    _ = strays.count f := by rw [filter_isMismatch]
    _ = if f ∈ strays then 1 else 0 := hnodup.count
    _ = if top.kind.isNameless ∧ name ≠ some [] then 1 else 0 := by simp only [hmem]

lemma mem_nodes_cases {t : Template} {n : Node} (h : n ∈ t.nodes) :
    n = t.root ∨ n ∈ Node.preorders t.root.children := by
  rw [Template.nodes_eq, Node.preorder_eq] at h
  exact List.mem_cons.1 h

lemma end_tag_is_last {n : Node} (hn : n ∈ (parse source).nodes) {name : Text}
    {attributes : List Attribute} (hk : n.kind = .startTag name attributes) :
    ∀ c ∈ n.children.dropLast, c.kind ≠ .endTag (some name) := by
  obtain ⟨tags, hedge, -, -⟩ := parse_unclosed source
  intro c hc
  rcases mem_nodes_cases hn with rfl | hn
  · rw [Node.kind, parse_root_head] at hk
    cases hk
  rcases hedge.mem_cases hn with hsealed | ⟨name', attributes', below, hk', hother, -⟩
  · cases hsealed n (Node.mem_preorder_self n) with
    | closed hk' hchildren _ hinit =>
      rw [hk', NodeKind.startTag.injEq] at hk
      rw [hchildren, List.dropLast_concat] at hc
      exact hk.1 ▸ hinit c hc
    | leaf hk' _ => exact absurd hk (hk' _ _)
  · rw [hk', NodeKind.startTag.injEq] at hk
    exact hk.1 ▸ hother c (List.dropLast_subset _ hc)

lemma unclosed_is_last {p : Node} (hp : p ∈ (parse source).nodes) :
    (∀ c ∈ p.children.dropLast, c.isUnclosed = false) ∧
    ∀ c, p.children.getLast? = some c → c.isUnclosed → p.kind = .root ∨ p.isUnclosed := by
  obtain ⟨tags, hedge, -, -⟩ := parse_unclosed source
  rcases mem_nodes_cases hp with rfl | hp
  · refine ⟨fun c hc => hedge.not_isUnclosed_of_mem_dropLast hc, fun c _ _ => Or.inl ?_⟩
    rw [Node.kind, parse_root_head]
    rfl
  rcases hedge.mem_cases hp with hsealed | ⟨name, attributes, below, hk, hother, hbelow⟩
  · have hchildren : ∀ c ∈ p.children, c.isUnclosed = false := fun c hc =>
      (hsealed c (Node.mem_preorder_of_mem_children hc)).isUnclosed_eq
    refine ⟨fun c hc => hchildren c (List.dropLast_subset _ hc), fun c hc hu => ?_⟩
    rw [hchildren c (List.mem_of_getLast? hc)] at hu
    cases hu
  · refine ⟨fun c hc => hbelow.not_isUnclosed_of_mem_dropLast hc, fun c _ _ => Or.inr ?_⟩
    rw [Node.isUnclosed_of_startTag hk, Node.endsWith_eq_false hother]
    rfl

lemma unclosed_chain (source : Text) :
    ((parse source).root :: (parse source).nodes.filter Node.isUnclosed).IsChain
      fun p c => p.children.getLast? = some c := by
  obtain ⟨tags, hedge, htags, -⟩ := parse_unclosed source
  rw [htags]
  exact hedge.isChain rfl

/-- An open tag is reported, once, when its last child is not its end tag; these tags are a chain of
last children from the root. An end tag is reported, once, when it stands in a nameless tag without
closing it. No end tag is ever reported as unexpected. -/
theorem tag_faults_exact (source : Text) :
    (∀ f ∈ (parse source).faults, f.kind ≠ .unexpectedClosingTag) ∧
    (Text.size source < Word.bound →
      (∀ n ∈ (parse source).nodes, ∀ name attributes, n.kind = .startTag name attributes →
        (parse source).faults.count ⟨.unmatchedOpeningTag, n.head.span⟩ =
            (if n.endsWith name then 0 else 1) ∧
          ∀ c ∈ n.children.dropLast, c.kind ≠ .endTag (some name)) ∧
      (∀ f ∈ (parse source).faults, f.kind = .unmatchedOpeningTag →
        ∃ n ∈ (parse source).nodes, n.isUnclosed ∧ f.span = n.head.span) ∧
      (∀ p ∈ (parse source).nodes, (∀ c ∈ p.children.dropLast, c.isUnclosed = false) ∧
        ∀ c, p.children.getLast? = some c → c.isUnclosed → p.kind = .root ∨ p.isUnclosed) ∧
      ((parse source).root :: (parse source).nodes.filter Node.isUnclosed).IsChain
        (fun p c => p.children.getLast? = some c) ∧
      (∀ p ∈ (parse source).nodes, ∀ c ∈ p.children, ∀ name, c.kind = .endTag name →
        (parse source).faults.count ⟨.mismatchedClosingTag [], c.head.span⟩ =
          if p.kind.isNameless ∧ name ≠ some [] then 1 else 0) ∧
      (∀ f ∈ (parse source).faults, ∀ expected, f.kind = .mismatchedClosingTag expected →
        ∃ p ∈ (parse source).nodes, ∃ c ∈ p.children, ∃ name, p.kind.isNameless ∧
          c.kind = .endTag name ∧ name ≠ some [] ∧
            f = ⟨.mismatchedClosingTag [], c.head.span⟩)) := by
  refine ⟨?_, fun hs => ⟨?_, ?_, fun p hp => unclosed_is_last hp, unclosed_chain source, ?_, ?_⟩⟩
  · intro f hf hkind
    rcases mem_parse_faults hf with ⟨p, -, hp⟩ | ⟨link, -, hl⟩ | ⟨frame, -, rfl⟩
    · exact absurd (Markup.Item.isOwn_of_mem_faults hp) (by simp [hkind, FaultKind.isOwn])
    · rw [(kind_of_strayFault? hl).1] at hkind
      cases hkind
    · cases hkind
  · intro n hn name attributes hk
    refine ⟨?_, end_tag_is_last hn hk⟩
    rw [count_unmatched hs (mem_content_of_kind hn (by simp [hk])), Node.isUnclosed_of_startTag hk]
    cases n.endsWith name <;> rfl
  · intro f hf hkind
    rcases mem_parse_faults hf with ⟨p, -, hp⟩ | ⟨link, -, hl⟩ | ⟨frame, hframe, rfl⟩
    · exact absurd (Markup.Item.isOwn_of_mem_faults hp) (by simp [hkind, FaultKind.isOwn])
    · rw [(kind_of_strayFault? hl).1] at hkind
      cases hkind
    · obtain ⟨tags, -, htags, hheads⟩ := parse_unclosed source
      have hmem : frame.head ∈ tags.map Node.head := by
        rw [hheads, List.mem_reverse]
        exact List.mem_map_of_mem hframe
      obtain ⟨n, hn, hhead⟩ := List.mem_map.1 hmem
      rw [← htags] at hn
      obtain ⟨hn, hu⟩ := List.mem_filter.1 hn
      exact ⟨n, hn, hu, by rw [hhead]⟩
  · intro p hp c hc name hk
    rw [Template.nodes_eq] at hp
    exact count_mismatched hs ((Node.mem_links _ _).2 ⟨p, hp, c, hc, rfl⟩) hk
  · intro f hf expected hkind
    rcases mem_parse_faults hf with ⟨p, -, hp⟩ | ⟨link, hlink, hl⟩ | ⟨frame, -, rfl⟩
    · exact absurd (Markup.Item.isOwn_of_mem_faults hp) (by simp [hkind, FaultKind.isOwn])
    · obtain ⟨hfault, hnameless, name, hk, hname⟩ := kind_of_strayFault? hl
      obtain ⟨p, hp, c, hc, rfl⟩ := (Node.mem_links _ _).1 hlink
      rw [← Template.nodes_eq] at hp
      exact ⟨p, hp, c, hc, name, hnameless, hk, hname, hfault⟩
    · cases hkind

theorem tag_faults_in_nameless :
    Text.size ['<', 'a', '>', '<', '>', '<', '/', 'a', '>'] < Word.bound ∧
    (parse ['<', 'a', '>', '<', '>', '<', '/', 'a', '>']).faults =
      [⟨.invalidTagName, ⟨3, 5⟩⟩, ⟨.mismatchedClosingTag [], ⟨5, 9⟩⟩,
        ⟨.unmatchedOpeningTag, ⟨3, 3⟩⟩, ⟨.unmatchedOpeningTag, ⟨0, 3⟩⟩] ∧
    ((parse ['<', 'a', '>', '<', '>', '<', '/', 'a', '>']).root ::
      (parse ['<', 'a', '>', '<', '>', '<', '/', 'a', '>']).nodes.filter Node.isUnclosed).IsChain
        (fun p c => p.children.getLast? = some c) :=
  ⟨by decide, by decide +kernel, ((tag_faults_exact _).2 (by decide)).2.2.2.1⟩

end TemplateMarkup
