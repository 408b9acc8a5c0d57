import TemplateMarkup.Proofs.Template.Building

/-! Which tags are open while a tree is built, and from this the list of all faults. -/

namespace TemplateMarkup

open Markup (Item Piece Fault FaultKind)

def strayFault? (link : Head × Head) : Option Fault :=
  match link.2.kind with
  | .endTag name =>
    if link.1.kind.isNameless ∧ name ≠ some [] then some ⟨.mismatchedClosingTag [], link.2.span⟩
    else none
  | _ => none

lemma strayFault?_of_endTag {top h : Head} {name : Option Text} (hk : h.kind = .endTag name) :
    strayFault? (top, h) = if top.kind.isNameless ∧ name ≠ some [] then
      some ⟨.mismatchedClosingTag [], h.span⟩ else none := by
  simp only [strayFault?, hk]

lemma strayFault?_eq_none {top h : Head} (hk : ∀ name, h.kind ≠ .endTag name) :
    strayFault? (top, h) = none := by
  rw [strayFault?]
  split
  · exact absurd ‹_› (hk _)
  · rfl

lemma Markup.Piece.not_void_of_kind {piece : Piece} {id start : Nat} {name : Text}
    {attributes : List Attribute} (h : piece.kind id start = .startTag name attributes) :
    Markup.isVoid name = false := by
  cases piece with
  | nameless c =>
    simp only [kind, NodeKind.startTag.injEq] at h
    rw [← h.1]
    decide
  | tag written =>
    simp only [kind] at h
    split at h
    · cases h
    · rename_i hs
      simp only [NodeKind.startTag.injEq] at h
      simp only [Markup.WrittenTag.isSelfClosing, Bool.or_eq_true, not_or] at hs
      rw [← h.1]
      simpa using hs.2
  | _ => cases h

namespace Builder

structure Framed (b : Builder) : Prop where
  root_head : b.root.head = rootHead
  opened_kind : ∀ h ∈ b.opened.map Frame.head, ∃ name attributes,
    h.kind = .startTag name attributes ∧ Markup.isVoid name = false

@[simp] lemma append_heads (b : Builder) (n : Node) :
    (b.append n).opened.map Frame.head = b.opened.map Frame.head := by
  rw [append]
  split
  · rfl
  · rename_i f rest h
    rw [h]
    rfl

@[simp] lemma pop_heads (b : Builder) :
    b.pop.opened.map Frame.head = (b.opened.map Frame.head).tail := by
  rw [pop]
  split
  · rename_i h
    rw [h]
    rfl
  · rename_i f rest h
    rw [append_heads, h]
    rfl

variable {b d : Builder} {item : Item}

lemma framed_start : Framed start :=
  ⟨rfl, by simp [start]⟩

lemma Framed.step (hb : Framed b) (h : Step b item d) : Framed d := by
  refine ⟨h.root_head_eq.trans hb.root_head, ?_⟩
  cases h with
  | push hk =>
    intro head hh
    rcases List.mem_cons.1 hh with rfl | hh
    · exact ⟨_, _, hk, Piece.not_void_of_kind hk⟩
    · exact hb.opened_kind head hh
  | pop hk =>
    intro head hh
    rw [pop_heads, append_heads] at hh
    exact hb.opened_kind head (List.mem_of_mem_tail hh)
  | stray hk hn hv =>
    intro head hh
    rw [append_heads] at hh
    exact hb.opened_kind head hh
  | leaf hs he hv =>
    intro head hh
    rw [append_heads] at hh
    exact hb.opened_kind head hh

lemma Framed.current_cases (hb : Framed b) :
    (b.opened.isEmpty ∧ b.current.head = rootHead ∧ b.current.name = rootName) ∨
    (b.opened.isEmpty = false ∧ Markup.isVoid b.current.name = false ∧
      ∃ attributes, b.current.head.kind = .startTag b.current.name attributes) := by
  cases ho : b.opened with
  | nil =>
    have hc : b.current.head = rootHead := by simpa [current, ho] using hb.root_head
    exact Or.inl ⟨rfl, hc, by rw [Frame.name, hc]; rfl⟩
  | cons f rest =>
    obtain ⟨name, attributes, hk, hv⟩ := hb.opened_kind f.head (by simp [ho])
    have hc : b.current.head.kind = .startTag name attributes := by simpa [current, ho] using hk
    have hn : b.current.name = name := by simp [Frame.name, hc, NodeKind.name?]
    exact Or.inr ⟨rfl, hn ▸ hv, attributes, hn ▸ hc⟩

lemma Framed.isNameless_current (hb : Framed b) :
    b.current.head.kind.isNameless = b.current.name.isEmpty := by
  rcases hb.current_cases with ⟨-, hc, hn⟩ | ⟨-, -, attributes, hc⟩
  · rw [hc, hn]
    decide
  · rw [hc]
    rfl

lemma Framed.name_eq_nil (hb : Framed b)
    (hv : (b.current.name.isEmpty || Markup.isVoid b.current.name) = true) :
    b.opened.isEmpty = false ∧ b.current.name = [] := by
  rcases hb.current_cases with ⟨-, -, hn⟩ | ⟨ho, hvoid, -⟩
  · rw [hn] at hv
    exact absurd hv (by decide)
  · rw [hvoid, Bool.or_false, List.isEmpty_iff] at hv
    exact ⟨ho, hv⟩

lemma Framed.faults_eq (hb : Framed b) (h : Step b item d) :
    d.faults = (strayFault? (b.current.head, b.nextHead item)).toList ++
      ((item.faults b.offset).reverse ++ b.faults) := by
  have hname : b.current.head.kind.isNameless ↔ b.current.name = [] := by
    rw [hb.isNameless_current, List.isEmpty_iff]
  cases h with
  | push hk =>
    rw [strayFault?_eq_none fun name => by simp [hk]]
    rfl
  | pop hk =>
    have hnot : ¬ (b.current.head.kind.isNameless ∧ some b.current.name ≠ some []) := by
      rintro ⟨hn, hne⟩
      exact hne (by rw [hname.1 hn])
    rw [strayFault?_of_endTag hk, if_neg hnot, pop_faults, append_faults]
    rfl
  | stray hk hn hv =>
    obtain ⟨ho, hempty⟩ := hb.name_eq_nil hv
    rw [hempty] at hn
    simp only [ho, hempty, Bool.false_eq_true, if_false]
    rw [strayFault?_of_endTag hk, if_pos ⟨hname.2 hempty, hn⟩]
    rfl
  | leaf hs he hv =>
    rw [append_faults]
    by_cases hend : ∃ name, (b.nextHead item).kind = .endTag name
    · obtain ⟨name, hk⟩ := hend
      have hne : ¬ b.current.head.kind.isNameless := by
        intro hn
        simpa [hname.1 hn] using hv name hk
      rw [strayFault?_of_endTag hk, if_neg fun h => hne h.1]
      rfl
    · rw [strayFault?_eq_none fun name hk => hend ⟨name, hk⟩]
      rfl

end Builder

def Placed.faults (p : Placed) : List Fault :=
  p.item.faults p.pos ++ (strayFault? p.link).toList

namespace Builder

lemma faults_foldl (found : List Item) (b : Builder) (hb : Framed b) :
    (found.foldl add b).faults.reverse =
      b.faults.reverse ++ (b.placed found).flatMap Placed.faults := by
  induction found generalizing b with
  | nil => simp
  | cons item found ih =>
    have hstep := add_step b item
    have hlast : (strayFault? (b.current.head, b.nextHead item)).toList.reverse =
        (strayFault? (b.current.head, b.nextHead item)).toList := by
      cases strayFault? (b.current.head, b.nextHead item) <;> rfl
    rw [List.foldl_cons, ih (b.add item) (hb.step hstep), hb.faults_eq hstep, placed,
      List.flatMap_cons, List.reverse_append, List.reverse_append, List.reverse_reverse, hlast]
    simp [Placed.faults, Placed.link, Placed.head, nextHead]

end Builder

lemma built_framed (source : Text) : (built source).Framed :=
  built_induction Builder.framed_start (fun _ _ _ hb h => hb.step h) source

lemma parse_faults (source : Text) : (parse source).faults =
    (placed source).flatMap Placed.faults ++
      (built source).opened.map fun f => ⟨.unmatchedOpeningTag, f.head.span⟩ := by
  have h := Builder.faults_foldl (Markup.items source) Builder.start Builder.framed_start
  exact congrArg (· ++ (built source).opened.map fun f => ⟨.unmatchedOpeningTag, f.head.span⟩) h

namespace Markup

def FaultKind.isOwn : FaultKind → Bool
  | mismatchedClosingTag _ => false
  | unexpectedClosingTag => false
  | unmatchedOpeningTag => false
  | _ => true

lemma WrittenAttribute.isOwn_of_mem_faults {as : List WrittenAttribute} {pos : Nat} {f : Fault}
    (h : f ∈ faults pos as) : f.kind.isOwn := by
  induction as generalizing pos with
  | nil => cases h
  | cons a as ih =>
    rcases List.mem_append.1 h with h | h
    · rw [Option.mem_toList, fault?] at h
      split at h
      · cases h
      · obtain rfl := Option.some.inj h
        rfl
      · split at h
        · obtain rfl := Option.some.inj h
          rfl
        · cases h
    · exact ih h

lemma Item.isOwn_of_mem_faults {item : Item} {pos : Nat} {f : Fault} (h : f ∈ item.faults pos) :
    f.kind.isOwn := by
  simp only [Item.faults, Piece.faults] at h
  cases hp : item.piece with
  | tag written =>
    simp only [hp, WrittenTag.faults, List.mem_append] at h
    rcases h with h | h
    · exact WrittenAttribute.isOwn_of_mem_faults h
    · split at h
      · split at h
        · cases h
        · obtain rfl := List.mem_singleton.1 h
          rfl
      · cases h
      · obtain rfl := List.mem_singleton.1 h
        rfl
  | nameless c =>
    simp only [hp] at h
    obtain rfl := List.mem_singleton.1 h
    rfl
  | endTag run =>
    simp only [hp] at h
    split at h
    · cases h
    · obtain rfl := List.mem_singleton.1 h
      rfl
  | interpolation run =>
    simp only [hp] at h
    split at h
    · cases h
    · obtain rfl := List.mem_singleton.1 h
      rfl
  | comment run => simp [hp] at h
  | text cs => simp [hp] at h

end Markup

lemma kind_of_strayFault? {link : Head × Head} {f : Fault} (h : strayFault? link = some f) :
    f = ⟨.mismatchedClosingTag [], link.2.span⟩ ∧ link.1.kind.isNameless ∧
      ∃ name, link.2.kind = .endTag name ∧ name ≠ some [] := by
  rw [strayFault?] at h
  split at h
  · rename_i name hk
    split at h
    · rename_i hn
      exact ⟨(Option.some.inj h).symm, hn.1, name, hk, hn.2⟩
    · cases h
  · cases h

lemma mem_parse_faults {source : Text} {f : Fault} (h : f ∈ (parse source).faults) :
    (∃ p ∈ placed source, f ∈ p.item.faults p.pos) ∨
    (∃ link ∈ (parse source).root.links, strayFault? link = some f) ∨
    ∃ frame ∈ (built source).opened, f = ⟨.unmatchedOpeningTag, frame.head.span⟩ := by
  rw [parse_faults] at h
  rcases List.mem_append.1 h with h | h
  · obtain ⟨p, hp, hf⟩ := List.mem_flatMap.1 h
    rcases List.mem_append.1 hf with hf | hf
    · exact Or.inl ⟨p, hp, hf⟩
    · refine Or.inr (Or.inl ⟨p.link, ?_, by simpa using hf⟩)
      rw [parse_links]
      exact List.mem_map_of_mem hp
  · obtain ⟨frame, hframe, rfl⟩ := List.mem_map.1 h
    exact Or.inr (Or.inr ⟨frame, hframe, rfl⟩)

lemma filter_parse_faults (source : Text) (keep : Fault → Bool)
    (hopen : ∀ span, keep ⟨.unmatchedOpeningTag, span⟩ = false) :
    (parse source).faults.filter keep = (placed source).flatMap fun p =>
      (p.item.faults p.pos).filter keep ++ (strayFault? p.link).toList.filter keep := by
  have hlast : ((built source).opened.map fun f =>
      (⟨.unmatchedOpeningTag, f.head.span⟩ : Fault)).filter keep = [] := by
    simp [hopen]
  rw [parse_faults, List.filter_append, hlast, List.append_nil, List.filter_flatMap]
  exact List.flatMap_congr fun p _ => by rw [Placed.faults, List.filter_append]

end TemplateMarkup
