import TemplateMarkup.Project.CheckedFile
import TemplateMarkup.Proofs.Template.TagMatching

namespace TemplateMarkup

open Markup (Item Piece Fault FaultKind WrittenAttribute WrittenTag)

namespace Markup

structure Fault.EndIn (lo hi : Nat) (fs : List Fault) : Prop where
  bounds : ∀ f ∈ fs, lo ≤ f.span.stop ∧ f.span.stop ≤ hi
  sorted : fs.Pairwise fun f g => f.span.stop ≤ g.span.stop

namespace Fault.EndIn

variable {lo mid hi : Nat} {fs gs : List Fault}

lemma nil (lo hi : Nat) : EndIn lo hi [] :=
  ⟨List.forall_mem_nil _, List.Pairwise.nil⟩

lemma singleton {f : Fault} (hlo : lo ≤ f.span.stop) (hhi : f.span.stop ≤ hi) : EndIn lo hi [f] :=
  ⟨List.forall_mem_singleton.2 ⟨hlo, hhi⟩, List.pairwise_singleton _ f⟩

lemma ofOffsets {kind : FaultKind} {start : Nat} (hle : lo ≤ hi) (h : hi < Word.bound) :
    EndIn lo hi [⟨kind, Span.ofOffsets start hi⟩] := by
  have hstop : (Span.ofOffsets start hi).stop = hi := Word.wrap_of_lt h
  apply singleton
  · rw [hstop]
    exact hle
  · rw [hstop]

lemma mono {lo' hi' : Nat} (h : EndIn lo hi fs) (hlo : lo' ≤ lo) (hhi : hi ≤ hi') :
    EndIn lo' hi' fs := by
  refine ⟨fun f hf => ?_, h.sorted⟩
  obtain ⟨hl, hh⟩ := h.bounds f hf
  exact ⟨hlo.trans hl, hh.trans hhi⟩

lemma append (hf : EndIn lo mid fs) (hg : EndIn mid hi gs) (hlo : lo ≤ mid) (hhi : mid ≤ hi) :
    EndIn lo hi (fs ++ gs) := by
  constructor
  · refine List.forall_mem_append.2 ?_
    exact ⟨(hf.mono (Nat.le_refl lo) hhi).bounds, (hg.mono hlo (Nat.le_refl hi)).bounds⟩
  · apply List.pairwise_append.2
    refine ⟨hf.sorted, hg.sorted, fun f hmem g hmem' => ?_⟩
    exact (hf.bounds f hmem).2.trans (hg.bounds g hmem').1

end Fault.EndIn

lemma WrittenAttribute.endIn_fault? {pos : Nat} {a : WrittenAttribute}
    (h : pos + Text.size a.chars < Word.bound) :
    Fault.EndIn pos (pos + Text.size a.chars) (a.fault? pos).toList := by
  have hle : pos ≤ pos + Text.size a.chars := Nat.le_add_right ..
  rw [fault?]
  split
  · exact .nil _ _
  · exact .ofOffsets hle h
  · split
    · exact .ofOffsets hle h
    · exact .nil _ _

lemma WrittenAttribute.endIn_faults {pos : Nat} {as : List WrittenAttribute}
    (h : pos + Text.size (as.flatMap chars) < Word.bound) :
    Fault.EndIn pos (pos + Text.size (as.flatMap chars)) (faults pos as) := by
  induction as generalizing pos with
  | nil => exact .nil _ _
  | cons a as ih =>
    rw [List.flatMap_cons, Text.size_append, ← Nat.add_assoc] at h ⊢
    apply Fault.EndIn.append (endIn_fault? (by omega)) (ih h)
    · exact Nat.le_add_right ..
    · exact Nat.le_add_right ..

lemma WrittenTag.endIn_faults {start : Nat} {tag : WrittenTag}
    (h : start + 1 + Text.size tag.chars < Word.bound) :
    Fault.EndIn start (start + 1 + Text.size tag.chars) (tag.faults start) := by
  have hsize : Text.size tag.chars = Text.size tag.name +
      Text.size (tag.attributes.flatMap WrittenAttribute.chars) + Text.size tag.gap +
        Text.size tag.ending.chars := by
    rw [chars, Text.size_append, Text.size_append, Text.size_append]
  have hattributes : Fault.EndIn (start + 1 + Text.size tag.name) _
      (WrittenAttribute.faults (start + 1 + Text.size tag.name) tag.attributes) :=
    WrittenAttribute.endIn_faults (by omega)
  rw [faults]
  -- A fault of the ending reaches to the end of the tag, past all attributes.
  apply Fault.EndIn.append (hattributes.mono (by omega) (Nat.le_refl _)) _ (by omega) (by omega)
  split
  · split
    · exact .nil _ _
    · exact .ofOffsets (by omega) h
  · exact .nil _ _
  · exact .ofOffsets (by omega) h

lemma Piece.endIn_faults {start : Nat} {piece : Piece}
    (h : start + Text.size piece.chars < Word.bound) :
    Fault.EndIn start (start + Text.size piece.chars) (piece.faults start) := by
  have hwhole (kind : FaultKind) : Fault.EndIn start (start + Text.size piece.chars)
      [⟨kind, Span.ofOffsets start (start + Text.size piece.chars)⟩] :=
    .ofOffsets (Nat.le_add_right ..) h
  cases piece with
  | comment run => exact .nil _ _
  | text cs => exact .nil _ _
  | nameless taken => exact hwhole _
  | endTag run =>
    rw [faults]
    split
    · exact .nil _ _
    · exact hwhole _
  | interpolation run =>
    rw [faults]
    split
    · exact .nil _ _
    · exact hwhole _
  | tag written =>
    have hsize : Text.size (tag written).chars = 1 + Text.size written.chars := rfl
    rw [hsize, ← Nat.add_assoc] at h ⊢
    exact WrittenTag.endIn_faults h

end Markup

variable {source : Text}

lemma Placed.endIn_faults {p : Placed} (h : p ∈ placed source) (hs : Text.size source < Word.bound) :
    Fault.EndIn p.pos p.stop p.faults := by
  have hstop := stop_le_of_mem_placed h
  have hsize := p.start_add_size
  have hitem : Fault.EndIn p.pos p.stop (p.item.faults p.pos) := by
    have hpiece : Fault.EndIn p.start _ (p.item.piece.faults p.start) := Piece.endIn_faults (by omega)
    rw [hsize] at hpiece
    exact hpiece.mono (Nat.le_add_right ..) (Nat.le_refl _)
  have hle : p.pos ≤ p.stop := Nat.le_add_right ..
  apply hitem.append _ hle (Nat.le_refl _)
  cases hf : strayFault? p.link with
  | none => exact .nil _ _
  | some f =>
    obtain ⟨rfl, -, name, hk, -⟩ := kind_of_strayFault? hf
    have hreach := reach_eq h hs
    rw [Head.reach, if_neg (by simp [show p.head.kind = .endTag name from hk, NodeKind.isNameless])]
      at hreach
    exact .singleton (Nat.le_of_eq hreach.symm) (Nat.le_of_eq hreach)

lemma placed_faults_sorted (hs : Text.size source < Word.bound) :
    ((placed source).flatMap Placed.faults).Pairwise fun f g => f.span.stop ≤ g.span.stop := by
  apply List.pairwise_flatMap.2
  refine ⟨fun p hp => (p.endIn_faults hp hs).sorted, ?_⟩
  apply (placed_pairwise source).imp_of_mem
  intro p q hp hq hpq f hf g hg
  have hstop := ((p.endIn_faults hp hs).bounds f hf).2
  have hpos := ((q.endIn_faults hq hs).bounds g hg).1
  exact hstop.trans (hpq.stop_le.trans hpos)

lemma content_starts_increase (hs : Text.size source < Word.bound) :
    ((parse source).content.map fun n => n.head.span.start).Pairwise (· < ·) := by
  have hincrease := placed_starts_increase hs
  rw [List.pairwise_map] at hincrease ⊢
  exact pairwise_content (R := fun g h => g.span.start < h.span.start) hincrease

lemma opened_starts_decrease (hs : Text.size source < Word.bound) :
    ((built source).opened.map fun f => (⟨.unmatchedOpeningTag, f.head.span⟩ : Fault)).Pairwise
      fun f g => g.span.start < f.span.start := by
  rw [unmatched_faults, List.pairwise_reverse, List.pairwise_map, ← filter_content_isUnclosed]
  have hincrease := content_starts_increase hs
  rw [List.pairwise_map] at hincrease
  exact hincrease.sublist List.filter_sublist

/-- Those that are not unmatched tags come first, by where they end, and then the unmatched tags, from the
last one in the source to the first. -/
def IsOrdered {α : Type} (span : α → Span) (isUnmatched : α → Prop) (found : List α) : Prop :=
  ∃ others unmatched, found = others ++ unmatched ∧
    ((∀ a ∈ others, ¬ isUnmatched a) ∧
      others.Pairwise fun a b => (span a).stop ≤ (span b).stop) ∧
    (∀ a ∈ unmatched, isUnmatched a) ∧
      unmatched.Pairwise fun a b => (span b).start < (span a).start

lemma IsOrdered.map {α β : Type} {span : α → Span} {isUnmatched : α → Prop} {found : List α}
    {span' : β → Span} {isUnmatched' : β → Prop} {f : α → β} (h : IsOrdered span isUnmatched found)
    (hspan : ∀ a, span' (f a) = span a) (hunmatched : ∀ a, isUnmatched' (f a) ↔ isUnmatched a) :
    IsOrdered span' isUnmatched' (found.map f) := by
  obtain ⟨others, unmatched, rfl, ⟨hothers, hstops⟩, hall, hstarts⟩ := h
  refine ⟨others.map f, unmatched.map f, List.map_append, ⟨?_, ?_⟩, ?_, ?_⟩
  · refine List.forall_mem_map.2 ?_
    exact fun a ha hu => hothers a ha ((hunmatched a).1 hu)
  · simpa only [List.pairwise_map, hspan] using hstops
  · refine List.forall_mem_map.2 ?_
    exact fun a ha => (hunmatched a).2 (hall a ha)
  · simpa only [List.pairwise_map, hspan] using hstarts

lemma Markup.FaultKind.code_eq_unmatched_iff (kind : FaultKind) :
    kind.code = unmatchedOpeningTag.code ↔ kind = unmatchedOpeningTag := by
  refine ⟨fun h => ?_, fun h => h ▸ rfl⟩
  cases kind with
  | unmatchedOpeningTag => rfl
  | invalidSelfClosing name =>
    have hne : "invalid-self-closing".toList ≠ unmatchedOpeningTag.code := by decide
    exact absurd h hne
  | mismatchedClosingTag expected =>
    have hne : "mismatched-closing-tag".toList ≠ unmatchedOpeningTag.code := by decide
    exact absurd h hne
  | _ => exact absurd h (by decide)

lemma placed_faults_matched {f : Fault} (h : f ∈ (placed source).flatMap Placed.faults) :
    f.kind ≠ .unmatchedOpeningTag := by
  obtain ⟨p, -, hf⟩ := List.mem_flatMap.1 h
  intro hkind
  rcases List.mem_append.1 hf with hf | hf
  · exact absurd (Markup.Item.isOwn_of_mem_faults hf) (by simp [hkind, FaultKind.isOwn])
  · rw [(kind_of_strayFault? (Option.mem_toList.1 hf)).1] at hkind
    cases hkind

/-- The faults of a template, and so the diagnostics of its source, are those of its pieces by where they
end, and after them the tags that nothing closes, from the last one to the first. -/
theorem faults_ordered (source : Text) (hs : Text.size source < Word.bound) :
    IsOrdered Fault.span (fun f => f.kind = .unmatchedOpeningTag) (parse source).faults ∧
    (Project.diagnose source).1 = (parse source).faults.map Report.Diagnostic.ofFault ∧
    IsOrdered Report.Diagnostic.span (fun d => d.code = FaultKind.unmatchedOpeningTag.code)
      (Project.diagnose source).1 := by
  have hordered : IsOrdered Fault.span (fun f => f.kind = .unmatchedOpeningTag)
      (parse source).faults := by
    refine ⟨_, _, parse_faults source, ⟨fun f hf => placed_faults_matched hf,
      placed_faults_sorted hs⟩, ?_, opened_starts_decrease hs⟩
    exact List.forall_mem_map.2 fun f _ => rfl
  refine ⟨hordered, rfl, hordered.map (fun f => rfl) fun f => ?_⟩
  exact f.kind.code_eq_unmatched_iff

theorem faults_ordered_nested :
    Text.size ['<', 'a', '>', '<', 'b', ' ', 'c', '=', '/', '>', '<', '>'] < Word.bound ∧
    (parse ['<', 'a', '>', '<', 'b', ' ', 'c', '=', '/', '>', '<', '>']).faults =
      [⟨.unrecognizedAttributeValue, ⟨8, 8⟩⟩, ⟨.invalidSelfClosing ['b'], ⟨3, 10⟩⟩,
        ⟨.invalidTagName, ⟨10, 12⟩⟩, ⟨.unmatchedOpeningTag, ⟨10, 10⟩⟩,
        ⟨.unmatchedOpeningTag, ⟨0, 3⟩⟩] ∧
    IsOrdered Fault.span (fun f => f.kind = .unmatchedOpeningTag)
      (parse ['<', 'a', '>', '<', 'b', ' ', 'c', '=', '/', '>', '<', '>']).faults :=
  ⟨by decide, by decide +kernel, (faults_ordered _ (by decide)).1⟩

end TemplateMarkup
