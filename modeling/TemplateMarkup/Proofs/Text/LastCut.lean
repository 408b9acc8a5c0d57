import TemplateMarkup.Proofs.Text.Cut

/-! The last occurrence of a mark in a text, and two marks of which none can begin inside the other. -/

namespace TemplateMarkup.Text

variable {mark cs before after front : Text} {offset : Nat} {c d : Char}

structure LastAt (mark cs : Text) (offset : Nat) : Prop where
  occurs : ∃ before after, cs = before ++ mark ++ after ∧ size before = offset
  latest : ∀ before after, cs = before ++ mark ++ after → size before ≤ offset

lemma LastAt.infix (h : LastAt mark cs offset) : mark <:+: cs := by
  obtain ⟨before, after, rfl, -⟩ := h.occurs
  exact ⟨before, after, rfl⟩

lemma LastAt.unique {offset' : Nat} (h : LastAt mark cs offset) (h' : LastAt mark cs offset') :
    offset = offset' := by
  obtain ⟨before, after, hcs, rfl⟩ := h.occurs
  obtain ⟨before', after', hcs', rfl⟩ := h'.occurs
  exact Nat.le_antisymm (h'.latest before after hcs) (h.latest before' after' hcs')

lemma cutLast_eq_none_iff : cutLast mark cs = none ↔ ¬ mark <:+: cs := by
  rw [cutLast, Option.map_eq_none_iff, cutPast_eq_none_iff, List.reverse_infix]

lemma cutLast_append (h : c ∉ after) :
    cutLast [c, c] (before ++ [c, c] ++ after) = some (before, after) := by
  have hends : EndsFirst [c, c] after.reverse := by
    refine endsFirst_double (fun hin => h ?_) fun hlast => h ?_
    · exact List.mem_reverse.1 (hin.subset (List.mem_cons_self ..))
    · exact List.mem_reverse.1 (List.mem_of_getLast? hlast)
  have hreverse : (before ++ [c, c] ++ after).reverse =
      after.reverse ++ [c, c].reverse ++ before.reverse := by simp
  rw [cutLast, hreverse, show [c, c].reverse = [c, c] from rfl, cutPast_append hends]
  simp

lemma cutLast_of_not_mem (h : c ∉ cs) : cutLast [c, c] cs = none :=
  cutLast_eq_none_iff.2 fun hin => h (hin.subset (List.mem_cons_self ..))

lemma lastAt_of_cutLast (h : cutLast mark cs = some (before, after)) :
    LastAt mark cs (size before) := by
  refine ⟨⟨before, after, eq_of_cutLast h, rfl⟩, fun before' after' hcs => ?_⟩
  obtain ⟨⟨body, rest⟩, hcut, he⟩ := Option.map_eq_some_iff.1 h
  obtain ⟨rfl, rfl⟩ := Prod.mk.inj he
  have hreverse : cs.reverse = after'.reverse ++ (mark.reverse ++ before'.reverse) := by
    simp [hcs]
  generalize cs.reverse = ds at hcut hreverse
  cases cutsPast_of_cutPast hcut with
  | closed hfirst =>
    rw [size_reverse]
    obtain ⟨more, -, hmore⟩ | ⟨more, hbody, hmore⟩ := List.append_eq_append_iff.1 hreverse
    · have hsize := congrArg size hmore
      simp only [size_append, size_reverse] at hsize
      omega
    · cases more with
      | nil =>
        have hsize := congrArg size hmore
        simp only [List.nil_append, size_append, size_reverse] at hsize
        omega
      | cons c more => exact absurd ⟨_, hmore⟩ (hfirst.earlier _ c more hbody)

lemma LastAt.append_left (h : LastAt mark cs offset) (front : Text) :
    LastAt mark (front ++ cs) (size front + offset) := by
  obtain ⟨before, after, hcs, hsize⟩ := h.occurs
  refine ⟨⟨front ++ before, after, ?_, ?_⟩, fun before' after' hsplit => ?_⟩
  · rw [hcs]
    simp only [List.append_assoc]
  · rw [size_append, hsize]
  · rw [List.append_assoc] at hsplit
    obtain ⟨more, rfl, hmore⟩ | ⟨more, rfl, -⟩ := List.append_eq_append_iff.1 hsplit
    · have hle := h.latest more after' (by rw [hmore, List.append_assoc])
      rw [size_append]
      omega
    · rw [size_append]
      omega

lemma exists_of_double_append {mid back : Text} (hne : c ≠ d)
    (h : c :: c :: after = mid ++ d :: d :: back) :
    ∃ more, mid = [c, c] ++ more ∧ after = more ++ [d, d] ++ back := by
  obtain ⟨-, hd⟩ | ⟨tail, rfl, htail⟩ := List.cons_eq_append_iff.1 h
  · exact absurd (List.cons.inj hd).1.symm hne
  obtain ⟨-, hd⟩ | ⟨more, rfl, hmore⟩ := List.cons_eq_append_iff.1 htail
  · exact absurd (List.cons.inj hd).1.symm hne
  · exact ⟨more, rfl, by rw [hmore, List.append_assoc]; rfl⟩

lemma doubles_apart {back : Text} (hne : c ≠ d)
    (h : before ++ [c, c] ++ after = front ++ [d, d] ++ back) :
    (∃ mid, before = front ++ [d, d] ++ mid) ∨ ∃ mid, after = mid ++ [d, d] ++ back := by
  rw [List.append_assoc, List.append_assoc] at h
  obtain ⟨mid, -, hmid⟩ | ⟨mid, hbefore, hmid⟩ := List.append_eq_append_iff.1 h
  · obtain ⟨more, -, hafter⟩ := exists_of_double_append hne hmid
    exact Or.inr ⟨more, hafter⟩
  · obtain ⟨more, rfl, -⟩ := exists_of_double_append hne.symm hmid
    exact Or.inl ⟨more, by rw [hbefore, List.append_assoc]⟩

lemma not_double_infix (hne : c ≠ d) (hbefore : ¬ [d, d] <:+: before) (hafter : ¬ [d, d] <:+: after) :
    ¬ [d, d] <:+: before ++ [c, c] ++ after := by
  rintro ⟨front, back, h⟩
  rcases doubles_apart hne h.symm with ⟨mid, rfl⟩ | ⟨mid, rfl⟩
  · exact hbefore ⟨front, mid, rfl⟩
  · exact hafter ⟨mid, back, rfl⟩

lemma LastAt.append_right (h : LastAt [d, d] before offset) (hne : c ≠ d)
    (hafter : ¬ [d, d] <:+: after) : LastAt [d, d] (before ++ [c, c] ++ after) offset := by
  obtain ⟨front, back, hbefore, hsize⟩ := h.occurs
  refine ⟨⟨front, back ++ ([c, c] ++ after), ?_, hsize⟩, fun front' back' hsplit => ?_⟩
  · rw [hbefore]
    simp only [List.append_assoc]
  · rcases doubles_apart hne hsplit with ⟨mid, rfl⟩ | ⟨mid, rfl⟩
    · exact h.latest front' mid rfl
    · exact absurd ⟨mid, back', rfl⟩ hafter

end TemplateMarkup.Text
