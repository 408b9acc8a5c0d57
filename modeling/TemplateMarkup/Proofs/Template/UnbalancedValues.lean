import TemplateMarkup.Proofs.Template.BalancedValues

namespace TemplateMarkup

variable {source value : Text} {start : Nat} {i : Interpolation}

namespace Interpolation

lemma exists_inside (h : i.IsPaired start value ∨ i.IsCrossed start value) : i.text <:+: value ∧
    start ≤ i.span.start ∧ i.span.start ≤ i.span.stop ∧ i.span.stop ≤ start + Text.size value := by
  rcases h with ⟨before, inner, after, rfl, htext, hspan⟩ | ⟨early, after, rfl, hspan⟩
  · refine ⟨⟨before, after, ?_⟩, ?_⟩
    · rw [htext]
      simp only [List.append_assoc]
    · rw [hspan]
      simp only [Text.size_append]
      omega
  · refine ⟨⟨early ++ closeMark, openMark ++ after, ?_⟩, ?_⟩
    · simp only [List.append_assoc]
    · rw [hspan, Span.empty]
      simp only [Text.size_append]
      omega

lemma IsPaired.shows (h : i.IsPaired start value)
    (hslice : Text.slice? start (start + Text.size value) source = some value) :
    ∃ expression, i.Shows source expression := by
  obtain ⟨before, inner, after, rfl, htext, hspan⟩ := h
  obtain ⟨front, back, rfl, hfront, -⟩ := Text.slice?_eq_some_iff.1 hslice
  refine ⟨inner, htext, ?_⟩
  rw [hspan]
  refine Text.slice?_eq_some_iff.2 ⟨front ++ (before ++ openMark), closeMark ++ after ++ back, ?_, ?_, ?_⟩
  · simp only [List.append_assoc]
  · rw [Text.size_append, hfront]
  · simp only [Text.size_append]
    omega

end Interpolation

/-- The search of a value has one outcome, which every cut allows. It has at most as many interpolations as
there is room for opening marks; they end at offsets that never increase, each inside the value, and show what
stands there or lie between two marks the wrong way round. -/
theorem value_interpolations_faithful (source : Text) (hs : Text.size source < Word.bound) :
    ∀ n ∈ (parse source).nodes, ∀ a ∈ n.attributes, ∀ value, a.value = some value →
      ∃ start, a.valueStart = some start ∧ start + Text.size value ≤ Text.size source ∧
        (∀ found, Interpolation.Searches start value value found ↔ found = a.interpolations) ∧
        a.interpolations.length ≤ Text.size value / 2 ∧
        (∀ i ∈ a.interpolations, i.text <:+: value ∧
          start ≤ i.span.start ∧ i.span.start ≤ i.span.stop ∧
            i.span.stop ≤ start + Text.size value ∧
              ((∃ expression, i.Shows source expression) ∨ i.IsCrossed start value)) ∧
        a.interpolations.Pairwise fun i j => j.span.stop ≤ i.span.stop := by
  intro n hn a ha value hvalue
  obtain ⟨start, hstart, hslice⟩ := (attribute_isIn hs hn ha).value_eq value hvalue
  have hfound : a.interpolations = Interpolation.inValue start value := by
    rw [Attribute.interpolations, hvalue, hstart]
  rw [hfound]
  refine ⟨start, hstart, ?_, fun found => ⟨fun h => ?_, ?_⟩, ?_, fun i hi => ?_,
    Interpolation.stops_inValue start value⟩
  · exact (Span.within_of_slice? (s := ⟨start, start + Text.size value⟩) hslice).stop_le_size
  · exact h.unique (Interpolation.searches_inValue start value [] (List.append_nil value).symm)
  · rintro rfl
    exact Interpolation.searches_inValue start value [] (List.append_nil value).symm
  · have := Interpolation.length_inValue_le start value
    omega
  · have h := Interpolation.isPaired_or_isCrossed_of_mem hi
    obtain ⟨htext, hlow, hle, hhigh⟩ := Interpolation.exists_inside h
    exact ⟨htext, hlow, hle, hhigh, h.imp_left fun h => h.shows hslice⟩

theorem value_interpolations_faithful_odd_braces :
    Text.size ['<', 'a', ' ', 'x', '=', '"', '}', '}', 'é', '{', '{', '{', '{', 'b', '}', '}', '}', '{',
      '{', '"', '>'] < Word.bound ∧
    ∃ n ∈ (parse ['<', 'a', ' ', 'x', '=', '"', '}', '}', 'é', '{', '{', '{', '{', 'b', '}', '}', '}',
      '{', '{', '"', '>']).nodes, ∃ a ∈ n.attributes,
      a.interpolations = [⟨[], ⟨16, 16⟩⟩, ⟨['{', '{', 'b', '}', '}', '}'], ⟨14, 16⟩⟩, ⟨['é'], ⟨6, 6⟩⟩] ∧
      a.interpolations.Pairwise fun i j => j.span.stop ≤ i.span.stop := by
  have hfound : ∃ n ∈ (parse ['<', 'a', ' ', 'x', '=', '"', '}', '}', 'é', '{', '{', '{', '{', 'b', '}',
      '}', '}', '{', '{', '"', '>']).nodes, ∃ a ∈ n.attributes,
      a.value = some ['}', '}', 'é', '{', '{', '{', '{', 'b', '}', '}', '}', '{', '{'] ∧
      a.interpolations = [⟨[], ⟨16, 16⟩⟩, ⟨['{', '{', 'b', '}', '}', '}'], ⟨14, 16⟩⟩,
        ⟨['é'], ⟨6, 6⟩⟩] := by decide +kernel
  obtain ⟨n, hn, a, ha, hvalue, hinterpolations⟩ := hfound
  obtain ⟨start, -, -, -, -, -, hstops⟩ :=
    value_interpolations_faithful _ (by decide) n hn a ha _ hvalue
  exact ⟨by decide, n, hn, a, ha, hinterpolations, hstops⟩

end TemplateMarkup
