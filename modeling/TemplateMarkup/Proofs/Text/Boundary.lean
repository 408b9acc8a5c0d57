import Mathlib.Data.List.Infix
import TemplateMarkup.Source.Span

/-! A span between two character boundaries has a length, is a range, and cuts a text of that length out. -/

namespace TemplateMarkup

namespace Text

def IsBoundary (cs : Text) (offset : Nat) : Prop :=
  ∃ before after, cs = before ++ after ∧ size before = offset

lemma isBoundary_append (before after : Text) : IsBoundary (before ++ after) (size before) :=
  ⟨before, after, rfl, rfl⟩

lemma IsBoundary.le_size {cs : Text} {offset : Nat} (h : IsBoundary cs offset) :
    offset ≤ size cs := by
  obtain ⟨before, after, rfl, rfl⟩ := h
  rw [size_append]
  exact Nat.le_add_right ..

lemma prefix_of_size_le {first second cs : Text} (hf : first <+: cs) (hs : second <+: cs)
    (h : size first ≤ size second) : first <+: second := by
  rcases List.prefix_or_prefix_of_prefix hf hs with hp | ⟨more, hp⟩
  · exact hp
  · have hsize := congrArg size hp
    rw [size_append] at hsize
    obtain rfl := size_eq_zero_iff.1 (show size more = 0 by omega)
    rw [← hp, List.append_nil]

end Text

namespace Span

variable {source : Text} {s : Span}

structure Within (source : Text) (s : Span) : Prop where
  start_le_stop : s.start ≤ s.stop
  stop_le_size : s.stop ≤ Text.size source
  start_boundary : Text.IsBoundary source s.start
  stop_boundary : Text.IsBoundary source s.stop

lemma within_append (before mid after : Text) : Within (before ++ (mid ++ after))
    ⟨Text.size before, Text.size before + Text.size mid⟩ := by
  have hstop : Text.IsBoundary (before ++ (mid ++ after)) (Text.size before + Text.size mid) := by
    rw [← List.append_assoc, ← Text.size_append]
    exact Text.isBoundary_append ..
  exact ⟨Nat.le_add_right .., hstop.le_size, Text.isBoundary_append .., hstop⟩

lemma within_of_slice? {mid : Text} (h : Text.slice? s.start s.stop source = some mid) :
    s.Within source := by
  obtain ⟨before, after, rfl, hstart, hstop⟩ := Text.slice?_eq_some_iff.1 h
  have hs : s = ⟨Text.size before, Text.size before + Text.size mid⟩ := by
    cases s
    simp only [Span.mk.injEq] at hstart hstop ⊢
    omega
  rw [hs]
  exact within_append ..

lemma Within.empty_stop (h : s.Within source) : (Span.empty s.stop).Within source :=
  ⟨Nat.le_refl _, h.stop_le_size, h.stop_boundary, h.stop_boundary⟩

lemma Within.slice?_eq (h : s.Within source) :
    Text.slice? s.start s.stop source = some (s.slice source) := by
  obtain ⟨before, rest, hbefore, hstart⟩ := h.start_boundary
  obtain ⟨front, after, hfront, hstop⟩ := h.stop_boundary
  have hle := h.start_le_stop
  obtain ⟨mid, rfl⟩ := Text.prefix_of_size_le ⟨rest, hbefore.symm⟩ ⟨after, hfront.symm⟩ (by omega)
  rw [Text.size_append] at hstop
  have hslice : Text.slice? s.start s.stop source = some mid := by
    refine Text.slice?_eq_some_iff.2 ⟨before, after, ?_, hstart, by omega⟩
    rw [hfront, List.append_assoc]
  rw [slice, Text.slice, hslice]
  rfl

lemma Within.length?_eq (h : s.Within source) : s.length? = some (Text.size (s.slice source)) := by
  obtain ⟨_, _, -, -, hsize⟩ := Text.slice?_eq_some_iff.1 h.slice?_eq
  rw [length?, if_pos h.start_le_stop]
  congr 1
  omega

lemma Within.exists_range (h : s.Within source) : ∃ r, s.range? = some r ∧ r.span = s :=
  ⟨_, dif_pos h.start_le_stop, rfl⟩

end Span

end TemplateMarkup
