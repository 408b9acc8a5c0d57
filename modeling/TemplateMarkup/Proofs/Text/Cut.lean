import Mathlib.Data.List.Infix
import TemplateMarkup.Text.Cut

namespace TemplateMarkup.Text

variable {p : Text → Bool} {mark body cs rest : Text}

lemma cutFrom_eq (p : Text → Bool) (seen cs : Text) :
    cutFrom p seen cs = (seen.reverse ++ (cutBefore p cs).1, (cutBefore p cs).2) := by
  simp only [cutBefore]
  suffices h : ∀ first second : Text, cutFrom p (first ++ second) cs =
      (second.reverse ++ (cutFrom p first cs).1, (cutFrom p first cs).2) by
    simpa using h [] seen
  induction cs with
  | nil => intro first second; simp [cutFrom]
  | cons c cs ih =>
    intro first second
    by_cases hp : p (c :: cs)
    · simp [cutFrom, hp]
    · simpa [cutFrom, hp] using ih (c :: first) second

@[simp] lemma cutBefore_nil (p : Text → Bool) : cutBefore p [] = ([], []) := rfl

lemma cutBefore_cons (p : Text → Bool) (c : Char) (cs : Text) :
    cutBefore p (c :: cs) = if p (c :: cs) then ([], c :: cs)
      else (c :: (cutBefore p cs).1, (cutBefore p cs).2) := by
  by_cases hp : p (c :: cs)
  · simp [cutBefore, cutFrom, hp]
  · rw [cutBefore, cutFrom, if_neg hp, if_neg hp, cutFrom_eq]
    rfl

lemma cutBefore_append_of_first (hfirst : ∀ xs c ys, cs = xs ++ c :: ys → ¬ p (c :: ys ++ rest))
    (hstop : rest = [] ∨ p rest) : cutBefore p (cs ++ rest) = (cs, rest) := by
  induction cs with
  | nil =>
    cases rest with
    | nil => rfl
    | cons c rest =>
      have hp : p (c :: rest) := hstop.resolve_left (by simp)
      rw [List.nil_append, cutBefore_cons, if_pos hp]
  | cons c cs ih =>
    have hc : ¬ p (c :: cs ++ rest) := hfirst [] c cs rfl
    have hcs := ih (fun xs d ys h => hfirst (c :: xs) d ys (by rw [h, List.cons_append]))
    rw [List.cons_append] at hc ⊢
    rw [cutBefore_cons, if_neg hc, hcs]

structure FirstAt (p : Text → Prop) (before after : Text) : Prop where
  earlier : ∀ xs c ys, before = xs ++ c :: ys → ¬ p (c :: ys ++ after)
  stop : after = [] ∨ p after

lemma cutBefore_firstAt (p : Text → Bool) (cs : Text) :
    FirstAt (fun ds => p ds) (cutBefore p cs).1 (cutBefore p cs).2 := by
  induction cs with
  | nil => exact ⟨by simp, Or.inl rfl⟩
  | cons c cs ih =>
    rw [cutBefore_cons]
    by_cases hp : p (c :: cs)
    · rw [if_pos hp]
      exact ⟨by simp, Or.inr hp⟩
    rw [if_neg hp]
    refine ⟨fun xs d ys h => ?_, ih.stop⟩
    cases xs with
    | nil =>
      obtain ⟨rfl, rfl⟩ := List.cons.inj h
      rwa [List.cons_append, cutBefore_append]
    | cons x xs => exact ih.earlier xs d ys (List.cons.inj h).2

lemma FirstAt.not_infix {q : Text → Prop} {word before after : Text} (h : FirstAt q before after)
    (hq : ∀ more, q (word ++ more)) (hne : word ≠ []) : ¬ word <:+: before := by
  rintro ⟨xs, ys, rfl⟩
  obtain ⟨c, word, rfl⟩ := List.exists_cons_of_ne_nil hne
  apply h.earlier xs c (word ++ ys) (by simp)
  simpa using hq (ys ++ after)

lemma cutPast_cons (mark : Text) (c : Char) (cs : Text) :
    cutPast mark (c :: cs) = if mark <+: c :: cs then some ([], (c :: cs).drop mark.length)
      else (cutPast mark cs).map fun (before, after) => (c :: before, after) := by
  by_cases hp : mark <+: c :: cs
  · have hb : mark.isPrefixOf (c :: cs) := List.isPrefixOf_iff_prefix.2 hp
    simp [cutPast, cutBefore_cons, hp, hb]
  · have hb : ¬ mark.isPrefixOf (c :: cs) := fun h => hp (List.isPrefixOf_iff_prefix.1 h)
    simp only [cutPast, cutBefore_cons, if_neg hb, if_neg hp]
    split <;> rfl

lemma cutPast_eq_none_iff : cutPast mark cs = none ↔ ¬ mark <:+: cs := by
  induction cs with
  | nil => simp [cutPast]
  | cons c cs ih =>
    rw [cutPast_cons, List.infix_cons_iff]
    by_cases hp : mark <+: c :: cs
    · simp [hp]
    · rw [if_neg hp, Option.map_eq_none_iff, ih]
      simp [hp]

/-- A text is cut past the first mark, and then `body?` stands before the mark; or nothing is left of it,
as the mark never comes. -/
inductive CutsPast (mark : Text) : (cs : Text) → (body? : Option Text) → (rest : Text) → Prop
  | closed {body rest : Text} : FirstAt (mark <+: ·) body (mark ++ rest) →
      CutsPast mark (body ++ (mark ++ rest)) (some body) rest
  | cutOff {cs : Text} : ¬ mark <:+: cs → CutsPast mark cs none []

lemma cutsPast_of_cutPast (h : cutPast mark cs = some (body, rest)) :
    CutsPast mark cs (some body) rest := by
  have hfirst := cutBefore_firstAt (mark.isPrefixOf ·) cs
  have hcs := cutBefore_append (mark.isPrefixOf ·) cs
  simp only [List.isPrefixOf_iff_prefix] at hfirst
  rw [cutPast] at h
  generalize cutBefore (mark.isPrefixOf ·) cs = cut at h hfirst hcs
  obtain ⟨before, after⟩ := cut
  obtain rfl : before ++ after = cs := hcs
  simp only [List.isPrefixOf_iff_prefix, Option.ite_none_right_eq_some, Option.some.injEq,
    Prod.mk.injEq] at h
  obtain ⟨⟨rest, rfl⟩, rfl, rfl⟩ := h
  rw [List.drop_left]
  exact .closed hfirst

def EndsFirst (mark body : Text) : Prop :=
  ∀ xs ys, body ++ mark = xs ++ mark ++ ys → ys = []

lemma endsFirst_of_cutPast (h : cutPast mark cs = some (body, rest)) : EndsFirst mark body := by
  cases cutsPast_of_cutPast h with
  | closed hfirst =>
    intro xs ys he
    by_contra hys
    -- An earlier mark would begin inside `body`, and the cut would have fallen there.
    have hpos := List.length_pos_iff.2 hys
    have hlen := congrArg List.length he
    simp only [List.length_append] at hlen
    have hxs : xs <+: body := by
      refine List.prefix_of_prefix_length_le ⟨mark ++ ys, ?_⟩ ⟨mark, rfl⟩ (by omega)
      rw [he, List.append_assoc]
    obtain ⟨zs, rfl⟩ := hxs
    rw [List.append_assoc, List.append_assoc, List.append_cancel_left_eq] at he
    cases zs with
    | nil =>
      rw [List.append_nil] at hlen
      omega
    | cons c zs =>
      apply hfirst.earlier xs c zs rfl
      rw [← List.append_assoc, he, List.append_assoc]
      exact List.prefix_append ..

lemma endsFirst_of_not_infix (hin : ¬ mark <:+: body)
    (hover : ∀ v w, v ≠ [] → w ≠ [] → mark = v ++ w → ¬ mark <:+ body ++ v) :
    EndsFirst mark body := by
  intro xs ys h
  by_contra hys
  by_cases hl : mark.length ≤ ys.length
  · have hsuffix : mark <:+ ys :=
      List.suffix_of_suffix_length_le ⟨body, h⟩ ⟨xs ++ mark, rfl⟩ hl
    obtain ⟨zs, rfl⟩ := hsuffix
    rw [← List.append_assoc] at h
    obtain ⟨rfl, -⟩ := List.append_inj' h rfl
    exact hin ⟨xs, zs, rfl⟩
  · have hsuffix : ys <:+ mark :=
      List.suffix_of_suffix_length_le ⟨xs ++ mark, rfl⟩ ⟨body, h⟩ (by omega)
    obtain ⟨v, hv⟩ := hsuffix
    have hvne : v ≠ [] := by
      rintro rfl
      simp [← hv] at hl
    refine hover v ys hvne hys hv.symm ⟨xs, ?_⟩
    have he : body ++ v ++ ys = xs ++ mark ++ ys := by rw [List.append_assoc, hv, h]
    exact (List.append_cancel_right he).symm

lemma endsFirst_of_last_new {init : Text} {c : Char} (hc : c ∉ init)
    (h : ¬ init ++ [c] <:+: body) : EndsFirst (init ++ [c]) body := by
  refine endsFirst_of_not_infix h fun v w hv hw he hsuffix => ?_
  obtain ⟨ws, d, rfl⟩ := List.eq_nil_or_concat w |>.resolve_left hw
  rw [List.concat_eq_append, ← List.append_assoc] at he
  obtain ⟨rfl, -⟩ := List.append_inj' he rfl
  obtain ⟨vs, d, rfl⟩ := List.eq_nil_or_concat v |>.resolve_left hv
  obtain ⟨xs, hxs⟩ := hsuffix
  rw [List.concat_eq_append, ← List.append_assoc xs, ← List.append_assoc body] at hxs
  obtain ⟨-, hd⟩ := List.append_inj' hxs rfl
  obtain rfl := List.singleton_inj.1 hd
  exact hc (by simp)

lemma endsFirst_singleton {c : Char} (h : c ∉ body) : EndsFirst [c] body := by
  refine @endsFirst_of_last_new body [] c (by simp) fun hin => h ?_
  exact (List.singleton_infix_iff c body).1 hin

lemma endsFirst_double {c : Char} (h : ¬ [c, c] <:+: body)
    (hlast : body.getLast? ≠ some c) : EndsFirst [c, c] body := by
  refine endsFirst_of_not_infix h fun v w hv hw he hsuffix => ?_
  have hlen := congrArg List.length he
  have hvl := List.length_pos_iff.2 hv
  have hwl := List.length_pos_iff.2 hw
  simp only [List.length_cons, List.length_nil, List.length_append] at hlen
  obtain ⟨d, rfl⟩ := List.length_eq_one_iff.1 (show v.length = 1 by omega)
  obtain ⟨xs, hxs⟩ := hsuffix
  rw [show [c, c] = [c] ++ [c] from rfl, ← List.append_assoc] at hxs
  obtain ⟨rfl, -⟩ := List.append_inj' hxs rfl
  exact hlast (by simp)

lemma cutPast_append (h : EndsFirst mark body) :
    cutPast mark (body ++ mark ++ rest) = some (body, rest) := by
  induction body with
  | nil =>
    cases hm : mark ++ rest with
    | nil =>
      obtain ⟨rfl, rfl⟩ := List.append_eq_nil_iff.1 hm
      rfl
    | cons c cs =>
      rw [List.nil_append, hm, cutPast_cons, if_pos ⟨rest, hm⟩, ← hm, List.drop_left]
  | cons c body ih =>
    have hbody : EndsFirst mark body := fun xs ys he =>
      h (c :: xs) ys (by simp only [List.cons_append, he])
    have hlater : ¬ mark <+: c :: (body ++ mark ++ rest) := by
      intro hp
      have hp' : mark <+: c :: body ++ mark :=
        List.prefix_of_prefix_length_le hp ⟨rest, by simp⟩ (by simp; omega)
      obtain ⟨ys, hys⟩ := hp'
      obtain rfl := h [] ys hys.symm
      have hl := congrArg List.length hys
      simp only [List.length_append, List.length_cons, List.length_nil] at hl
      omega
    rw [List.cons_append, List.cons_append, cutPast_cons, if_neg hlater, ih hbody]
    rfl

namespace Enclosed

lemma read_append (h : EndsFirst mark body) :
    read mark (body ++ mark ++ rest) = (⟨body, true⟩, rest) := by
  rw [read, cutPast_append h]

lemma read_cutsPast (mark cs : Text) : CutsPast mark cs
    (if (read mark cs).1.closed then some (read mark cs).1.body else none) (read mark cs).2 := by
  rw [read]
  split
  · rename_i body rest h
    exact cutsPast_of_cutPast h
  · rename_i h
    exact .cutOff (cutPast_eq_none_iff.1 h)

lemma read_of_not_closed (h : (read mark cs).1.closed = false) :
    ¬ mark <:+: (read mark cs).1.body ∧ (read mark cs).2 = [] := by
  rw [read] at h ⊢
  split at h
  · cases h
  · rename_i hc
    exact ⟨cutPast_eq_none_iff.1 hc, rfl⟩

end Enclosed

end TemplateMarkup.Text
