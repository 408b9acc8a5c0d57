import Mathlib.Data.List.Basic
import TemplateMarkup.Glob.IgnoreSet

namespace TemplateMarkup

section Except

variable {ε α β : Type} {x : Except ε α} {f : α → β}

lemma error_of_map_eq_error {e : ε} (h : x.map f = .error e) : x = .error e := by
  cases x with
  | error _ => exact congrArg Except.error (Except.error.inj h)
  | ok a => cases h

lemma exists_of_map_eq_ok {b : β} (h : x.map f = .ok b) : ∃ a, x = .ok a ∧ f a = b := by
  cases x with
  | error e => cases h
  | ok a => exact ⟨a, rfl, Except.ok.inj h⟩

lemma eq_of_toOption_map {a : α} {b : β} (hx : x = .ok a) (h : x.toOption.map f = some b) : f a = b := by
  rw [hx] at h
  exact Option.some.inj h

end Except

namespace Glob

def Readable (pattern : Text) : Prop :=
  ∃ parts, read pattern = .ok parts

variable {pattern : Text} {patterns : List Text} {cause : InvalidPattern}

lemma not_readable_of_error {fault : Fault} (h : read pattern = .error fault) :
    ¬ Readable pattern := by
  rintro ⟨parts, hparts⟩
  cases hparts.symm.trans h

lemma readable_of_isOk (h : (read pattern).isOk = true) : Readable pattern := by
  cases hpattern : read pattern with
  | error fault => simp [hpattern, Except.isOk, Except.toBool] at h
  | ok parts => exact ⟨parts, hpattern⟩

lemma readable_default (h : pattern ∈ defaultPatterns) : Readable pattern := by
  have hread : ∀ pattern ∈ defaultPatterns, (read pattern).isOk = true := by decide +kernel
  exact readable_of_isOk (hread pattern h)

structure InvalidPattern.IsFirst (cause : InvalidPattern) (patterns : List Text) : Prop where
  read_eq : read cause.pattern = .error cause.fault
  split : ∃ before after, patterns = before ++ cause.pattern :: after ∧ ∀ p ∈ before, Readable p

namespace InvalidPattern.IsFirst

lemma cons (h : cause.IsFirst patterns) (hp : Readable pattern) :
    cause.IsFirst (pattern :: patterns) := by
  obtain ⟨before, after, rfl, hbefore⟩ := h.split
  exact ⟨h.read_eq, pattern :: before, after, rfl, List.forall_mem_cons.2 ⟨hp, hbefore⟩⟩

lemma of_append_default (h : cause.IsFirst (patterns ++ defaultPatterns)) :
    cause.IsFirst patterns := by
  obtain ⟨before, after, hsplit, hbefore⟩ := h.split
  have hdefault : cause.pattern ∉ defaultPatterns := fun hp =>
    not_readable_of_error h.read_eq (readable_default hp)
  obtain ⟨mid, rfl, hmid⟩ | ⟨mid, rfl, hmid⟩ := List.append_eq_append_iff.1 hsplit
  · apply absurd _ hdefault
    rw [hmid]
    exact List.mem_append_right _ List.mem_cons_self
  · cases mid with
    | nil =>
      rw [List.nil_append] at hmid
      exact absurd (hmid ▸ List.mem_cons_self) hdefault
    | cons p mid =>
      obtain ⟨rfl, -⟩ := List.cons.inj hmid
      exact ⟨h.read_eq, before, mid, rfl, hbefore⟩

end InvalidPattern.IsFirst

namespace IgnoreSet

lemma readAll_error (h : readAll patterns = .error cause) : cause.IsFirst patterns := by
  induction patterns with
  | nil => cases h
  | cons pattern others ih =>
    rw [readAll] at h
    cases hread : read pattern with
    | error fault =>
      simp only [hread, Except.error.injEq] at h
      subst h
      exact ⟨hread, [], others, rfl, List.forall_mem_nil _⟩
    | ok parts =>
      simp only [hread] at h
      exact (ih (error_of_map_eq_error h)).cons ⟨parts, hread⟩

lemma readable_of_readAll {globs : List (List Part)} (h : readAll patterns = .ok globs) :
    ∀ pattern ∈ patterns, Readable pattern := by
  induction patterns generalizing globs with
  | nil => exact List.forall_mem_nil _
  | cons pattern others ih =>
    rw [readAll] at h
    cases hread : read pattern with
    | error fault => simp [hread] at h
    | ok parts =>
      simp only [hread] at h
      obtain ⟨globs, hothers, -⟩ := exists_of_map_eq_ok h
      exact List.forall_mem_cons.2 ⟨⟨parts, hread⟩, ih hothers⟩

lemma ofPatterns_error (h : ofPatterns patterns = .error cause) : cause.IsFirst patterns :=
  (readAll_error (error_of_map_eq_error h)).of_append_default

lemma readable_of_ofPatterns {set : IgnoreSet} (h : ofPatterns patterns = .ok set) :
    ∀ pattern ∈ patterns, Readable pattern := by
  obtain ⟨globs, hread, -⟩ := exists_of_map_eq_ok h
  intro pattern hp
  exact readable_of_readAll hread pattern (List.mem_append_left _ hp)

end IgnoreSet

end Glob

end TemplateMarkup
