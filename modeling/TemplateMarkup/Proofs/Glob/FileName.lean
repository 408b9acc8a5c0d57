import Mathlib.Data.List.Basic
import Mathlib.Tactic.MkIffOfInductiveProp
import TemplateMarkup.Glob.FileName
import TemplateMarkup.Proofs.Project.Paths

/-! Which patterns ask for a file, and which paths lead to none. -/

namespace TemplateMarkup.Glob

open Project

def IsExtension (parts : List Part) : Prop :=
  ∃ ext : Text, (∀ c ∈ ext, c ≠ '/' ∧ c ≠ '.') ∧ parts = .letter '.' :: ext.map .letter

variable {part : Part} {parts front ext : List Part} {P : List Part → Prop}

lemma IsExtension.ne_nil (h : IsExtension ext) : ext ≠ [] := by
  obtain ⟨cs, -, rfl⟩ := h
  exact List.cons_ne_nil _ _

end TemplateMarkup.Glob
