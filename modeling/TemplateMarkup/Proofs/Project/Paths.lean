import Mathlib.Data.List.Induction
import TemplateMarkup.Project.Path

/-! Names without slashes make a path that falls apart into them again, below any other path. -/

namespace TemplateMarkup.Project

structure IsName (name : Text) : Prop where
  ne_nil : name ≠ []
  slash_not_mem : '/' ∉ name
  ne_here : name ≠ ['.']
  ne_above : name ≠ ['.', '.']

instance : DecidablePred IsName := fun name =>
  decidable_of_iff (name ≠ [] ∧ '/' ∉ name ∧ name ≠ ['.'] ∧ name ≠ ['.', '.'])
    ⟨fun ⟨hnil, hslash, hhere, habove⟩ => ⟨hnil, hslash, hhere, habove⟩,
      fun ⟨hnil, hslash, hhere, habove⟩ => ⟨hnil, hslash, hhere, habove⟩⟩

namespace Path

variable {name cs ds : Text} {names : List Text}

lemma components_eq_splitOn (cs : Text) : components cs = cs.splitOn '/' := by
  induction cs with
  | nil => rfl
  | cons c cs ih =>
    rw [components, ih, List.splitOn_cons_eq_if_modifyHead]
    by_cases hc : c = '/'
    · rw [if_pos hc, if_pos (beq_iff_eq.2 hc)]
    · rw [if_neg hc, if_neg (mt beq_iff_eq.1 hc)]
      cases hsplit : cs.splitOn '/' with
      | nil => exact absurd hsplit (List.splitOn_ne_nil '/' cs)
      | cons name others => rfl

lemma ofNames_eq_intercalate : (names : List Text) → ofNames names = ['/'].intercalate names
  | [] => rfl
  | [name] => by rw [ofNames, List.intercalate_singleton]
  | name :: other :: others => by
    rw [ofNames, ofNames_eq_intercalate (other :: others), List.intercalate_cons_cons,
      List.append_assoc]
    · rfl
    · exact List.cons_ne_nil other others

lemma components_ne_nil (cs : Text) : components cs ≠ [] := by
  rw [components_eq_splitOn]
  exact List.splitOn_ne_nil '/' cs

lemma ofNames_components (cs : Text) : ofNames (components cs) = cs := by
  rw [ofNames_eq_intercalate, components_eq_splitOn, List.intercalate_splitOn]

lemma eq_ofNames (h : cs.splitOn '/' = names) : cs = ofNames names := by
  rw [← h, ← components_eq_splitOn, ofNames_components]

lemma components_ofNames (h : ∀ name ∈ names, '/' ∉ name) (hne : names ≠ []) :
    components (ofNames names) = names := by
  rw [ofNames_eq_intercalate, components_eq_splitOn, List.splitOn_intercalate '/' h hne]

lemma components_append_slash (cs ds : Text) :
    components (cs ++ '/' :: ds) = components cs ++ components ds := by
  simp only [components_eq_splitOn, List.splitOn_append_cons_self]

lemma not_isIdle (h : IsName name) : isIdle name = false := by
  simp [isIdle, h.ne_nil, h.ne_here]

lemma behind?_cons_of_isIdle {part : Text} {parts : List Text} (hne : names ≠ [])
    (h : isIdle part = true) : behind? names (part :: parts) = behind? names parts := by
  cases names with
  | nil => exact absurd rfl hne
  | cons name names => rw [behind?, if_pos h]

lemma exists_behind?_append (parts more : List Text) : ∃ idle, (∀ part ∈ idle, isIdle part = true) ∧
    behind? (parts.filter (!isIdle ·)) (parts ++ more) = some (idle ++ more) := by
  induction parts with
  | nil => exact ⟨[], List.forall_mem_nil _, by rw [List.filter_nil, behind?]⟩
  | cons part parts ih =>
    obtain ⟨idle, hidle, hbehind⟩ := ih
    cases hpart : isIdle part with
    | false =>
      rw [List.filter_cons_of_pos (by simpa using hpart), List.cons_append, behind?, hpart]
      exact ⟨idle, hidle, by simpa using hbehind⟩
    | true =>
      rw [List.filter_cons_of_neg (by simpa using hpart), List.cons_append]
      by_cases hne : parts.filter (!isIdle ·) = []
      · refine ⟨part :: parts, List.forall_mem_cons.2 ⟨hpart, ?_⟩, by rw [hne, behind?, List.cons_append]⟩
        simpa using hne
      · exact ⟨idle, hidle, by rw [behind?_cons_of_isIdle hne hpart, hbehind]⟩

lemma trim_append {idle : List Text} (hidle : ∀ part ∈ idle, isIdle part = true)
    (h : ∀ name ∈ names, IsName name) : trim (idle ++ names) = names := by
  have hnames : ∀ name ∈ names, isIdle name = false := fun name hname => not_isIdle (h name hname)
  have hkeep : ∀ parts : List Text, (∀ part ∈ parts, isIdle part = false) →
      parts.dropWhile isIdle = parts := by
    intro parts hparts
    cases parts with
    | nil => rfl
    | cons part parts => rw [List.dropWhile_cons_of_neg (by simp [hparts part List.mem_cons_self])]
  rw [trim, List.dropWhile_append_of_pos hidle, hkeep names hnames,
    hkeep _ fun name hname => hnames name (List.mem_reverse.1 hname), List.reverse_reverse]

lemma exists_components_join {root : Text} (hroot : root ≠ []) (h : ∀ name ∈ names, '/' ∉ name)
    (hne : names ≠ []) : ∃ first parts parts', components root = first :: parts ∧
      components (join root (ofNames names)) = first :: parts' ++ names ∧
      parts.filter (!isIdle ·) = parts'.filter (!isIdle ·) := by
  have hnames := components_ofNames h hne
  rw [join]
  split
  · rename_i hslash
    obtain ⟨front, rfl⟩ := List.getLast?_eq_some_iff.1 (by simpa [hroot] using hslash)
    obtain ⟨first, parts, hfront⟩ := List.exists_cons_of_ne_nil (components_ne_nil front)
    refine ⟨first, parts ++ [[]], parts, ?_, ?_, ?_⟩
    · rw [components_append_slash, hfront]
      rfl
    · rw [List.append_assoc, List.singleton_append, components_append_slash, hnames, hfront]
    · simp [isIdle]
  · obtain ⟨first, parts, hfirst⟩ := List.exists_cons_of_ne_nil (components_ne_nil root)
    exact ⟨first, parts, parts, hfirst, by rw [components_append_slash, hnames, hfirst], rfl⟩

/-- Stripping a path undoes joining to it. -/
lemma strip?_join (root : Text) (h : ∀ name ∈ names, IsName name) (hne : names ≠ []) :
    strip? root (join root (ofNames names)) = some (ofNames names) := by
  by_cases hroot : root = []
  · rw [hroot]
    rfl
  · obtain ⟨first, parts, parts', hfirst, hjoin, hfilter⟩ :=
      exists_components_join hroot (fun name hname => (h name hname).slash_not_mem) hne
    obtain ⟨idle, hidle, hbehind⟩ := exists_behind?_append parts' names
    have hpath : join root (ofNames names) ≠ [] := by
      rw [join]
      split <;> simp [hroot]
    rw [strip?, if_neg (by simpa using hroot), hfirst, hjoin, if_neg (by simpa using hpath),
      List.tail_cons, hfilter, List.cons_append, List.tail_cons]
    dsimp only
    rw [hbehind, Option.map_some, trim_append hidle h]

end Path

end TemplateMarkup.Project
