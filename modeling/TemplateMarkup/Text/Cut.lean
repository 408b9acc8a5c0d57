import TemplateMarkup.Text.Basic

namespace TemplateMarkup.Text

/-- Moves characters behind `seen`, which is in reverse, until the rest satisfies `p`. -/
def cutFrom (p : Text → Bool) (seen : Text) : Text → Text × Text
  | [] => (seen.reverse, [])
  | c :: cs => if p (c :: cs) then (seen.reverse, c :: cs) else cutFrom p (c :: seen) cs

def cutBefore (p : Text → Bool) (cs : Text) : Text × Text :=
  cutFrom p [] cs

def cutPast (mark cs : Text) : Option (Text × Text) :=
  let (before, rest) := cutBefore (mark.isPrefixOf ·) cs
  if mark.isPrefixOf rest then some (before, rest.drop mark.length) else none

def cutLast (mark cs : Text) : Option (Text × Text) :=
  (cutPast mark.reverse cs.reverse).map fun (after, before) => (before.reverse, after.reverse)

theorem cutFrom_append (p : Text → Bool) (seen cs : Text) :
    (cutFrom p seen cs).1 ++ (cutFrom p seen cs).2 = seen.reverse ++ cs := by
  fun_induction cutFrom p seen cs with
  | case1 => rfl
  | case2 => rfl
  | case3 seen c cs h ih => simp [ih]

theorem cutBefore_append (p : Text → Bool) (cs : Text) :
    (cutBefore p cs).1 ++ (cutBefore p cs).2 = cs :=
  cutFrom_append p [] cs

theorem eq_of_cutPast {mark cs before after : Text} (h : cutPast mark cs = some (before, after)) :
    cs = before ++ mark ++ after := by
  have hc := cutBefore_append (mark.isPrefixOf ·) cs
  simp only [cutPast] at h
  split at h
  · rename_i hp
    obtain ⟨rest, hr⟩ := List.isPrefixOf_iff_prefix.1 hp
    simp only [Option.some.injEq, Prod.mk.injEq] at h
    obtain ⟨rfl, rfl⟩ := h
    rw [← hr] at hc ⊢
    simpa using hc.symm
  · cases h

theorem eq_of_cutLast {mark cs before after : Text} (h : cutLast mark cs = some (before, after)) :
    cs = before ++ mark ++ after := by
  obtain ⟨⟨after', before'⟩, hc, he⟩ := Option.map_eq_some_iff.1 h
  simp only [Prod.mk.injEq] at he
  obtain ⟨rfl, rfl⟩ := he
  have := congrArg List.reverse (eq_of_cutPast hc)
  simpa using this

structure Enclosed where
  body : Text
  closed : Bool
deriving DecidableEq, Repr

def Enclosed.read (mark cs : Text) : Enclosed × Text :=
  match cutPast mark cs with
  | some (body, rest) => (⟨body, true⟩, rest)
  | none => (⟨cs, false⟩, [])

def Enclosed.chars (mark : Text) (run : Enclosed) : Text :=
  if run.closed then run.body ++ mark else run.body

theorem Enclosed.chars_append (mark cs : Text) :
    (read mark cs).1.chars mark ++ (read mark cs).2 = cs := by
  unfold read
  split
  · rename_i body rest h
    simp [chars, eq_of_cutPast h]
  · simp [chars]

end TemplateMarkup.Text
