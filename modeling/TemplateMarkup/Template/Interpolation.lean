import TemplateMarkup.Template.Traversal

/-! A value is searched from its end: the last `{{` is paired with the last `}}` of what is left, whichever of
them comes first, and the search goes on before that `{{`. -/

namespace TemplateMarkup

/-- An interpolation. Between tags the span includes the marks, in a value it does not. -/
structure Interpolation where
  text : Text
  span : Span
deriving DecidableEq, Repr

namespace Interpolation

def openMark : Text :=
  ['{', '{']

def closeMark : Text :=
  ['}', '}']

def last? (start : Nat) (value : Text) : Option (Interpolation × Text) :=
  match Text.cutLast openMark value with
  | none => none
  | some (before, after) =>
    match Text.cutLast closeMark after with
    | some (inner, _) =>
      let innerStart := start + Text.size before + Text.size openMark
      some (⟨openMark ++ inner ++ closeMark, ⟨innerStart, innerStart + Text.size inner⟩⟩, before)
    | none =>
      -- The marks stand the wrong way round, and the text between them counts.
      match Text.cutLast closeMark before with
      | some (early, between) => some (⟨between, Span.empty (start + Text.size early)⟩, before)
      | none => none

theorem length_lt_of_last? {start : Nat} {value before : Text} {found : Interpolation}
    (h : last? start value = some (found, before)) : before.length < value.length := by
  simp only [last?] at h
  split at h
  · cases h
  · rename_i before' after hc
    have hl := congrArg List.length (Text.eq_of_cutLast hc)
    simp only [openMark, List.length_append, List.length_cons, List.length_nil] at hl
    have hb : before' = before := by
      split at h
      · simp only [Option.some.injEq, Prod.mk.injEq] at h
        exact h.2
      · split at h
        · simp only [Option.some.injEq, Prod.mk.injEq] at h
          exact h.2
        · cases h
    subst hb
    omega

def inValue (start : Nat) (value : Text) : List Interpolation :=
  match _found : last? start value with
  | none => []
  | some (found, before) => found :: inValue start before
termination_by value.length
decreasing_by exact length_lt_of_last? _found

end Interpolation

def Attribute.interpolations (a : Attribute) : List Interpolation :=
  match a.value, a.valueStart with
  | some value, some start => Interpolation.inValue start value
  | _, _ => []

def Template.interpolationsIn (t : Template) : Entry → List Interpolation
  | .attr _ a => a.interpolations
  | .node n => if n.kind = .interpolation then [⟨n.head.span.slice t.source, n.head.span⟩] else []

def Template.interpolations (t : Template) : List Interpolation :=
  t.walk.flatMap t.interpolationsIn

end TemplateMarkup
