import TemplateMarkup.Text.Basic

namespace TemplateMarkup.Text

def splitFrom (seen : Text) : Nat → Text → Option (Text × Text)
  | 0, cs => some (seen.reverse, cs)
  | _ + 1, [] => none
  | n + 1, c :: cs =>
    if c.utf8Size ≤ n + 1 then splitFrom (c :: seen) (n + 1 - c.utf8Size) cs else none

def splitAt? (n : Nat) (cs : Text) : Option (Text × Text) :=
  splitFrom [] n cs

/-- The text between two byte offsets, if they are in order, in range and on character boundaries.
-/
def slice? (start stop : Nat) (cs : Text) : Option (Text) :=
  if start ≤ stop then
    match splitAt? start cs with
    | none => none
    | some (_, rest) => (splitAt? (stop - start) rest).map Prod.fst
  else none

def slice (start stop : Nat) (cs : Text) : Text :=
  (slice? start stop cs).getD []

theorem splitFrom_eq_some_iff {seen cs as bs : Text} {n : Nat} :
    splitFrom seen n cs = some (as, bs) ↔
      ∃ mid, as = seen.reverse ++ mid ∧ cs = mid ++ bs ∧ size mid = n := by
  fun_induction splitFrom seen n cs with
  | case1 seen cs =>
    simp only [Option.some.injEq, Prod.mk.injEq]
    constructor
    · rintro ⟨rfl, rfl⟩
      exact ⟨[], by simp⟩
    · rintro ⟨mid, rfl, rfl, h⟩
      obtain rfl := size_eq_zero_iff.1 h
      simp
  | case2 seen n =>
    simp only [reduceCtorEq, false_iff, not_exists, not_and]
    rintro mid - h hs
    obtain ⟨rfl, -⟩ := List.append_eq_nil_iff.1 h.symm
    simp at hs
  | case3 seen n c cs hc ih =>
    rw [ih]
    clear ih
    constructor
    · rintro ⟨mid, rfl, rfl, h⟩
      refine ⟨c :: mid, by simp, by simp, ?_⟩
      simp only [size_cons]
      omega
    · rintro ⟨mid, rfl, h, hs⟩
      cases mid with
      | nil => simp at hs
      | cons d mid =>
        simp only [List.cons_append, List.cons.injEq] at h
        obtain ⟨rfl, rfl⟩ := h
        simp only [size_cons] at hs
        exact ⟨mid, by simp, rfl, by omega⟩
  | case4 seen n c cs hc =>
    simp only [reduceCtorEq, false_iff, not_exists, not_and]
    rintro mid - h hs
    cases mid with
    | nil => simp at hs
    | cons d mid =>
      simp only [List.cons_append, List.cons.injEq] at h
      obtain ⟨rfl, -⟩ := h
      simp only [size_cons] at hs
      omega

theorem splitAt?_eq_some_iff {cs as bs : Text} {n : Nat} :
    splitAt? n cs = some (as, bs) ↔ cs = as ++ bs ∧ size as = n := by
  simp [splitAt?, splitFrom_eq_some_iff]

theorem slice?_eq_some_iff {cs mid : Text} {start stop : Nat} :
    slice? start stop cs = some mid ↔
      ∃ as bs, cs = as ++ (mid ++ bs) ∧ size as = start ∧ size mid + start = stop := by
  unfold slice?
  split
  · rename_i hle
    split
    · rename_i h
      simp only [reduceCtorEq, false_iff, not_exists, not_and]
      intro as bs hcs has
      rw [splitAt?_eq_some_iff.2 ⟨hcs, has⟩] at h
      cases h
    · rename_i as rest h
      obtain ⟨rfl, rfl⟩ := splitAt?_eq_some_iff.1 h
      simp only [Option.map_eq_some_iff, Prod.exists, exists_and_right, exists_eq_right]
      constructor
      · rintro ⟨bs, hb⟩
        obtain ⟨rfl, hs⟩ := splitAt?_eq_some_iff.1 hb
        exact ⟨as, ⟨bs, rfl⟩, rfl, by omega⟩
      · rintro ⟨as', ⟨bs, hcs⟩, has, hs⟩
        obtain ⟨rfl, rfl⟩ := append_inj_of_size hcs has.symm
        exact ⟨bs, splitAt?_eq_some_iff.2 ⟨rfl, by omega⟩⟩
  · rename_i hle
    simp only [reduceCtorEq, false_iff, not_exists, not_and]
    intro as bs _ has hs
    omega

end TemplateMarkup.Text
