import TemplateMarkup.Proofs.Text.LastCut
import TemplateMarkup.Template.Interpolation

namespace TemplateMarkup.Interpolation

open Text (LastAt size)

/-- The search of a value that begins at offset `start`, when only `rest` is left of it. Both marks are looked
up in `rest` for themselves, and what is cut out lies between two offsets of the value. -/
inductive Searches (start : Nat) (value : Text) : Text → List Interpolation → Prop
  | stop {rest : Text} : ¬ openMark <:+: rest ∨ ¬ closeMark <:+: rest → Searches start value rest []
  | turn {rest text before : Text} {opened closed : Nat} {found : List Interpolation} :
      LastAt openMark rest opened → LastAt closeMark rest closed →
      Text.slice? (min opened (closed + 2)) (max opened (closed + 2)) value = some text →
      Text.slice? 0 opened rest = some before → Searches start value before found →
      Searches start value rest
        (⟨text, ⟨min (start + (opened + 2)) (start + closed), start + closed⟩⟩ :: found)

lemma Searches.unique {value rest : Text} {start : Nat} {found found' : List Interpolation}
    (h : Searches start value rest found) (h' : Searches start value rest found') : found = found' := by
  induction h generalizing found' with
  | stop hnone =>
    cases h' with
    | stop => rfl
    | turn hopened hclosed =>
      exact (hnone.elim (fun hopen => hopen hopened.infix) fun hclose => hclose hclosed.infix).elim
  | turn hopened hclosed htext hbefore _ ih =>
    cases h' with
    | stop hnone =>
      exact (hnone.elim (fun hopen => hopen hopened.infix) fun hclose => hclose hclosed.infix).elim
    | turn hopened' hclosed' htext' hbefore' h' =>
      obtain rfl := hopened.unique hopened'
      obtain rfl := hclosed.unique hclosed'
      obtain rfl := Option.some.inj (htext.symm.trans htext')
      obtain rfl := Option.some.inj (hbefore.symm.trans hbefore')
      rw [ih h']

/-- What one turn finds in `rest`, and what is left then: the closing mark stands behind the opening one, or
it stands before it. -/
inductive Turn (start : Nat) : Text → Interpolation → Text → Prop
  | paired {before inner after : Text} :
      LastAt openMark (before ++ openMark ++ inner ++ closeMark ++ after) (size before) →
      LastAt closeMark (before ++ openMark ++ inner ++ closeMark ++ after)
        (size (before ++ openMark ++ inner)) →
      Turn start (before ++ openMark ++ inner ++ closeMark ++ after)
        ⟨openMark ++ inner ++ closeMark,
          ⟨start + size (before ++ openMark), start + size (before ++ openMark ++ inner)⟩⟩ before
  | crossed {early between after : Text} :
      LastAt openMark (early ++ closeMark ++ between ++ openMark ++ after)
        (size (early ++ closeMark ++ between)) →
      LastAt closeMark (early ++ closeMark ++ between ++ openMark ++ after) (size early) →
      Turn start (early ++ closeMark ++ between ++ openMark ++ after)
        ⟨between, Span.empty (start + size early)⟩ (early ++ closeMark ++ between)

def IsCrossed (start : Nat) (value : Text) (i : Interpolation) : Prop :=
  ∃ early after, value = early ++ closeMark ++ i.text ++ openMark ++ after ∧
    i.span = Span.empty (start + size early)

def IsPaired (start : Nat) (value : Text) (i : Interpolation) : Prop :=
  ∃ before inner after, value = before ++ openMark ++ inner ++ closeMark ++ after ∧
    i.text = openMark ++ inner ++ closeMark ∧
      i.span = ⟨start + size (before ++ openMark), start + size (before ++ openMark ++ inner)⟩

variable {start : Nat} {value rest before more : Text} {i : Interpolation}

lemma size_openMark : size openMark = 2 := rfl

lemma size_closeMark : size closeMark = 2 := rfl

lemma turn_of_last? (h : last? start rest = some (i, before)) : Turn start rest i before := by
  rw [last?] at h
  split at h
  · cases h
  rename_i front after hopen
  have hlast := Text.lastAt_of_cutLast hopen
  obtain rfl := Text.eq_of_cutLast hopen
  split at h
  · rename_i inner tail hclose
    obtain ⟨rfl, rfl⟩ := Prod.mk.inj (Option.some.inj h)
    have hclosed := (Text.lastAt_of_cutLast hclose).append_left (front ++ openMark)
    obtain rfl := Text.eq_of_cutLast hclose
    have hassoc : front ++ openMark ++ (inner ++ closeMark ++ tail) =
        front ++ openMark ++ inner ++ closeMark ++ tail := by
      simp only [List.append_assoc]
    rw [← Text.size_append, hassoc] at hclosed
    rw [hassoc] at hlast ⊢
    rw [Nat.add_assoc, ← Text.size_append, Nat.add_assoc, ← Text.size_append]
    exact .paired hlast hclosed
  · rename_i hnone
    split at h
    · rename_i early between hclose
      obtain ⟨rfl, rfl⟩ := Prod.mk.inj (Option.some.inj h)
      have hclosed := (Text.lastAt_of_cutLast hclose).append_right (c := '{') (by decide)
        (Text.cutLast_eq_none_iff.1 hnone)
      obtain rfl := Text.eq_of_cutLast hclose
      exact .crossed hlast hclosed
    · cases h

lemma not_infix_of_last? (h : last? start rest = none) :
    ¬ openMark <:+: rest ∨ ¬ closeMark <:+: rest := by
  rw [last?] at h
  split at h
  · rename_i hnone
    exact Or.inl (Text.cutLast_eq_none_iff.1 hnone)
  rename_i front after hopen
  obtain rfl := Text.eq_of_cutLast hopen
  split at h
  · cases h
  rename_i hafter
  split at h
  · cases h
  rename_i hbefore
  right
  exact Text.not_double_infix (by decide) (Text.cutLast_eq_none_iff.1 hbefore)
    (Text.cutLast_eq_none_iff.1 hafter)

namespace Turn

lemma exists_closed (h : Turn start rest i before) :
    ∃ closed, LastAt closeMark rest closed ∧ i.span.stop = start + closed := by
  cases h with
  | paired _ hclosed => exact ⟨_, hclosed, rfl⟩
  | crossed _ hclosed => exact ⟨_, hclosed, rfl⟩

lemma exists_rest (h : Turn start rest i before) : ∃ after, rest = before ++ openMark ++ after := by
  cases h with
  | @paired before inner after => exact ⟨inner ++ closeMark ++ after, by simp⟩
  | crossed => exact ⟨_, rfl⟩

lemma isPaired_or_isCrossed (h : Turn start rest i before) :
    i.IsPaired start rest ∨ i.IsCrossed start rest := by
  cases h with
  | paired => exact Or.inl ⟨_, _, _, rfl, rfl, rfl⟩
  | crossed => exact Or.inr ⟨_, _, rfl, rfl⟩

lemma searches {found : List Interpolation} (h : Turn start rest i before)
    (hvalue : value = rest ++ more) (hfound : Searches start value before found) :
    Searches start value rest (i :: found) := by
  cases h with
  | @paired _ inner after hopened hclosed =>
    have hsize : size (before ++ openMark ++ inner) = size before + 2 + size inner := by
      simp only [Text.size_append, size_openMark]
    have hspan : (⟨start + size (before ++ openMark), start + size (before ++ openMark ++ inner)⟩ :
        Span) = ⟨min (start + (size before + 2)) (start + size (before ++ openMark ++ inner)),
          start + size (before ++ openMark ++ inner)⟩ := by
      rw [Span.mk.injEq, Text.size_append before openMark, size_openMark]
      exact ⟨by omega, rfl⟩
    rw [hspan]
    refine .turn hopened hclosed ?_ ?_ hfound
    · refine Text.slice?_eq_some_iff.2 ⟨before, after ++ more, ?_, ?_, ?_⟩
      · rw [hvalue]
        simp only [List.append_assoc]
      · omega
      · simp only [Text.size_append, size_openMark, size_closeMark] at hsize ⊢
        omega
    · refine Text.slice?_eq_some_iff.2 ⟨[], openMark ++ inner ++ closeMark ++ after, ?_, rfl, rfl⟩
      simp only [List.append_assoc, List.nil_append]
  | @crossed early between after hopened hclosed =>
    have hsize : size (early ++ closeMark ++ between) = size early + 2 + size between := by
      simp only [Text.size_append, size_closeMark]
    have hspan : Span.empty (start + size early) =
        ⟨min (start + (size (early ++ closeMark ++ between) + 2)) (start + size early),
          start + size early⟩ := by
      rw [Span.empty, Span.mk.injEq]
      exact ⟨by omega, rfl⟩
    rw [hspan]
    refine .turn hopened hclosed ?_ ?_ hfound
    · refine Text.slice?_eq_some_iff.2 ⟨early ++ closeMark, openMark ++ after ++ more, ?_, ?_, ?_⟩
      · rw [hvalue]
        simp only [List.append_assoc]
      · rw [Text.size_append, size_closeMark]
        omega
      · omega
    · refine Text.slice?_eq_some_iff.2 ⟨[], openMark ++ after, ?_, rfl, rfl⟩
      simp only [List.append_assoc, List.nil_append]

end Turn

lemma IsPaired.append_right (h : i.IsPaired start rest) : i.IsPaired start (rest ++ more) := by
  obtain ⟨before, inner, after, rfl, htext, hspan⟩ := h
  exact ⟨before, inner, after ++ more, by simp only [List.append_assoc], htext, hspan⟩

lemma IsCrossed.append_right (h : i.IsCrossed start rest) : i.IsCrossed start (rest ++ more) := by
  obtain ⟨early, after, rfl, hspan⟩ := h
  exact ⟨early, after ++ more, by simp only [List.append_assoc], hspan⟩

lemma exists_closeMark (h : i.IsPaired start value ∨ i.IsCrossed start value) :
    ∃ front back, value = front ++ closeMark ++ back ∧ i.span.stop = start + size front := by
  rcases h with ⟨before, inner, after, rfl, -, hspan⟩ | ⟨early, after, rfl, hspan⟩
  · exact ⟨before ++ openMark ++ inner, after, rfl, by rw [hspan]⟩
  · exact ⟨early, i.text ++ openMark ++ after, by simp only [List.append_assoc], by rw [hspan]; rfl⟩

lemma searches_inValue (start : Nat) (rest : Text) : ∀ more, value = rest ++ more →
    Searches start value rest (inValue start rest) := by
  fun_induction inValue start rest with
  | case1 rest hnone => exact fun _ _ => .stop (not_infix_of_last? hnone)
  | case2 rest i before hfound ih =>
    intro more hvalue
    have hturn := turn_of_last? hfound
    obtain ⟨after, hrest⟩ := hturn.exists_rest
    apply hturn.searches hvalue
    apply ih (openMark ++ after ++ more)
    rw [hvalue, hrest]
    simp only [List.append_assoc]

lemma length_inValue_le (start : Nat) (rest : Text) :
    2 * (inValue start rest).length ≤ size rest := by
  fun_induction inValue start rest with
  | case1 => exact Nat.zero_le _
  | case2 rest i before hfound ih =>
    obtain ⟨after, rfl⟩ := (turn_of_last? hfound).exists_rest
    rw [Text.size_append, Text.size_append, size_openMark, List.length_cons]
    omega

lemma isPaired_or_isCrossed_of_mem (h : i ∈ inValue start rest) :
    i.IsPaired start rest ∨ i.IsCrossed start rest := by
  fun_induction inValue start rest with
  | case1 => cases h
  | case2 rest j before hfound ih =>
    have hturn := turn_of_last? hfound
    rcases List.mem_cons.1 h with rfl | h
    · exact hturn.isPaired_or_isCrossed
    · obtain ⟨after, rfl⟩ := hturn.exists_rest
      rw [List.append_assoc]
      exact (ih h).imp IsPaired.append_right IsCrossed.append_right

lemma stops_inValue (start : Nat) (rest : Text) :
    (inValue start rest).Pairwise fun i j => j.span.stop ≤ i.span.stop := by
  fun_induction inValue start rest with
  | case1 => exact List.Pairwise.nil
  | case2 rest i before hfound ih =>
    have hturn := turn_of_last? hfound
    refine List.Pairwise.cons (fun j hj => ?_) ih
    obtain ⟨closed, hclosed, hstop⟩ := hturn.exists_closed
    obtain ⟨after, hrest⟩ := hturn.exists_rest
    -- What is found later ends at a closing mark too, and the first turn took the last one.
    obtain ⟨front, back, hbefore, hj⟩ := exists_closeMark (isPaired_or_isCrossed_of_mem hj)
    have hle := hclosed.latest front (back ++ (openMark ++ after)) (by rw [hrest, hbefore]; simp)
    omega

end TemplateMarkup.Interpolation
