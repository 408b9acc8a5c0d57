import TemplateMarkup.Proofs.Markup.Locality

/-! Values, attributes and tags by the characters that they are written with: where each run begins and ends. -/

namespace TemplateMarkup

namespace Text

structure IsRun (p : Char → Bool) (run after : Text) : Prop where
  ne_nil : run ≠ []
  mem : ∀ c ∈ run, p c
  stop : ∀ c ∈ after.head?, p c = false

def Breaks (p : Char → Bool) (before after : Text) : Prop :=
  (∀ c ∈ before.getLast?, p c = false) ∨ ∀ c ∈ after.head?, p c = false

variable {p : Char → Bool} {before cs run gap rest : Text}

lemma head?_dropWhile_stop (p : Char → Bool) (cs : Text) :
    ∀ c ∈ (cs.dropWhile p).head?, p c = false := by
  intro c hc
  have hstop := List.head?_dropWhile_not p cs
  rw [Option.mem_def.1 hc] at hstop
  simpa using hstop

lemma isRun_of_while (htake : cs.takeWhile p = run) (hdrop : cs.dropWhile p = rest)
    (hne : run ≠ []) : IsRun p run rest := by
  subst htake hdrop
  exact ⟨hne, fun _ hc => List.mem_takeWhile_imp hc, head?_dropWhile_stop p cs⟩

lemma IsRun.head? (h : IsRun p run rest) : ∃ c, run.head? = some c ∧ p c := by
  obtain ⟨c, cs, rfl⟩ := List.exists_cons_of_ne_nil h.ne_nil
  exact ⟨c, rfl, h.mem c (List.mem_cons_self ..)⟩

lemma Breaks.getLast?_of_isRun (h : Breaks p before (run ++ rest)) (hrun : IsRun p run rest) :
    ∀ c ∈ before.getLast?, p c = false := by
  rcases h with h | h
  · exact h
  · obtain ⟨c, hc, hp⟩ := hrun.head?
    have hstop := h c (by rw [List.head?_append, hc]; rfl)
    rw [hp] at hstop
    cases hstop

lemma breaks_append {more : Text} (h : Breaks p more rest) (hne : more ≠ []) :
    Breaks p (before ++ more) rest := by
  rwa [Breaks, List.getLast?_append_of_ne_nil _ hne]

lemma cutBlank_eq (h : cutBlank cs = (gap, rest)) :
    cs = gap ++ rest ∧ (∀ c ∈ gap, isBlank c) ∧ ∀ c ∈ rest.head?, isBlank c = false := by
  obtain ⟨rfl, rfl⟩ := Prod.mk.inj h
  exact ⟨List.takeWhile_append_dropWhile.symm, fun _ => isBlank_of_mem_cutBlank,
    head?_dropWhile_stop isBlank cs⟩

lemma Enclosed.read_char (c : Char) (cs : Text) :
    (∃ body rest, c ∉ body ∧ cs = body ++ c :: rest ∧ read [c] cs = (⟨body, true⟩, rest)) ∨
      c ∉ cs ∧ read [c] cs = (⟨cs, false⟩, []) := by
  cases h : cutPast [c] cs with
  | none =>
    right
    rw [cutPast_eq_none_iff, List.singleton_infix_iff] at h
    exact ⟨h, by rw [read, cutPast_eq_none_iff.2 (by rwa [List.singleton_infix_iff])]⟩
  | some cut =>
    obtain ⟨body, rest⟩ := cut
    left
    have hread : read [c] cs = (⟨body, true⟩, rest) := by rw [read, h]
    cases cutsPast_of_cutPast h with
    | closed hfirst =>
      refine ⟨body, rest, ?_, rfl, hread⟩
      rw [← List.singleton_infix_iff]
      exact hfirst.not_infix (fun more => List.prefix_append ..) (by simp)

end Text

namespace Markup

open Text (isBlank cutBlank)

def IsQuote (c : Char) : Prop :=
  c = '"' ∨ c = '\''

lemma IsQuote.not_isAttributeChar {c : Char} (h : IsQuote c) : isAttributeChar c = false := by
  rcases h with rfl | rfl <;> decide

lemma IsQuote.utf8Size {c : Char} (h : IsQuote c) : c.utf8Size = 1 := by
  rcases h with rfl | rfl <;> rfl

inductive WrittenValue.Reads : Text → WrittenValue → Text → Prop
  | closed {quote : Char} {body rest : Text} : IsQuote quote → quote ∉ body →
      Reads (quote :: (body ++ quote :: rest)) (.quoted quote ⟨body, true⟩) rest
  | cutOff {quote : Char} {body : Text} : IsQuote quote → quote ∉ body →
      Reads (quote :: body) (.quoted quote ⟨body, false⟩) []
  | bare {text rest : Text} : Text.IsRun isAttributeChar text rest →
      Reads (text ++ rest) (.bare text (!rest.isEmpty)) rest
  | missing {rest : Text} : (∀ c ∈ rest.head?, ¬ IsQuote c ∧ isAttributeChar c = false) →
      Reads rest .missing rest

lemma WrittenValue.reads (cs : Text) : Reads cs (read cs).1 (read cs).2 := by
  cases cs with
  | nil => exact .missing (by simp)
  | cons c cs =>
    rw [read]
    by_cases hq : c = '"' ∨ c = '\''
    · rw [if_pos hq]
      rcases Text.Enclosed.read_char c cs with ⟨body, rest, hbody, rfl, hread⟩ | ⟨hbody, hread⟩
      · rw [hread]
        exact .closed hq hbody
      · rw [hread]
        exact .cutOff hq hbody
    rw [if_neg hq]
    by_cases hc : isAttributeChar c
    · rw [if_pos hc]
      have hrun : Text.IsRun isAttributeChar (c :: cs.takeWhile isAttributeChar)
          (cs.dropWhile isAttributeChar) :=
        @Text.isRun_of_while _ (c :: cs) _ _ (List.takeWhile_cons_of_pos hc)
          (List.dropWhile_cons_of_pos hc) (by simp)
      have hreads := Reads.bare hrun
      rwa [List.cons_append, List.takeWhile_append_dropWhile] at hreads
    · rw [if_neg hc]
      refine .missing fun d hd => ?_
      obtain rfl := Option.some.inj hd
      exact ⟨hq, Bool.eq_false_iff.2 hc⟩

namespace WrittenAttribute

inductive Reads : Text → WrittenAttribute → Text → Prop
  | plain {blank name gap rest : Text} : (∀ c ∈ blank, isBlank c) →
      Text.IsRun isAttributeChar name (gap ++ rest) → cutBlank (gap ++ rest) = (gap, rest) →
      rest.head? ≠ some '=' →
      Reads (blank ++ (name ++ (gap ++ rest))) ⟨blank, name, gap, none⟩ rest
  | assigned {blank name gap space tail rest : Text} {value : WrittenValue} :
      (∀ c ∈ blank, isBlank c) →
      Text.IsRun isAttributeChar name (gap ++ '=' :: (space ++ tail)) → (∀ c ∈ gap, isBlank c) →
      (∀ c ∈ space, isBlank c) → (∀ c ∈ tail.head?, isBlank c = false) → value.Reads tail rest →
      Reads (blank ++ (name ++ (gap ++ '=' :: (space ++ tail))))
        ⟨blank, name, gap, some ⟨space, value⟩⟩ rest

variable {cs rest : Text} {a : WrittenAttribute}

lemma reads_of_read? (h : read? cs = some (a, rest)) : Reads cs a rest := by
  obtain ⟨blank, name, gap, after, ho⟩ := exists_opens cs
  obtain ⟨hcs, hblank, -⟩ := Text.cutBlank_eq ho.blank_cut
  obtain ⟨-, hgap, -⟩ := Text.cutBlank_eq ho.gap_cut
  by_cases hname : name = []
  · subst hname
    rw [ho.read?_of_name_nil] at h
    cases h
  have hrun := Text.isRun_of_while ho.name_run ho.name_stop hname
  rw [hcs]
  by_cases hsign : after.head? = some '='
  · obtain ⟨tail, rfl⟩ := List.head?_eq_some_iff.1 hsign
    obtain ⟨space, more, hspace⟩ : ∃ space more, cutBlank tail = (space, more) := ⟨_, _, rfl⟩
    obtain ⟨value, last, hvalue⟩ : ∃ value last, WrittenValue.read more = (value, last) :=
      ⟨_, _, rfl⟩
    rw [ho.read?_assigned hname hspace hvalue, Option.some.injEq, Prod.mk.injEq] at h
    obtain ⟨rfl, rfl⟩ := h
    obtain ⟨rfl, hblanks, hstop⟩ := Text.cutBlank_eq hspace
    have hreads := WrittenValue.reads more
    rw [hvalue] at hreads
    exact .assigned hblank hrun hgap hblanks hstop hreads
  · rw [ho.read?_plain hname hsign, Option.some.injEq, Prod.mk.injEq] at h
    obtain ⟨rfl, rfl⟩ := h
    exact .plain hblank hrun ho.gap_cut hsign

lemma Reads.breaks (h : Reads cs a rest) : Text.Breaks isAttributeChar a.chars rest := by
  cases h with
  | @plain blank name gap rest hblank hrun hgap hsign =>
    obtain ⟨-, hblanks, -⟩ := Text.cutBlank_eq hgap
    cases hlast : gap.getLast? with
    | none =>
      obtain rfl := List.getLast?_eq_none_iff.1 hlast
      exact Or.inr hrun.stop
    | some c =>
      left
      intro d hd
      have hchars : (⟨blank, name, gap, none⟩ : WrittenAttribute).chars = blank ++ name ++ gap := by
        simp [chars]
      rw [hchars, List.getLast?_append, hlast] at hd
      obtain rfl := Option.some.inj hd
      exact not_isAttributeChar_of_isBlank (hblanks c (List.mem_of_getLast? hlast))
  | @assigned blank name gap space tail rest value hblank hrun hgap hspace hstop hvalue =>
    cases hvalue with
    | @closed quote body rest hq hbody =>
      left
      intro c hc
      have hchars : (⟨blank, name, gap, some ⟨space, .quoted quote ⟨body, true⟩⟩⟩ :
          WrittenAttribute).chars =
            blank ++ (name ++ (gap ++ '=' :: (space ++ quote :: body))) ++ [quote] := by
        simp [chars, Assignment.chars, WrittenValue.chars, Text.Enclosed.chars]
      rw [hchars, List.getLast?_concat] at hc
      obtain rfl := Option.some.inj hc
      exact hq.not_isAttributeChar
    | cutOff hq hbody => exact Or.inr (by simp)
    | bare hvalue => exact Or.inr hvalue.stop
    | missing hnone => exact Or.inr fun c hc => (hnone c hc).2

variable {owner id pos : Nat} {before : Text}

lemma exists_read?_of_mem_placeAll {b : Attribute} (h : b ∈ placeAll owner id pos (readAll cs).1)
    (hbreak : Text.Breaks isAttributeChar before cs) : ∃ front ds w rest i,
      cs = front ++ ds ∧ read? ds = some (w, rest) ∧ b = w.place i owner (pos + Text.size front) ∧
        Text.Breaks isAttributeChar (before ++ front) ds := by
  induction cs using readAll_induction generalizing id pos before with
  | none cs hr =>
    rw [readAll_of_read?_none hr] at h
    cases h
  | some cs a rest hr ih =>
    rw [readAll_of_read? hr] at h
    rcases List.mem_cons.1 h with rfl | h
    · refine ⟨[], cs, a, rest, id, rfl, hr, rfl, ?_⟩
      rwa [List.append_nil]
    · have hne : a.chars ≠ [] := by
        simp [chars, name_ne_nil_of_read? hr]
      have hnext : Text.Breaks isAttributeChar (before ++ a.chars) rest :=
        Text.breaks_append (reads_of_read? hr).breaks hne
      obtain ⟨front, ds, w, after, i, rfl, hread, rfl, hfront⟩ := ih h hnext
      refine ⟨a.chars ++ front, ds, w, after, i, ?_, hread, ?_, ?_⟩
      · rw [List.append_assoc]
        exact (chars_of_read? hr).symm
      · rw [Text.size_append, Nat.add_assoc]
      · rwa [← List.append_assoc]

lemma read?_readAll (cs : Text) : read? (readAll cs).2 = none := by
  induction cs using readAll_induction with
  | none cs hr =>
    rw [readAll_of_read?_none hr]
    exact hr
  | some cs a rest hr ih =>
    rw [readAll_of_read? hr]
    exact ih

end WrittenAttribute

def IsName (name after : Text) : Prop :=
  ∃ first more, name = first :: more ∧ isNameStart first ∧ (∀ c ∈ more, isNameChar c) ∧
    ∀ c ∈ after.head?, isNameChar c = false

inductive Ending.Reads : Text → Ending → Text → Prop
  | slashed {rest : Text} : Reads ('/' :: '>' :: rest) .slashed rest
  | plain {rest : Text} : Reads ('>' :: rest) .plain rest
  | missing {rest : Text} : ¬ ['/', '>'] <+: rest → ¬ ['>'] <+: rest → Reads rest .missing rest

lemma Ending.reads (cs : Text) : Reads cs (read cs).1 (read cs).2 := by
  fun_cases read cs with
  | case1 rest => exact .slashed
  | case2 rest => exact .plain
  | case3 cs hslashed hplain =>
    refine .missing ?_ ?_
    · rintro ⟨rest, h⟩
      exact hslashed rest h.symm
    · rintro ⟨rest, h⟩
      exact hplain rest h.symm

lemma Ending.Reads.chars_eq_nil_iff {ending : Ending} {rest : Text}
    (h : Reads (ending.chars ++ rest) ending rest) : ending.chars = [] ↔
      ¬ ['/', '>'] <+: ending.chars ++ rest ∧ ¬ ['>'] <+: ending.chars ++ rest := by
  generalize hcs : ending.chars ++ rest = cs at h
  cases h with
  | slashed => exact iff_of_false (by simp [chars]) fun h => h.1 ⟨rest, rfl⟩
  | plain => exact iff_of_false (by simp [chars]) fun h => h.2 ⟨rest, rfl⟩
  | missing hslashed hplain => exact iff_of_true rfl ⟨hslashed, hplain⟩

structure WrittenTag.Reads (cs : Text) (tag : WrittenTag) (rest : Text) : Prop where
  chars_eq : cs = tag.name ++ (tag.attributes.flatMap WrittenAttribute.chars ++
    (tag.gap ++ (tag.ending.chars ++ rest)))
  name : IsName tag.name (tag.attributes.flatMap WrittenAttribute.chars ++
    (tag.gap ++ (tag.ending.chars ++ rest)))
  gap : ∀ c ∈ tag.gap, isBlank c
  gap_stop : ∀ c ∈ (tag.ending.chars ++ rest).head?, isBlank c = false ∧ isAttributeChar c = false
  ending : Ending.Reads (tag.ending.chars ++ rest) tag.ending rest

lemma WrittenTag.reads {first : Char} (hfirst : isNameStart first) (cs : Text) :
    Reads (first :: cs) (read first cs).1 (read first cs).2 := by
  obtain ⟨as, after, hattributes⟩ : ∃ as after,
      WrittenAttribute.readAll (cs.dropWhile isNameChar) = (as, after) := ⟨_, _, rfl⟩
  obtain ⟨gap, more, hgap⟩ : ∃ gap more, cutBlank after = (gap, more) := ⟨_, _, rfl⟩
  obtain ⟨ending, rest, hending⟩ : ∃ ending rest, Ending.read more = (ending, rest) := ⟨_, _, rfl⟩
  have hread : read first cs = (⟨first :: cs.takeWhile isNameChar, as, gap, ending⟩, rest) := by
    simp only [read, hattributes, hgap, hending]
  have hall := WrittenAttribute.chars_readAll (cs.dropWhile isNameChar)
  have hnone := WrittenAttribute.read?_readAll (cs.dropWhile isNameChar)
  have hreads := Ending.reads more
  rw [hattributes] at hall hnone
  rw [hending] at hreads
  obtain ⟨hafter, hblank, hstop⟩ := Text.cutBlank_eq hgap
  obtain rfl : ending.chars ++ rest = more := by
    have hchars := Ending.chars_append more
    rwa [hending] at hchars
  have hdrop : as.flatMap WrittenAttribute.chars ++ (gap ++ (ending.chars ++ rest)) =
      cs.dropWhile isNameChar := by rw [← hafter, hall]
  rw [hread]
  refine ⟨?_, ⟨first, _, rfl, hfirst, fun c hc => List.mem_takeWhile_imp hc, ?_⟩, hblank, ?_, hreads⟩
  · rw [hdrop, List.cons_append, List.takeWhile_append_dropWhile]
  · rw [hdrop]
    exact Text.head?_dropWhile_stop isNameChar cs
  · intro c hc
    exact ⟨hstop c hc, (WrittenAttribute.read?_eq_none_iff hgap).1 hnone c hc⟩

end Markup

end TemplateMarkup
