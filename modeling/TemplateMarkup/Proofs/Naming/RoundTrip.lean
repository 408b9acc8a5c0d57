import Mathlib.Data.List.Chain
import TemplateMarkup.Naming.Style

namespace TemplateMarkup

namespace Text

lemma forall_ascii {p : Char → Prop} (h : ∀ n : Fin 128, p (Char.ofNat n)) {c : Char}
    (hc : c.toNat < 128) : p c :=
  Char.ofNat_toNat c ▸ h ⟨c.toNat, hc⟩

lemma lowerAt_ascii {c : Char} (hc : c.toNat < 128) (before after : Text) :
    lowerAt before c after = [c.toLower] := by
  have hsigma : c ≠ 'Σ' := by
    rintro rfl
    exact absurd hc (by decide)
  have hdotted : c ≠ '\u0130' := by
    rintro rfl
    exact absurd hc (by decide)
  rw [lowerAt, if_neg hsigma, if_neg hdotted, lowerChar, if_pos hc]

lemma lowercaseFrom_ascii {cs : Text} (h : ∀ c ∈ cs, c.toNat < 128) (before : Text) :
    lowercaseFrom before cs = cs.map Char.toLower := by
  induction cs generalizing before with
  | nil => rfl
  | cons c cs ih =>
    obtain ⟨hc, hcs⟩ := List.forall_mem_cons.1 h
    rw [lowercaseFrom, lowerAt_ascii hc, ih hcs]
    rfl

end Text

namespace Naming

def isSmallWordChar (c : Char) : Bool :=
  c.isLower || c.isDigit || c == '_'

/-- Each hyphen between the words stands between letters, with more than one character up to the next. -/
structure KeepsHyphens (words : List Text) : Prop where
  starts : ∀ w ∈ words.tail, ∃ c ∈ w.head?, c.isAlpha
  ends : ∀ w ∈ words.dropLast, ∃ c ∈ w.getLast?, c.isAlpha
  two_le : ∀ w ∈ words.tail.dropLast, 2 ≤ w.length

def KeepsCapitals (s : Text) : Prop :=
  ∀ before c after, s = before ++ c :: after → c.isUpper → ∃ p ∈ before.getLast?, p.isLower

section Characters

variable {c : Char}

lemma toNat_lt_of_isWordChar (h : isWordChar c) : c.toNat < 128 := by
  have hle {d : Char} (hd : c.val ≤ d.val) (hlt : d.toNat < 128) : c.toNat < 128 :=
    Nat.lt_of_le_of_lt (UInt32.le_iff_toNat_le.1 hd) hlt
  rcases Bool.or_eq_true_iff.1 h with halphanum | hunderscore
  · rcases Bool.or_eq_true_iff.1 halphanum with halpha | hdigit
    · rcases Bool.or_eq_true_iff.1 halpha with hupper | hlower
      · exact hle (of_decide_eq_true hupper).2 (by decide)
      · exact hle (of_decide_eq_true (Bool.and_eq_true_iff.1 hlower).2) (by decide)
    · exact hle (of_decide_eq_true (Bool.and_eq_true_iff.1 hdigit).2) (by decide)
  · obtain rfl := beq_iff_eq.1 hunderscore
    decide

lemma isWordChar_of_isSmallWordChar (h : isSmallWordChar c) : isWordChar c := by
  have hforms : (c.isLower || c.isDigit || c == '_') = true := h
  show (c.isUpper || c.isLower || c.isDigit || c == '_') = true
  simp only [Bool.or_eq_true] at hforms ⊢
  tauto

lemma ne_hyphen_of_isWordChar (h : isWordChar c) : c ≠ '-' := by
  rintro rfl
  cases h

lemma forms_of_isWordChar (h : isWordChar c) :
    isWordChar c.toLower ∧ (c.isUpper → c.toLower.toUpper = c) ∧
      (c.toLower = c ↔ c.isUpper = false) :=
  Text.forall_ascii (p := fun c => isWordChar c → isWordChar c.toLower ∧
    (c.isUpper → c.toLower.toUpper = c) ∧ (c.toLower = c ↔ c.isUpper = false)) (by decide +kernel)
    (toNat_lt_of_isWordChar h) h

lemma isWordChar_toLower (h : isWordChar c) : isWordChar c.toLower :=
  (forms_of_isWordChar h).1

lemma toUpper_toLower (h : isWordChar c) (hu : c.isUpper) : c.toLower.toUpper = c :=
  (forms_of_isWordChar h).2.1 hu

lemma toLower_eq_self_iff (h : isWordChar c) : c.toLower = c ↔ c.isUpper = false :=
  (forms_of_isWordChar h).2.2

lemma forms_of_isSmallWordChar (h : isSmallWordChar c) :
    isWordChar c.toUpper ∧ c.isUpper = false ∧ c.toUpper.isLower = false ∧
      c.toUpper.isUpper = c.isAlpha ∧ c.toUpper.toLower = c :=
  Text.forall_ascii (p := fun c => isSmallWordChar c → isWordChar c.toUpper ∧ c.isUpper = false ∧
    c.toUpper.isLower = false ∧ c.toUpper.isUpper = c.isAlpha ∧ c.toUpper.toLower = c)
    (by decide +kernel) (toNat_lt_of_isWordChar (isWordChar_of_isSmallWordChar h)) h

lemma isWordChar_toUpper (h : isSmallWordChar c) : isWordChar c.toUpper :=
  (forms_of_isSmallWordChar h).1

lemma isUpper_of_isSmallWordChar (h : isSmallWordChar c) : c.isUpper = false :=
  (forms_of_isSmallWordChar h).2.1

lemma isLower_toUpper (h : isSmallWordChar c) : c.toUpper.isLower = false :=
  (forms_of_isSmallWordChar h).2.2.1

lemma isUpper_toUpper (h : isSmallWordChar c) : c.toUpper.isUpper = c.isAlpha :=
  (forms_of_isSmallWordChar h).2.2.2.1

lemma toLower_toUpper (h : isSmallWordChar c) : c.toUpper.toLower = c :=
  (forms_of_isSmallWordChar h).2.2.2.2

lemma toLower_of_isSmallWordChar (h : isSmallWordChar c) : c.toLower = c := by
  rw [toLower_eq_self_iff (isWordChar_of_isSmallWordChar h)]
  exact isUpper_of_isSmallWordChar h

lemma isLower_eq_isAlpha (h : isSmallWordChar c) : c.isLower = c.isAlpha := by
  show c.isLower = (c.isUpper || c.isLower)
  rw [isUpper_of_isSmallWordChar h, Bool.false_or]

end Characters

def hyphenateAfter (previous : Char) : Text → Text
  | [] => []
  | c :: rest =>
    if previous.isLower && c.isUpper then '-' :: c :: hyphenateAfter c rest
    else c :: hyphenateAfter c rest

def settleAfter (previous : Char) : Text → Text
  | [] => []
  | c :: rest => (if previous.isLower then c else c.toLower) :: settleAfter c rest

variable {c d previous : Char} {cs s w : Text} {words : List Text}

lemma hyphenate_cons (c : Char) (cs : Text) : hyphenate (c :: cs) = c :: hyphenateAfter c cs := by
  induction cs generalizing c with
  | nil => rfl
  | cons d cs ih =>
    rw [hyphenate, hyphenateAfter, ih]
    split
    · rfl
    · rfl

lemma hyphenate_eq (s : Text) : hyphenate s = hyphenateAfter '-' s := by
  cases s with
  | nil => rfl
  | cons c cs => exact hyphenate_cons c cs

lemma mem_hyphenateAfter (h : d ∈ hyphenateAfter previous cs) : d = '-' ∨ d ∈ cs := by
  induction cs generalizing previous with
  | nil => cases h
  | cons c cs ih =>
    rw [hyphenateAfter] at h
    split at h
    · rcases List.mem_cons.1 h with rfl | h
      · exact Or.inl rfl
      · rcases List.mem_cons.1 h with rfl | h
        · exact Or.inr List.mem_cons_self
        · exact (ih h).imp_right (List.mem_cons_of_mem c)
    · rcases List.mem_cons.1 h with rfl | h
      · exact Or.inr List.mem_cons_self
      · exact (ih h).imp_right (List.mem_cons_of_mem c)

lemma toKebab_eq (h : ∀ c ∈ s, isWordChar c) :
    toKebab s = (hyphenateAfter '-' s).map Char.toLower := by
  rw [toKebab, hyphenate_eq, Text.lowercase, Text.lowercaseFrom_ascii]
  intro c hc
  rcases mem_hyphenateAfter hc with rfl | hc
  · decide
  · exact toNat_lt_of_isWordChar (h c hc)

lemma toCamel_cons (h : c ≠ '-') (cs : Text) : toCamel (c :: cs) = c :: toCamel cs := by
  rw [toCamel]
  rintro d rest hc -
  exact h hc

lemma toCamel_hyphen (h : isWordChar c) (cs : Text) :
    toCamel ('-' :: c :: cs) = c.toUpper :: toCamel cs := by
  rw [toCamel, if_pos h]

section Capitals

lemma toCamel_hyphenateAfter (h : ∀ c ∈ cs, isWordChar c) (previous : Char) :
    toCamel ((hyphenateAfter previous cs).map Char.toLower) = settleAfter previous cs := by
  induction cs generalizing previous with
  | nil => rfl
  | cons c cs ih =>
    obtain ⟨hc, hcs⟩ := List.forall_mem_cons.1 h
    have hlower := isWordChar_toLower hc
    rw [hyphenateAfter, settleAfter]
    by_cases hprevious : previous.isLower
    · rw [if_pos hprevious]
      cases hu : c.isUpper with
      | true =>
        rw [if_pos (by rw [hprevious]; rfl), List.map_cons, List.map_cons]
        rw [show Char.toLower '-' = '-' from rfl, toCamel_hyphen hlower, toUpper_toLower hc hu, ih hcs]
      | false =>
        rw [if_neg (by rw [Bool.and_false]; exact Bool.false_ne_true), List.map_cons,
          toCamel_cons (ne_hyphen_of_isWordChar hlower), ih hcs, (toLower_eq_self_iff hc).2 hu]
    · rw [if_neg hprevious, if_neg (fun hand => hprevious (Bool.and_eq_true_iff.1 hand).1),
        List.map_cons, toCamel_cons (ne_hyphen_of_isWordChar hlower), ih hcs]

lemma settleAfter_eq_iff (h : ∀ c ∈ cs, isWordChar c) (previous : Char) :
    settleAfter previous cs = cs ↔
      (previous :: cs).IsChain fun p c => c.isUpper → p.isLower := by
  induction cs generalizing previous with
  | nil => simp [settleAfter]
  | cons c cs ih =>
    obtain ⟨hc, hcs⟩ := List.forall_mem_cons.1 h
    have hkept : (if previous.isLower then c else c.toLower) = c ↔
        (c.isUpper → previous.isLower) := by
      split
      · rename_i hprevious
        simp [hprevious]
      · rename_i hprevious
        rw [toLower_eq_self_iff hc]
        simp [hprevious]
    rw [settleAfter, List.cons.injEq, List.isChain_cons_cons, ih hcs, hkept]

lemma keepsCapitals_iff :
    KeepsCapitals s ↔ ('-' :: s).IsChain fun p c => c.isUpper → p.isLower := by
  rw [List.isChain_iff_forall_rel_of_append_cons_cons]
  constructor
  · intro h p c before after hsplit hc
    cases before with
    | nil =>
      obtain ⟨rfl, rfl⟩ := List.cons.inj hsplit
      obtain ⟨p, hp, -⟩ := h [] c after rfl hc
      cases hp
    | cons hyphen before =>
      obtain ⟨-, rfl⟩ := List.cons.inj hsplit
      obtain ⟨q, hq, hlower⟩ := h (before ++ [p]) c after (by simp) hc
      rw [List.getLast?_concat] at hq
      cases hq
      exact hlower
  · intro h before c after hsplit hc
    cases before using List.reverseRecOn with
    | nil => cases @h '-' c [] after (by rw [hsplit]; rfl) hc
    | append_singleton before p =>
      refine ⟨p, List.getLast?_concat, ?_⟩
      exact @h p c ('-' :: before) after (by simp [hsplit]) hc

lemma toCamel_toKebab_eq_iff (h : ∀ c ∈ s, isWordChar c) :
    toCamel (toKebab s) = s ↔ KeepsCapitals s := by
  rw [toKebab_eq h, toCamel_hyphenateAfter h, settleAfter_eq_iff h, keepsCapitals_iff]

end Capitals

section Hyphens

def capitalized : Text → Text
  | [] => []
  | c :: w => c.toUpper :: w

lemma toCamel_append (h : ∀ c ∈ w, isSmallWordChar c) (cs : Text) :
    toCamel (w ++ cs) = w ++ toCamel cs := by
  induction w with
  | nil => rfl
  | cons c w ih =>
    obtain ⟨hc, hw⟩ := List.forall_mem_cons.1 h
    have hhyphen := ne_hyphen_of_isWordChar (isWordChar_of_isSmallWordChar hc)
    rw [List.cons_append, toCamel_cons hhyphen, ih hw, List.cons_append]

lemma toCamel_words (h : ∀ w ∈ words, w ≠ [] ∧ ∀ c ∈ w, isSmallWordChar c) :
    toCamel (words.flatMap ('-' :: ·)) = words.flatMap capitalized := by
  induction words with
  | nil => rfl
  | cons w words ih =>
    obtain ⟨⟨hne, hw⟩, hwords⟩ := List.forall_mem_cons.1 h
    obtain ⟨c, v, rfl⟩ := List.exists_cons_of_ne_nil hne
    obtain ⟨hc, hv⟩ := List.forall_mem_cons.1 hw
    rw [List.flatMap_cons, List.cons_append, List.cons_append,
      toCamel_hyphen (isWordChar_of_isSmallWordChar hc), toCamel_append hv, ih hwords]
    rfl

lemma intercalate_hyphen (w : Text) (words : List Text) :
    ['-'].intercalate (w :: words) = w ++ words.flatMap ('-' :: ·) := by
  induction words generalizing w with
  | nil => rw [List.intercalate_singleton, List.flatMap_nil, List.append_nil]
  | cons v words ih =>
    rw [List.intercalate_cons_cons, ih, List.flatMap_cons, List.append_assoc]
    rfl

lemma hyphenateAfter_append (h : ∀ c ∈ w, isSmallWordChar c) (previous : Char) (cs : Text) :
    (hyphenateAfter previous (w ++ cs)).map Char.toLower =
      w ++ (hyphenateAfter (w.getLastD previous) cs).map Char.toLower := by
  induction w generalizing previous with
  | nil => rfl
  | cons c w ih =>
    obtain ⟨hc, hw⟩ := List.forall_mem_cons.1 h
    have hcapital : ¬ (previous.isLower && c.isUpper) := by
      rw [isUpper_of_isSmallWordChar hc, Bool.and_false]
      exact Bool.false_ne_true
    rw [List.cons_append, hyphenateAfter, if_neg hcapital, List.map_cons,
      toLower_of_isSmallWordChar hc, ih hw, List.getLastD_cons, List.cons_append]

lemma isLower_getLastD_iff (hw : ∀ c ∈ w, isSmallWordChar c) (hd : d.isLower = false) :
    (w.getLastD d).isLower ↔ ∃ c ∈ w.getLast?, c.isAlpha := by
  cases w using List.reverseRecOn with
  | nil => simp [hd]
  | append_singleton w c =>
    have hc := hw c (List.mem_append_right w List.mem_cons_self)
    rw [List.getLastD_concat, List.getLast?_concat, isLower_eq_isAlpha hc]
    simp

lemma isLower_getLastD_capital (hw : ∀ d ∈ c :: w, isSmallWordChar d) :
    (w.getLastD c.toUpper).isLower ↔
      (∃ d ∈ (c :: w).getLast?, d.isAlpha) ∧ 2 ≤ (c :: w).length := by
  obtain ⟨hc, hw⟩ := List.forall_mem_cons.1 hw
  rw [isLower_getLastD_iff hw (isLower_toUpper hc)]
  cases w with
  | nil => simp
  | cons d w => simp [List.getLast?_cons_cons]

lemma hyphenateAfter_words_eq_iff (h : ∀ w ∈ words, w ≠ [] ∧ ∀ c ∈ w, isSmallWordChar c)
    (previous : Char) :
    (hyphenateAfter previous (words.flatMap capitalized)).map Char.toLower =
        words.flatMap ('-' :: ·) ↔
      (words ≠ [] → previous.isLower) ∧ (∀ w ∈ words, ∃ c ∈ w.head?, c.isAlpha) ∧
        ∀ w ∈ words.dropLast, (∃ c ∈ w.getLast?, c.isAlpha) ∧ 2 ≤ w.length := by
  induction words generalizing previous with
  | nil => simp [hyphenateAfter]
  | cons w words ih =>
    obtain ⟨⟨hne, hw⟩, hwords⟩ := List.forall_mem_cons.1 h
    obtain ⟨c, v, rfl⟩ := List.exists_cons_of_ne_nil hne
    obtain ⟨hc, hv⟩ := List.forall_mem_cons.1 hw
    rw [List.flatMap_cons, List.flatMap_cons, capitalized, List.cons_append, List.cons_append,
      hyphenateAfter, isUpper_toUpper hc]
    by_cases hhyphen : previous.isLower && c.isAlpha
    · obtain ⟨hprevious, hletter⟩ := Bool.and_eq_true_iff.1 hhyphen
      rw [if_pos hhyphen, List.map_cons, List.map_cons, toLower_toUpper hc,
        hyphenateAfter_append hv, List.cons_append]
      simp only [show Char.toLower '-' = '-' from rfl, List.cons.injEq, true_and,
        List.append_cancel_left_eq, ih hwords, isLower_getLastD_capital hw]
      cases words with
      | nil => simp [hprevious, hletter]
      | cons u words => simp [hprevious, hletter, and_left_comm, and_assoc]
    · have hfirst : c ≠ '-' := ne_hyphen_of_isWordChar (isWordChar_of_isSmallWordChar hc)
      rw [if_neg hhyphen, List.map_cons, toLower_toUpper hc]
      apply iff_of_false
      · intro heq
        exact hfirst (List.cons.inj heq).1
      · rintro ⟨hprevious, hstarts, -⟩
        obtain ⟨d, hd, hletter⟩ := hstarts (c :: v) List.mem_cons_self
        cases hd
        exact hhyphen (Bool.and_eq_true_iff.2 ⟨hprevious (List.cons_ne_nil _ _), hletter⟩)

lemma keepsHyphens_cons_iff (hw : ∀ c ∈ w, isSmallWordChar c) :
    KeepsHyphens (w :: words) ↔ (words ≠ [] → (w.getLastD '-').isLower) ∧
      (∀ v ∈ words, ∃ c ∈ v.head?, c.isAlpha) ∧
        ∀ v ∈ words.dropLast, (∃ c ∈ v.getLast?, c.isAlpha) ∧ 2 ≤ v.length := by
  rw [isLower_getLastD_iff hw (by decide)]
  constructor
  · rintro ⟨hstarts, hends, hlong⟩
    refine ⟨fun hne => ?_, hstarts, fun v hv => ⟨?_, hlong v hv⟩⟩
    · apply hends w
      rw [List.dropLast_cons_of_ne_nil hne]
      exact List.mem_cons_self
    · apply hends v
      rw [List.dropLast_cons_of_ne_nil (by rintro rfl; cases hv)]
      exact List.mem_cons_of_mem w hv
  · rintro ⟨hlast, hstarts, hinner⟩
    refine ⟨hstarts, fun v hv => ?_, fun v hv => (hinner v hv).2⟩
    cases words with
    | nil => cases hv
    | cons u words =>
      rw [List.dropLast_cons_of_ne_nil (List.cons_ne_nil u words)] at hv
      rcases List.mem_cons.1 hv with rfl | hv
      · exact hlast (List.cons_ne_nil u words)
      · exact (hinner v hv).1

lemma isWordChar_of_mem_words (h : ∀ w ∈ words, w ≠ [] ∧ ∀ c ∈ w, isSmallWordChar c) :
    ∀ c ∈ words.flatMap capitalized, isWordChar c := by
  intro d hd
  obtain ⟨w, hmem, hd⟩ := List.mem_flatMap.1 hd
  obtain ⟨hne, hw⟩ := h w hmem
  obtain ⟨c, v, rfl⟩ := List.exists_cons_of_ne_nil hne
  rcases List.mem_cons.1 hd with rfl | hd
  · exact isWordChar_toUpper (hw c List.mem_cons_self)
  · exact isWordChar_of_isSmallWordChar (hw d (List.mem_cons_of_mem c hd))

lemma toKebab_toCamel_eq_iff (hne : words ≠ [])
    (h : ∀ w ∈ words, w ≠ [] ∧ ∀ c ∈ w, isSmallWordChar c) :
    toKebab (toCamel (['-'].intercalate words)) = ['-'].intercalate words ↔ KeepsHyphens words := by
  obtain ⟨w, words, rfl⟩ := List.exists_cons_of_ne_nil hne
  obtain ⟨⟨-, hw⟩, hwords⟩ := List.forall_mem_cons.1 h
  have hword : ∀ c ∈ w ++ words.flatMap capitalized, isWordChar c := by
    refine List.forall_mem_append.2 ⟨fun c hc => ?_, isWordChar_of_mem_words hwords⟩
    exact isWordChar_of_isSmallWordChar (hw c hc)
  rw [intercalate_hyphen, toCamel_append hw, toCamel_words hwords, toKebab_eq hword,
    hyphenateAfter_append hw, List.append_cancel_left_eq, hyphenateAfter_words_eq_iff hwords,
    keepsHyphens_cons_iff hw]

end Hyphens

/-- When a name comes back from the other way to write it: for small words with hyphens between them, and
for words with capitals. -/
theorem spellings_restored_iff :
    (∀ words : List Text, words ≠ [] → (∀ w ∈ words, w ≠ [] ∧ ∀ c ∈ w, isSmallWordChar c) →
      (toKebab (toCamel (['-'].intercalate words)) = ['-'].intercalate words ↔
        KeepsHyphens words)) ∧
    ∀ s : Text, (∀ c ∈ s, isWordChar c) → (toCamel (toKebab s) = s ↔ KeepsCapitals s) := by
  constructor
  · intro words hne h
    exact toKebab_toCamel_eq_iff hne h
  · intro s h
    exact toCamel_toKebab_eq_iff h

theorem spellings_restored_single_letter :
    [['n', 'g'], ['a'], ['b', '2']] ≠ [] ∧
    (∀ w ∈ [['n', 'g'], ['a'], ['b', '2']], w ≠ [] ∧ ∀ c ∈ w, isSmallWordChar c) ∧
    toCamel ['n', 'g', '-', 'a', '-', 'b', '2'] = ['n', 'g', 'A', 'B', '2'] ∧
    ¬ KeepsHyphens [['n', 'g'], ['a'], ['b', '2']] ∧
    (∀ c ∈ ['n', 'g', 'A', '2'], isWordChar c) ∧
    toCamel (toKebab ['n', 'g', 'A', '2']) = ['n', 'g', 'A', '2'] ∧ KeepsCapitals ['n', 'g', 'A', '2'] := by
  have hwords : ∀ w ∈ [['n', 'g'], ['a'], ['b', '2']], w ≠ [] ∧ ∀ c ∈ w, isSmallWordChar c := by
    simp only [← List.all_eq_true]
    decide
  have hs : ∀ c ∈ ['n', 'g', 'A', '2'], isWordChar c := by
    rw [← List.all_eq_true]
    decide
  have hlost : toKebab (toCamel (['-'].intercalate [['n', 'g'], ['a'], ['b', '2']])) ≠
      ['-'].intercalate [['n', 'g'], ['a'], ['b', '2']] := by decide
  have hkept : toCamel (toKebab ['n', 'g', 'A', '2']) = ['n', 'g', 'A', '2'] := by decide
  refine ⟨by decide, hwords, by decide, fun h => ?_, hs, hkept, ?_⟩
  · exact hlost ((spellings_restored_iff.1 _ (by decide) hwords).2 h)
  · exact (spellings_restored_iff.2 _ hs).1 hkept

end Naming

end TemplateMarkup
