import Mathlib.Computability.Language
import TemplateMarkup.Glob.Matching

/-! The paths that a pattern fits, as a language of bytes. The marks of an end of a path say whether that end
lies in the language of the parts tried so far. -/

namespace TemplateMarkup.Glob

def byteLanguage (p : UInt8 → Bool) : Language UInt8 :=
  {run | ∃ b, p b = true ∧ run = [b]}

def slashLanguage : Language UInt8 :=
  {[slash]}

mutual

def Part.language : Part → Language UInt8
  | .letter c => {Text.bytes [c]}
  | .anyByte => byteLanguage fun _ => true
  | .anyRun => ⊤
  | .leading => 1 + slashLanguage + ⊤ * slashLanguage
  | .between => slashLanguage + slashLanguage * ⊤ * slashLanguage
  | .trailing => slashLanguage * ⊤
  | .oneOf negated ranges => byteLanguage (isInClass ranges · != negated)
  | .choice [] => 1
  | .choice (parts :: others) => languageOf parts + languageOfAny others

def languageOf : List Part → Language UInt8
  | [] => 1
  | part :: others => part.language * languageOf others

def languageOfAny : List (List Part) → Language UInt8
  | [] => 0
  | parts :: others => languageOf parts + languageOfAny others

end

section Languages

variable {p : UInt8 → Bool} {b : UInt8} {run path : List UInt8} {L K : Language UInt8}

lemma mem_singleton_mul : path ∈ ({run} : Language UInt8) * L ↔ ∃ rest ∈ L, run ++ rest = path := by
  rw [Language.mem_mul]
  exact exists_eq_left

lemma mem_byteLanguage_mul :
    path ∈ byteLanguage p * L ↔ ∃ b rest, p b = true ∧ rest ∈ L ∧ path = b :: rest := by
  rw [Language.mem_mul]
  constructor
  · rintro ⟨_, ⟨b, hb, rfl⟩, rest, hrest, rfl⟩
    exact ⟨b, rest, hb, hrest, rfl⟩
  · rintro ⟨b, rest, hb, hrest, rfl⟩
    exact ⟨[b], ⟨b, hb, rfl⟩, rest, hrest, rfl⟩

lemma nil_not_mem_byteLanguage_mul : [] ∉ byteLanguage p * L := by
  rw [mem_byteLanguage_mul]
  rintro ⟨b, rest, -, -, h⟩
  cases h

lemma cons_mem_byteLanguage_mul : b :: path ∈ byteLanguage p * L ↔ p b = true ∧ path ∈ L := by
  rw [mem_byteLanguage_mul]
  constructor
  · rintro ⟨b', rest, hb, hrest, h⟩
    obtain ⟨rfl, rfl⟩ := List.cons.inj h
    exact ⟨hb, hrest⟩
  · rintro ⟨hb, hpath⟩
    exact ⟨b, path, hb, hpath, rfl⟩

lemma byteLanguage_eq_singleton (b : UInt8) : byteLanguage (· == b) = {[b]} := by
  ext run
  constructor
  · rintro ⟨b', hb, rfl⟩
    rw [eq_of_beq hb]
    rfl
  · rintro rfl
    exact ⟨b, beq_self_eq_true b, rfl⟩

lemma singleton_append_mul (run more : List UInt8) (L : Language UInt8) :
    ({run ++ more} : Language UInt8) * L = {run} * ({more} * L) := by
  ext path
  rw [mem_singleton_mul, mem_singleton_mul]
  constructor
  · rintro ⟨rest, hrest, rfl⟩
    exact ⟨more ++ rest, mem_singleton_mul.2 ⟨rest, hrest, rfl⟩, (List.append_assoc ..).symm⟩
  · rintro ⟨_, hmem, rfl⟩
    obtain ⟨rest, hrest, rfl⟩ := mem_singleton_mul.1 hmem
    exact ⟨rest, hrest, List.append_assoc ..⟩

lemma singleton_cons_mul (b : UInt8) (run : List UInt8) (L : Language UInt8) :
    ({b :: run} : Language UInt8) * L = byteLanguage (· == b) * ({run} * L) := by
  rw [byteLanguage_eq_singleton, ← singleton_append_mul]
  rfl

lemma mem_top_mul : path ∈ ⊤ * L ↔ ∃ front back, path = front ++ back ∧ back ∈ L := by
  rw [Language.mem_mul]
  constructor
  · rintro ⟨front, -, back, hback, rfl⟩
    exact ⟨front, back, rfl, hback⟩
  · rintro ⟨front, back, rfl, hback⟩
    exact ⟨front, trivial, back, hback, rfl⟩

lemma nil_mem_top_mul : [] ∈ (⊤ : Language UInt8) * L ↔ [] ∈ L := by
  rw [mem_top_mul]
  constructor
  · rintro ⟨front, back, hnil, hback⟩
    rwa [(List.append_eq_nil_iff.1 hnil.symm).2] at hback
  · exact fun h => ⟨[], [], rfl, h⟩

lemma cons_mem_top_mul :
    b :: path ∈ (⊤ : Language UInt8) * L ↔ b :: path ∈ L ∨ path ∈ ⊤ * L := by
  rw [mem_top_mul, mem_top_mul]
  constructor
  · rintro ⟨front, back, hpath, hback⟩
    cases front with
    | nil => exact Or.inl (hpath ▸ hback)
    | cons b' front => exact Or.inr ⟨front, back, (List.cons.inj hpath).2, hback⟩
  · rintro (h | ⟨front, back, rfl, hback⟩)
    · exact ⟨[], b :: path, rfl, h⟩
    · exact ⟨b :: front, back, rfl, hback⟩

lemma leading_language : Part.leading.language = 1 + ⊤ * slashLanguage := by
  ext path
  simp only [Part.language, Language.mem_add]
  constructor
  · rintro ((h | h) | h)
    · exact Or.inl h
    · exact Or.inr (mem_top_mul.2 ⟨[], path, rfl, h⟩)
    · exact Or.inr h
  · rintro (h | h)
    · exact Or.inl (Or.inl h)
    · exact Or.inr h

lemma between_language : Part.between.language = slashLanguage * Part.leading.language := by
  rw [leading_language, Part.language, mul_add, mul_one, mul_assoc]

end Languages

namespace Marks

inductive Tells (L : Language UInt8) : List UInt8 → Marks → Prop
  | nil {mark : Bool} (h : mark = true ↔ [] ∈ L) : Tells L [] [mark]
  | cons {b : UInt8} {path : List UInt8} {mark : Bool} {marks : Marks}
      (h : mark = true ↔ b :: path ∈ L) (later : Tells L path marks) :
      Tells L (b :: path) (mark :: marks)

namespace Tells

variable {L K : Language UInt8} {path : List UInt8} {marks others : Marks}

lemma first_iff (h : Tells L path marks) : marks.first = true ↔ path ∈ L := by
  cases h with
  | nil h => exact h
  | cons h later => exact h

lemma atEnd (path : List UInt8) : Tells 1 path (atEnd path) := by
  induction path with
  | nil => exact .nil (iff_of_true rfl Language.nil_mem_one)
  | cons b path ih => exact .cons (iff_of_false Bool.false_ne_true (List.cons_ne_nil b path)) ih

lemma none (h : Tells L path marks) : Tells 0 path (marks.map fun _ => false) := by
  induction h with
  | nil h => exact .nil (iff_of_false Bool.false_ne_true (Language.notMem_zero _))
  | cons h later ih => exact .cons (iff_of_false Bool.false_ne_true (Language.notMem_zero _)) ih

lemma or (h : Tells L path marks) (ho : Tells K path others) :
    Tells (L + K) path (marks.or others) := by
  induction h generalizing others with
  | nil h =>
    cases ho with
    | nil ho => exact .nil (by rw [Bool.or_eq_true, h, ho, Language.mem_add])
  | cons h later ih =>
    cases ho with
    | cons ho later' => exact .cons (by rw [Bool.or_eq_true, h, ho, Language.mem_add]) (ih later')

lemma orLater (h : Tells L path marks) : Tells (⊤ * L) path marks.orLater := by
  induction h with
  | nil h =>
    apply Tells.nil
    have hnone : first (Marks.orLater []) = false := rfl
    rw [nil_mem_top_mul, ← h, hnone, Bool.or_false]
  | cons h later ih =>
    exact .cons (by rw [Bool.or_eq_true, h, ih.first_iff, cons_mem_top_mul]) ih

lemma afterByte (p : UInt8 → Bool) (h : Tells L path marks) :
    Tells (byteLanguage p * L) path (afterByte p path marks) := by
  induction h with
  | nil h => exact .nil (iff_of_false Bool.false_ne_true nil_not_mem_byteLanguage_mul)
  | cons h later ih =>
    exact .cons (by rw [Bool.and_eq_true, later.first_iff, cons_mem_byteLanguage_mul]) ih

lemma afterSlash (h : Tells L path marks) :
    Tells (slashLanguage * L) path (Marks.afterByte (· == slash) path marks) := by
  rw [slashLanguage, ← byteLanguage_eq_singleton]
  exact h.afterByte _

lemma afterBytes (run : List UInt8) (h : Tells L path marks) :
    Tells ({run} * L) path (afterBytes run path marks) := by
  induction run with
  | nil =>
    change Tells (1 * L) path marks
    rwa [one_mul]
  | cons b run ih =>
    rw [singleton_cons_mul]
    exact ih.afterByte _

lemma orAfterSlash (h : Tells L path marks) :
    Tells (Part.leading.language * L) path (orAfterSlash path marks) := by
  rw [leading_language, add_mul, one_mul, mul_assoc]
  exact h.or h.afterSlash.orLater

end Tells

end Marks

mutual

lemma Part.tells_marks {L : Language UInt8} {path : List UInt8} {marks : Marks}
    (h : Marks.Tells L path marks) : (part : Part) →
    Marks.Tells (part.language * L) path (part.marks path marks)
  | .letter c => h.afterBytes _
  | .anyByte => h.afterByte _
  | .anyRun => h.orLater
  | .leading => h.orAfterSlash
  | .between => by
    rw [between_language, mul_assoc]
    exact h.orAfterSlash.afterSlash
  | .trailing => by
    rw [Part.language, mul_assoc]
    exact h.orLater.afterSlash
  | .oneOf _ _ => h.afterByte _
  | .choice [] => by
    rw [Part.language, one_mul]
    exact h
  | .choice (parts :: others) => by
    rw [Part.language, add_mul]
    exact (tells_marksOfAll h parts).or (tells_marksOfAny h others)

lemma tells_marksOfAll {L : Language UInt8} {path : List UInt8} {marks : Marks}
    (h : Marks.Tells L path marks) : (parts : List Part) →
    Marks.Tells (languageOf parts * L) path (marksOfAll path marks parts)
  | [] => by
    rw [languageOf, one_mul]
    exact h
  | part :: others => by
    rw [languageOf, mul_assoc]
    exact part.tells_marks (tells_marksOfAll h others)

lemma tells_marksOfAny {L : Language UInt8} {path : List UInt8} {marks : Marks}
    (h : Marks.Tells L path marks) : (alternatives : List (List Part)) →
    Marks.Tells (languageOfAny alternatives * L) path (marksOfAny path marks alternatives)
  | [] => by
    rw [languageOfAny, zero_mul]
    exact h.none
  | parts :: others => by
    rw [languageOfAny, add_mul]
    exact (tells_marksOfAll h parts).or (tells_marksOfAny h others)

end

end TemplateMarkup.Glob
