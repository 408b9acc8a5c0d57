import Mathlib.Data.List.TakeWhile
import TemplateMarkup.Proofs.Report.JsonGrammar
import TemplateMarkup.Report.Json

/-! Every value is written as a JSON text that stands for it, and the layout adds nothing but spaces. -/

namespace TemplateMarkup.Report

namespace JsonText

section Number

lemma head?_decimal {n : Nat} (h : 0 < n) : (Text.decimal n).head? ≠ some '0' := by
  induction n using Nat.strongRecOn with
  | _ n ih =>
    by_cases hlt : n < 10
    · have hdigit : ∀ m < 10, 0 < m → Nat.digitChar m ≠ '0' := by decide
      rw [Text.decimal, Nat.toDigits_of_lt_base hlt]
      simpa using hdigit n hlt h
    · obtain ⟨c, cs, hcs⟩ := List.exists_cons_of_ne_nil (@Nat.toDigits_ne_nil (n / 10) 10)
      have hhead := ih (n / 10) (by omega) (by omega)
      rw [Text.decimal, hcs] at hhead
      rw [Text.decimal, Nat.toDigits_of_base_le (by decide) (by omega), hcs]
      exact hhead

lemma isDigit_of_mem_decimal {n : Nat} {c : Char} (h : c ∈ Text.decimal n) : c.isDigit :=
  Nat.isDigit_of_mem_toDigits (by decide) (by decide) h

lemma exists_decimal (n : Nat) : ∃ c cs, Text.decimal n = c :: cs ∧ c.isDigit := by
  obtain ⟨c, cs, h⟩ := List.exists_cons_of_ne_nil (@Nat.toDigits_ne_nil n 10)
  exact ⟨c, cs, h, isDigit_of_mem_decimal (h ▸ List.mem_cons_self ..)⟩

lemma digits?_decimal (n : Nat) : digits? (Text.decimal n) = some n := by
  have hempty : (Text.decimal n).isEmpty = false := by
    rw [List.isEmpty_eq_false_iff]
    exact Nat.toDigits_ne_nil
  have hall : (Text.decimal n).all Char.isDigit = true := by
    rw [List.all_eq_true]
    exact fun c hc => isDigit_of_mem_decimal hc
  rw [digits?, if_neg (by simp [hempty, hall])]
  exact congrArg some Nat.ofDigitChars_ten_toDigits

lemma isWhole_decimal (n : Nat) : isWhole (Text.decimal n) := by
  rw [isWhole, digits?_decimal]
  by_cases h : 0 < n
  · simp [head?_decimal h]
  · obtain rfl : n = 0 := by omega
    decide

lemma number?_decimal (n : Nat) : number? (Text.decimal n) = some (n : ℚ) := by
  obtain ⟨c, cs, h, hc⟩ := exists_decimal n
  have htake : (Text.decimal n).takeWhile Char.isDigit = Text.decimal n :=
    List.takeWhile_eq_self_iff.2 fun c hc => isDigit_of_mem_decimal hc
  have hdrop : (Text.decimal n).dropWhile Char.isDigit = [] :=
    List.dropWhile_eq_nil_iff.2 fun c hc => isDigit_of_mem_decimal hc
  have hunsigned : unsigned? (Text.decimal n) = some (n : ℚ) := by
    have hvalue : Nat.ofDigitChars 10 (Text.decimal n) 0 = n := Nat.ofDigitChars_ten_toDigits
    rw [unsigned?, htake, hdrop, if_pos (isWhole_decimal n)]
    simp [places?, exponent?, hvalue]
  rw [h] at hunsigned ⊢
  have hsign : c ≠ '-' := by
    rintro rfl
    cases hc
  rw [number?]
  · exact hunsigned
  · intro ds hds
    exact hsign (List.cons.inj hds).1

lemma isNumberChar_of_isDigit {c : Char} (h : c.isDigit) : isNumberChar c := by
  simp [isNumberChar, h]

lemma reads_decimal (n : Nat) {rest : Text} (hrest : ∀ c ∈ rest.head?, isNumberChar c = false) :
    Reads (Text.decimal n ++ rest) (.number n) rest := by
  have hdigits : ∀ c ∈ Text.decimal n, isNumberChar c = true := fun c hc =>
    isNumberChar_of_isDigit (isDigit_of_mem_decimal hc)
  have hstop : rest.takeWhile isNumberChar = [] ∧ rest.dropWhile isNumberChar = rest := by
    cases rest with
    | nil => exact ⟨rfl, rfl⟩
    | cons c rest =>
      have hc := hrest c rfl
      rw [List.takeWhile_cons_of_neg (by simp [hc]), List.dropWhile_cons_of_neg (by simp [hc])]
      exact ⟨rfl, rfl⟩
  obtain ⟨c, cs, h, hc⟩ := exists_decimal n
  have hnumber : number? ((Text.decimal n ++ rest).takeWhile isNumberChar) = some (n : ℚ) := by
    rw [List.takeWhile_append_of_pos hdigits, hstop.1, List.append_nil, number?_decimal]
  have hafter : (cs ++ rest).dropWhile isNumberChar = rest := by
    rw [List.dropWhile_append_of_pos, hstop.2]
    intro d hd
    exact hdigits d (h ▸ List.mem_cons_of_mem c hd)
  rw [h, List.cons_append] at hnumber ⊢
  have hreads := Reads.number (isNumberChar_of_isDigit hc) hnumber
  rwa [hafter] at hreads

end Number

section String

lemma hexDigit?_hexDigit : ∀ n < 16, hexDigit? (Json.hexDigit n) = some n := by
  decide

lemma code?_control {n : Nat} (h : n < 32) (rest : Text) :
    code? ('0' :: '0' :: Json.hexDigit (n / 16) :: Json.hexDigit (n % 16) :: rest) =
      some (n, rest) := by
  have hzero : hexDigit? '0' = some 0 := by decide
  rw [code?, hzero, hexDigit?_hexDigit _ (by omega), hexDigit?_hexDigit _ (by omega)]
  simp only [Option.bind_eq_bind, Option.bind_some, Option.some.injEq, Prod.mk.injEq, and_true]
  omega

lemma coded?_control {c : Char} (h : c < ' ') (rest : Text) :
    coded? ('0' :: '0' :: Json.hexDigit (c.toNat / 16) :: Json.hexDigit (c.toNat % 16) :: rest) =
      some (c, rest) := by
  have hlt : c.toNat < 32 := h
  rw [coded?, code?_control hlt]
  simp only [Option.bind_eq_bind, Option.bind_some]
  rw [if_pos (by simp; omega), Char.ofNat_toNat]

lemma char?_escape (c : Char) (rest : Text) : char? (Json.escape c ++ rest) = some (c, rest) := by
  rw [Json.escape]
  iterate 7
    split
    · rename_i h
      rw [h]
      rfl
  split
  · rename_i hcontrol
    exact coded?_control hcontrol rest
  · rename_i hquote hback _ _ _ _ _ hcontrol
    simp [char?, hquote, hback, hcontrol]

lemma readsString_quote (text rest : Text) :
    ReadsString (text.flatMap Json.escape ++ '"' :: rest) text rest := by
  induction text with
  | nil => exact .done rest
  | cons c text ih =>
    rw [List.flatMap_cons, List.append_assoc]
    exact .char (char?_escape c _) ih

end String

section Layout

lemma skip_of_not_space {c : Char} (h : isSpace c = false) (cs : Text) : skip (c :: cs) = c :: cs := by
  rw [skip, List.dropWhile_cons_of_neg (by simp [h])]

lemma skip_newLine (level : Nat) (cs : Text) : skip (Json.newLine level ++ cs) = skip cs := by
  apply List.dropWhile_append_of_pos
  intro c hc
  rcases List.mem_cons.1 hc with rfl | hc
  · rfl
  · rw [List.eq_of_mem_replicate hc]
    rfl

lemma exists_print (level : Nat) (j : Json) :
    ∃ c cs, j.print level = c :: cs ∧ isSpace c = false := by
  cases j with
  | string text => exact ⟨_, _, by rw [Json.print, Json.quote, List.cons_append], rfl⟩
  | number n =>
    obtain ⟨c, cs, h, hc⟩ := exists_decimal n
    refine ⟨c, cs, by rw [Json.print, h], ?_⟩
    by_contra hspace
    simp only [isSpace, Bool.not_eq_false, Bool.or_eq_true, beq_iff_eq] at hspace
    rcases hspace with ((rfl | rfl) | rfl) | rfl <;> cases hc
  | list items =>
    cases items with
    | nil => exact ⟨_, _, by rw [Json.print], rfl⟩
    | cons item items => exact ⟨_, _, by rw [Json.print, List.cons_append, List.cons_append], rfl⟩
  | record fields =>
    cases fields with
    | nil => exact ⟨_, _, by rw [Json.print], rfl⟩
    | cons field fields => exact ⟨_, _, by rw [Json.print, List.cons_append, List.cons_append], rfl⟩

lemma skip_print (level : Nat) (j : Json) (rest : Text) :
    skip (j.print level ++ rest) = j.print level ++ rest := by
  obtain ⟨c, cs, h, hc⟩ := exists_print level j
  rw [h, List.cons_append, skip_of_not_space hc]

end Layout

end JsonText

namespace Json

open JsonText

mutual

def value : Json → Value
  | string text => .string text
  | number n => .number n
  | list items => .array (values items)
  | record fields => .object (fieldValues fields)

def values : List Json → List Value
  | [] => []
  | item :: rest => item.value :: values rest

def fieldValues : List (Text × Json) → List (Text × Value)
  | [] => []
  | (key, item) :: rest => (key, item.value) :: fieldValues rest

end

lemma values_eq_map (items : List Json) : values items = items.map value := by
  induction items with
  | nil => rfl
  | cons item rest ih => rw [values, ih, List.map_cons]

lemma head?_newLine (level : Nat) (cs : Text) :
    ∀ c ∈ (newLine level ++ cs).head?, isNumberChar c = false := by
  rintro c ⟨⟩
  rfl

lemma readsField_quote {cs rest : Text} {value : Value} (level : Nat) (key : Text)
    (h : Reads (skip cs) value rest) :
    ReadsField (newLine level ++ (quote key ++ ([':', ' '] ++ cs))) (key, value) rest := by
  have hopen : skip (newLine level ++ (quote key ++ ([':', ' '] ++ cs))) =
      '"' :: (key.flatMap escape ++ '"' :: ([':', ' '] ++ cs)) := by
    rw [skip_newLine, quote, List.cons_append, List.cons_append, List.append_assoc]
    rfl
  have hcolon : skip ([':', ' '] ++ cs) = ':' :: ' ' :: cs := rfl
  exact .mk hopen (readsString_quote key _) hcolon h

mutual

lemma reads_print (level : Nat) (after : Text) (hafter : ∀ c ∈ after.head?, isNumberChar c = false) :
    ∀ j : Json, Reads (j.print level ++ after) j.value after
  | string text => by
    rw [print, quote, List.cons_append, List.cons_append, List.append_assoc]
    exact .string (readsString_quote text after)
  | number n => reads_decimal n hafter
  | list [] => .emptyArray rfl
  | list (item :: rest) => by
    rw [print, List.cons_append, List.cons_append, List.cons_append, List.append_assoc,
      List.append_assoc]
    exact .array (readsItems_print (level + 1) level after (item :: rest) (by simp))
  | record [] => .emptyObject rfl
  | record (field :: rest) => by
    rw [print, List.cons_append, List.cons_append, List.cons_append, List.append_assoc,
      List.append_assoc]
    exact .object (readsFields_print (level + 1) level after (field :: rest) (by simp))

lemma readsItems_print (level outer : Nat) (after : Text) : ∀ items : List Json, items ≠ [] →
    ReadsItems (printItems level items ++ (newLine outer ++ ']' :: after)) (values items) after
  | [], h => absurd rfl h
  | [item], _ => by
    simp only [printItems, List.isEmpty_nil, if_true, List.append_nil, List.append_assoc]
    refine @ReadsItems.last _ (newLine outer ++ ']' :: after) _ _ ?_ ?_
    · rw [skip_newLine, skip_print]
      exact reads_print level _ (head?_newLine outer _) item
    · rw [skip_newLine]
      rfl
  | item :: next :: rest, _ => by
    have hrest := readsItems_print level outer after (next :: rest) (by simp)
    rw [printItems]
    simp only [List.isEmpty_cons, Bool.false_eq_true, if_false, List.append_assoc]
    refine @ReadsItems.more _ ([','] ++ _) _ _ _ _ ?_ rfl hrest
    rw [skip_newLine, skip_print]
    exact reads_print level _ (by rintro c ⟨⟩; rfl) item

lemma readsFields_print (level outer : Nat) (after : Text) :
    ∀ fields : List (Text × Json), fields ≠ [] →
      ReadsFields (printFields level fields ++ (newLine outer ++ '}' :: after)) (fieldValues fields)
        after
  | [], h => absurd rfl h
  | [(key, item)], _ => by
    simp only [printFields, List.isEmpty_nil, if_true, List.append_nil, List.append_assoc]
    refine @ReadsFields.last _ (newLine outer ++ '}' :: after) _ _ (readsField_quote level key ?_) ?_
    · rw [skip_print]
      exact reads_print level _ (head?_newLine outer _) item
    · rw [skip_newLine]
      rfl
  | (key, item) :: next :: rest, _ => by
    have hrest := readsFields_print level outer after (next :: rest) (by simp)
    rw [printFields]
    simp only [List.isEmpty_cons, Bool.false_eq_true, if_false, List.append_assoc]
    refine @ReadsFields.more _ ([','] ++ _) _ _ _ _ (readsField_quote level key ?_) rfl hrest
    rw [skip_print]
    exact reads_print level _ (by rintro c ⟨⟩; rfl) item

end

lemma denotes_render_iff (j : Json) {cs : Text} (hcs : skip cs = []) (v : Value) :
    Denotes (j.render ++ cs) v ↔ v = j.value := by
  have hafter : ∀ c ∈ cs.head?, isNumberChar c = false := by
    intro c hc
    cases cs with
    | nil => cases hc
    | cons d cs =>
      obtain rfl := Option.some.inj hc
      by_contra hnumber
      have hspace := List.dropWhile_eq_nil_iff.1 hcs d (List.mem_cons_self ..)
      simp only [isSpace, Bool.or_eq_true, beq_iff_eq] at hspace
      rcases hspace with ((rfl | rfl) | rfl) | rfl <;> exact hnumber rfl
  have hdenotes : Denotes (j.render ++ cs) j.value := by
    refine ⟨cs, ?_, hcs⟩
    rw [render, skip_print]
    exact reads_print 0 cs hafter j
  constructor
  · exact fun h => h.unique hdenotes
  · rintro rfl
    exact hdenotes

end Json

end TemplateMarkup.Report
