import Mathlib.Algebra.Field.Rat
import TemplateMarkup.Text.Basic

/-! The grammar of JSON, for texts of any layout, and the one value that a text in it stands for. A code in a
string that is half of a pair of surrogates stands for no character. -/

namespace TemplateMarkup.Report.JsonText

inductive Value where
  | null
  | truth (b : Bool)
  | number (q : ℚ)
  | string (text : Text)
  | array (items : List Value)
  | object (fields : List (Text × Value))

def isSpace (c : Char) : Bool :=
  c == ' ' || c == '\t' || c == '\n' || c == '\r'

def skip (cs : Text) : Text :=
  cs.dropWhile isSpace

section Number

def isNumberChar (c : Char) : Bool :=
  c.isDigit || c == '+' || c == '-' || c == '.' || c == 'e' || c == 'E'

def digits? (cs : Text) : Option Nat :=
  if cs.isEmpty || !cs.all Char.isDigit then none else some (Nat.ofDigitChars 10 cs 0)

def isWhole (cs : Text) : Bool :=
  (digits? cs).isSome && (cs.head? != some '0' || cs.length == 1)

def places? : Text → Option (Text × Text)
  | '.' :: cs =>
    let run := cs.takeWhile Char.isDigit
    if run.isEmpty then none else some (run, cs.dropWhile Char.isDigit)
  | cs => some ([], cs)

def exponent? : Text → Option ℤ
  | [] => some 0
  | mark :: cs =>
    if mark == 'e' || mark == 'E' then
      match cs with
      | '-' :: run => (digits? run).map fun n => -(n : ℤ)
      | '+' :: run => (digits? run).map fun n => (n : ℤ)
      | run => (digits? run).map fun n => (n : ℤ)
    else none

def unsigned? (cs : Text) : Option ℚ :=
  let whole := cs.takeWhile Char.isDigit
  if isWhole whole then do
    let (places, rest) ← places? (cs.dropWhile Char.isDigit)
    let power ← exponent? rest
    some (Nat.ofDigitChars 10 (whole ++ places) 0 * 10 ^ (power - places.length))
  else none

def number? : Text → Option ℚ
  | '-' :: cs => (unsigned? cs).map fun q => -q
  | cs => unsigned? cs

end Number

section String

def hexDigit? (c : Char) : Option Nat :=
  if c.isDigit then some (c.toNat - '0'.toNat)
  else if 'a' ≤ c && c ≤ 'f' then some (c.toNat - 'a'.toNat + 10)
  else if 'A' ≤ c && c ≤ 'F' then some (c.toNat - 'A'.toNat + 10)
  else none

def code? : Text → Option (Nat × Text)
  | a :: b :: c :: d :: rest => do
    let a ← hexDigit? a
    let b ← hexDigit? b
    let c ← hexDigit? c
    let d ← hexDigit? d
    some (((a * 16 + b) * 16 + c) * 16 + d, rest)
  | _ => none

def coded? (cs : Text) : Option (Char × Text) := do
  let (high, rest) ← code? cs
  if high < 0xD800 || 0xDFFF < high then some (Char.ofNat high, rest)
  else
    match rest with
    | '\\' :: 'u' :: rest =>
      let (low, rest) ← code? rest
      if high < 0xDC00 && 0xDC00 ≤ low && low ≤ 0xDFFF then
        some (Char.ofNat (0x10000 + (high - 0xD800) * 0x400 + (low - 0xDC00)), rest)
      else none
    | _ => none

def escaped? : Char → Option Char
  | '"' => some '"'
  | '\\' => some '\\'
  | '/' => some '/'
  | 'b' => some '\x08'
  | 'f' => some '\x0C'
  | 'n' => some '\n'
  | 'r' => some '\r'
  | 't' => some '\t'
  | _ => none

def char? : Text → Option (Char × Text)
  | [] => none
  | c :: cs =>
    if c = '\\' then
      match cs with
      | 'u' :: cs => coded? cs
      | e :: cs => (escaped? e).map fun c => (c, cs)
      | [] => none
    else if c < ' ' || c = '"' then none
    else some (c, cs)

inductive ReadsString : Text → Text → Text → Prop
  | done (rest : Text) : ReadsString ('"' :: rest) [] rest
  | char {cs ds text rest : Text} {c : Char} : char? cs = some (c, ds) → ReadsString ds text rest →
    ReadsString cs (c :: text) rest

end String

mutual

/-- A text begins with a value, and `rest` follows it. -/
inductive Reads : Text → Value → Text → Prop
  | null (rest : Text) : Reads ('n' :: 'u' :: 'l' :: 'l' :: rest) .null rest
  | true (rest : Text) : Reads ('t' :: 'r' :: 'u' :: 'e' :: rest) (.truth true) rest
  | false (rest : Text) : Reads ('f' :: 'a' :: 'l' :: 's' :: 'e' :: rest) (.truth false) rest
  | number {c : Char} {cs : Text} {q : ℚ} : isNumberChar c →
    number? ((c :: cs).takeWhile isNumberChar) = some q →
    Reads (c :: cs) (.number q) (cs.dropWhile isNumberChar)
  | string {cs text rest : Text} : ReadsString cs text rest → Reads ('"' :: cs) (.string text) rest
  | emptyArray {cs rest : Text} : skip cs = ']' :: rest → Reads ('[' :: cs) (.array []) rest
  | array {cs rest : Text} {items : List Value} : ReadsItems cs items rest →
    Reads ('[' :: cs) (.array items) rest
  | emptyObject {cs rest : Text} : skip cs = '}' :: rest → Reads ('{' :: cs) (.object []) rest
  | object {cs rest : Text} {fields : List (Text × Value)} : ReadsFields cs fields rest →
    Reads ('{' :: cs) (.object fields) rest

inductive ReadsItems : Text → List Value → Text → Prop
  | last {cs ds rest : Text} {value : Value} : Reads (skip cs) value ds → skip ds = ']' :: rest →
    ReadsItems cs [value] rest
  | more {cs ds es rest : Text} {value : Value} {items : List Value} : Reads (skip cs) value ds →
    skip ds = ',' :: es → ReadsItems es items rest → ReadsItems cs (value :: items) rest

inductive ReadsField : Text → Text × Value → Text → Prop
  | mk {cs ds es fs rest key : Text} {value : Value} : skip cs = '"' :: ds → ReadsString ds key es →
    skip es = ':' :: fs → Reads (skip fs) value rest → ReadsField cs (key, value) rest

inductive ReadsFields : Text → List (Text × Value) → Text → Prop
  | last {cs ds rest : Text} {field : Text × Value} : ReadsField cs field ds →
    skip ds = '}' :: rest → ReadsFields cs [field] rest
  | more {cs ds es rest : Text} {field : Text × Value} {fields : List (Text × Value)} :
    ReadsField cs field ds → skip ds = ',' :: es → ReadsFields es fields rest →
    ReadsFields cs (field :: fields) rest

end

def Denotes (cs : Text) (value : Value) : Prop :=
  ∃ rest, Reads (skip cs) value rest ∧ skip rest = []

lemma char?_quote (cs : Text) : char? ('"' :: cs) = none := by
  simp [char?]

lemma ReadsString.unique {cs text text' rest rest' : Text} (h : ReadsString cs text rest)
    (h' : ReadsString cs text' rest') : text = text' ∧ rest = rest' := by
  induction h generalizing text' rest' with
  | done rest =>
    cases h' with
    | done => exact ⟨rfl, rfl⟩
    | char hc =>
      rw [char?_quote] at hc
      cases hc
  | char hc _ ih =>
    cases h' with
    | done =>
      rw [char?_quote] at hc
      cases hc
    | char hc' h' =>
      rw [hc, Option.some.injEq, Prod.mk.injEq] at hc'
      obtain ⟨rfl, rfl⟩ := hc'
      obtain ⟨rfl, rfl⟩ := ih h'
      exact ⟨rfl, rfl⟩

lemma not_reads_bracket (cs : Text) (value : Value) (rest : Text) : ¬ Reads (']' :: cs) value rest := by
  intro h
  cases h with
  | number hc => exact absurd hc (by decide)

lemma ReadsItems.skip_ne {cs rest after : Text} {items : List Value} (h : ReadsItems cs items rest) :
    skip cs ≠ ']' :: after := by
  intro hclose
  cases h with
  | last h => exact not_reads_bracket _ _ _ (hclose ▸ h)
  | more h => exact not_reads_bracket _ _ _ (hclose ▸ h)

lemma ReadsFields.skip_ne {cs rest after : Text} {fields : List (Text × Value)}
    (h : ReadsFields cs fields rest) : skip cs ≠ '}' :: after := by
  intro hclose
  have hfield : ∀ {field ds}, ¬ ReadsField cs field ds := by
    rintro field ds ⟨hopen⟩
    rw [hclose] at hopen
    simp at hopen
  cases h with
  | last h => exact hfield h
  | more h => exact hfield h

-- By induction on the first reading. The first character tells how a value was read; a comma or a
-- bracket behind an item tells whether it was the last one.
mutual

lemma Reads.unique : ∀ {cs : Text} {value value' : Value} {rest rest' : Text},
    Reads cs value rest → Reads cs value' rest' → value = value' ∧ rest = rest'
  | _, _, _, _, _, .null _, h' => by
    cases h' with
    | null => exact ⟨rfl, rfl⟩
    | number hc => exact absurd hc (by decide)
  | _, _, _, _, _, .true _, h' => by
    cases h' with
    | true => exact ⟨rfl, rfl⟩
    | number hc => exact absurd hc (by decide)
  | _, _, _, _, _, .false _, h' => by
    cases h' with
    | false => exact ⟨rfl, rfl⟩
    | number hc => exact absurd hc (by decide)
  | _, _, _, _, _, .number hc hq, h' => by
    cases h' with
    | number _ hq' =>
      rw [hq, Option.some.injEq] at hq'
      exact ⟨congrArg Value.number hq', rfl⟩
    | _ => exact absurd hc (by decide)
  | _, _, _, _, _, .string h, h' => by
    cases h' with
    | string h' =>
      obtain ⟨rfl, rfl⟩ := h.unique h'
      exact ⟨rfl, rfl⟩
    | number hc => exact absurd hc (by decide)
  | _, _, _, _, _, .emptyArray h, h' => by
    cases h' with
    | emptyArray h' => exact ⟨rfl, List.tail_eq_of_cons_eq (h.symm.trans h')⟩
    | array h' => exact absurd h h'.skip_ne
    | number hc => exact absurd hc (by decide)
  | _, _, _, _, _, .array h, h' => by
    cases h' with
    | emptyArray h' => exact absurd h' h.skip_ne
    | array h' =>
      obtain ⟨rfl, rfl⟩ := h.unique h'
      exact ⟨rfl, rfl⟩
    | number hc => exact absurd hc (by decide)
  | _, _, _, _, _, .emptyObject h, h' => by
    cases h' with
    | emptyObject h' => exact ⟨rfl, List.tail_eq_of_cons_eq (h.symm.trans h')⟩
    | object h' => exact absurd h h'.skip_ne
    | number hc => exact absurd hc (by decide)
  | _, _, _, _, _, .object h, h' => by
    cases h' with
    | emptyObject h' => exact absurd h' h.skip_ne
    | object h' =>
      obtain ⟨rfl, rfl⟩ := h.unique h'
      exact ⟨rfl, rfl⟩
    | number hc => exact absurd hc (by decide)
termination_by structural _ _ _ _ _ h _ => h

lemma ReadsItems.unique : ∀ {cs : Text} {items items' : List Value} {rest rest' : Text},
    ReadsItems cs items rest → ReadsItems cs items' rest' → items = items' ∧ rest = rest'
  | _, _, _, _, _, .last h hd, h' => by
    cases h' with
    | last h' hd' =>
      obtain ⟨rfl, rfl⟩ := h.unique h'
      exact ⟨rfl, List.tail_eq_of_cons_eq (hd.symm.trans hd')⟩
    | more h' hd' =>
      obtain ⟨rfl, rfl⟩ := h.unique h'
      cases hd.symm.trans hd'
  | _, _, _, _, _, .more h hd hrest, h' => by
    cases h' with
    | last h' hd' =>
      obtain ⟨rfl, rfl⟩ := h.unique h'
      cases hd.symm.trans hd'
    | more h' hd' hrest' =>
      obtain ⟨rfl, rfl⟩ := h.unique h'
      obtain rfl := List.tail_eq_of_cons_eq (hd.symm.trans hd')
      obtain ⟨rfl, rfl⟩ := hrest.unique hrest'
      exact ⟨rfl, rfl⟩
termination_by structural _ _ _ _ _ h _ => h

lemma ReadsField.unique : ∀ {cs : Text} {field field' : Text × Value} {rest rest' : Text},
    ReadsField cs field rest → ReadsField cs field' rest' → field = field' ∧ rest = rest'
  | _, _, _, _, _, .mk hopen hkey hcolon hvalue, .mk hopen' hkey' hcolon' hvalue' => by
    obtain rfl := List.tail_eq_of_cons_eq (hopen.symm.trans hopen')
    obtain ⟨rfl, rfl⟩ := hkey.unique hkey'
    obtain rfl := List.tail_eq_of_cons_eq (hcolon.symm.trans hcolon')
    obtain ⟨rfl, rfl⟩ := hvalue.unique hvalue'
    exact ⟨rfl, rfl⟩
termination_by structural _ _ _ _ _ h _ => h

lemma ReadsFields.unique : ∀ {cs : Text} {fields fields' : List (Text × Value)} {rest rest' : Text},
    ReadsFields cs fields rest → ReadsFields cs fields' rest' → fields = fields' ∧ rest = rest'
  | _, _, _, _, _, .last h hd, h' => by
    cases h' with
    | last h' hd' =>
      obtain ⟨rfl, rfl⟩ := h.unique h'
      exact ⟨rfl, List.tail_eq_of_cons_eq (hd.symm.trans hd')⟩
    | more h' hd' =>
      obtain ⟨rfl, rfl⟩ := h.unique h'
      cases hd.symm.trans hd'
  | _, _, _, _, _, .more h hd hrest, h' => by
    cases h' with
    | last h' hd' =>
      obtain ⟨rfl, rfl⟩ := h.unique h'
      cases hd.symm.trans hd'
    | more h' hd' hrest' =>
      obtain ⟨rfl, rfl⟩ := h.unique h'
      obtain rfl := List.tail_eq_of_cons_eq (hd.symm.trans hd')
      obtain ⟨rfl, rfl⟩ := hrest.unique hrest'
      exact ⟨rfl, rfl⟩
termination_by structural _ _ _ _ _ h _ => h

end

lemma Denotes.unique {cs : Text} {value value' : Value} (h : Denotes cs value)
    (h' : Denotes cs value') : value = value' := by
  obtain ⟨rest, h, -⟩ := h
  obtain ⟨rest', h', -⟩ := h'
  exact (h.unique h').1

end TemplateMarkup.Report.JsonText
