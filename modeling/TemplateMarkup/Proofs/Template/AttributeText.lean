import TemplateMarkup.Proofs.Markup.Forms
import TemplateMarkup.Proofs.Template.Attributes
import TemplateMarkup.Proofs.Template.Coverage
import TemplateMarkup.Proofs.Template.Numbering

namespace TemplateMarkup

open Markup (IsQuote Piece WrittenAttribute WrittenTag WrittenValue isAttributeChar)
open Text (IsRun isBlank)

namespace Attribute

def HasValue (source : Text) (a : Attribute) (value : Text) : Prop :=
  ∃ front back, source = front ++ (value ++ back) ∧ a.valueStart = some (Text.size front) ∧
    ((∃ quote, IsQuote quote ∧ front.getLast? = some quote ∧ back.head? = some quote ∧
        quote ∉ value ∧ a.span.stop = Text.size front + Text.size value + 1) ∨
      (∀ c ∈ front.getLast?, isAttributeChar c = false) ∧ IsRun isAttributeChar value back ∧
        a.span.stop = Text.size front + Text.size value ∧
        Text.size front + Text.size value < Text.size source)

def IsCutOff (source : Text) (a : Attribute) : Prop :=
  a.span.stop = Text.size source ∧ ∃ front back, source = front ++ back ∧
    a.valueStart = some (Text.size front) ∧
      ((∃ quote, IsQuote quote ∧ front.getLast? = some quote ∧ quote ∉ back) ∨
        back ≠ [] ∧ ∀ c ∈ back, isAttributeChar c)

/-- What follows a name is no value: there is no equals sign, or the sign stands before something else. -/
def LacksValue (tail after : Text) : Prop :=
  tail = [] ∧ (Text.cutBlank after).2.head? ≠ some '=' ∨
    ∃ gap space, tail = gap ++ '=' :: space ∧ (∀ c ∈ gap, isBlank c) ∧ (∀ c ∈ space, isBlank c) ∧
      ∀ c ∈ after.head?, ¬ IsQuote c ∧ isAttributeChar c = false ∧ isBlank c = false

structure Spells (source : Text) (a : Attribute) (before tail after : Text) : Prop where
  source_eq : source = before ++ (a.name ++ tail ++ after)
  span_eq : a.span = ⟨Text.size before, Text.size before + Text.size (a.name ++ tail)⟩
  slice_eq : a.span.slice source = a.name ++ tail
  outer : ∃ front blank, before = front ++ blank ∧ a.outerStart = Text.size front ∧
    ∀ c ∈ blank, isBlank c
  before_stop : ∀ c ∈ before.getLast?, isAttributeChar c = false
  name_run : IsRun isAttributeChar a.name (tail ++ after)

/-- What an attribute says of its value is what the source says. -/
structure IsExact (source : Text) (a : Attribute) (tail after : Text) : Prop where
  value : ∀ value, a.value = some value → a.HasValue source value
  cut_off : a.value = none → a.valueStart ≠ none → a.IsCutOff source
  no_value : a.valueStart = none → a.value = none ∧ LacksValue tail after

structure Holds (value : WrittenValue) (pos : Nat) (a : Attribute) : Prop where
  value_eq : a.value = value.text?
  valueStart_eq : a.valueStart = value.textStart? pos
  stop_eq : a.span.stop = pos + Text.size value.chars

variable {a : Attribute} {front tail rest text : Text} {value : WrittenValue}

lemma Holds.hasValue (h : a.Holds value (Text.size front)) (hr : value.Reads tail rest)
    (hfront : ∀ c ∈ front.getLast?, isAttributeChar c = false) (htext : a.value = some text) :
    a.HasValue (front ++ tail) text := by
  rw [h.value_eq] at htext
  cases hr with
  | @closed quote body rest hq hbody =>
    obtain rfl : body = text := Option.some.inj htext
    have hsize : Text.size (front ++ [quote]) = Text.size front + 1 := by
      simp [Text.size_append, hq.utf8Size]
    refine ⟨front ++ [quote], quote :: rest, by simp, ?_, Or.inl ⟨quote, hq, ?_, rfl, hbody, ?_⟩⟩
    · rw [h.valueStart_eq, hsize]
      rfl
    · rw [List.getLast?_concat]
    · rw [h.stop_eq, hsize]
      simp [WrittenValue.chars, Text.Enclosed.chars, hq.utf8Size]
      omega
  | cutOff hq hbody => cases htext
  | @bare run rest hrun =>
    cases rest with
    | nil => cases htext
    | cons c rest =>
      obtain rfl : run = text := Option.some.inj htext
      have hc := c.utf8Size_pos
      refine ⟨front, c :: rest, rfl, h.valueStart_eq, Or.inr ⟨hfront, hrun, h.stop_eq, ?_⟩⟩
      simp only [Text.size_append, Text.size_cons]
      omega
  | missing hnone => cases htext

lemma Holds.isCutOff (h : a.Holds value (Text.size front)) (hr : value.Reads tail rest)
    (hvalue : a.value = none) (hstart : a.valueStart ≠ none) : a.IsCutOff (front ++ tail) := by
  rw [h.value_eq] at hvalue
  rw [h.valueStart_eq] at hstart
  rw [IsCutOff, h.stop_eq, h.valueStart_eq]
  cases hr with
  | closed hq hbody => cases hvalue
  | @cutOff quote body hq hbody =>
    have hsize : Text.size (front ++ [quote]) = Text.size front + 1 := by
      simp [Text.size_append, hq.utf8Size]
    refine ⟨(Text.size_append ..).symm, front ++ [quote], body, by simp, ?_,
      Or.inl ⟨quote, hq, ?_, hbody⟩⟩
    · rw [hsize]
      rfl
    · rw [List.getLast?_concat]
  | @bare run rest hrun =>
    cases rest with
    | cons c rest => cases hvalue
    | nil =>
      rw [List.append_nil]
      exact ⟨(Text.size_append ..).symm, front, run, rfl, rfl, Or.inr ⟨hrun.ne_nil, hrun.mem⟩⟩
  | missing hnone => exact absurd rfl hstart

lemma Holds.isMissing {pos : Nat} (h : a.Holds value pos) (hr : value.Reads tail rest)
    (hstart : a.valueStart = none) : value = .missing ∧ tail = rest ∧
      ∀ c ∈ rest.head?, ¬ IsQuote c ∧ isAttributeChar c = false := by
  rw [h.valueStart_eq] at hstart
  cases hr with
  | missing hnone => exact ⟨rfl, rfl, hnone⟩
  | _ => cases hstart

end Attribute

namespace Markup

lemma WrittenValue.le_of_textStart? {value : WrittenValue} {pos start : Nat}
    (h : value.textStart? pos = some start) : start ≤ pos + Text.size value.chars := by
  cases value with
  | quoted quote run =>
    obtain rfl : pos + 1 = start := Option.some.inj h
    have hquote := quote.utf8Size_pos
    simp only [chars, Text.size_cons]
    omega
  | bare text ended =>
    obtain rfl : pos = start := Option.some.inj h
    exact Nat.le_add_right ..
  | missing => cases h

namespace WrittenAttribute

variable {id owner : Nat} {before rest : Text} {w : WrittenAttribute}

lemma place_holds {pos : Nat} {space : Text} {value : WrittenValue}
    (ha : w.assignment = some ⟨space, value⟩) (hb : pos + Text.size w.chars < Word.bound) :
    (w.place id owner pos).Holds value (pos + Text.size w.blank + Text.size w.name +
      Text.size w.gap + 1 + Text.size space) := by
  have hsign : Char.utf8Size '=' = 1 := rfl
  have hsize : Text.size w.chars = Text.size w.blank + Text.size w.name + Text.size w.gap + 1 +
      Text.size space + Text.size value.chars := by
    simp only [chars, ha, Option.map_some, Option.getD_some, Assignment.chars, Text.size_append,
      Text.size_cons, hsign]
    omega
  have hcovered : w.covered = w.chars := by simp [covered, chars, ha]
  have hstart : (w.place id owner pos).valueStart = (value.textStart? (pos + Text.size w.blank +
      Text.size w.name + Text.size w.gap + 1 + Text.size space)).map Word.wrap := by
    simp only [place, ha]
  refine ⟨by simp only [place, ha], ?_, ?_⟩
  · rw [hstart]
    cases hs : value.textStart? _ with
    | none => rfl
    | some start =>
      have hle := WrittenValue.le_of_textStart? hs
      rw [Option.map_some, Word.wrap_of_lt (by omega)]
  · rw [place_span_of_lt hb, hcovered]
    show pos + Text.size w.chars = _
    omega

lemma stop_append_blank {blank : Text} (hblank : ∀ c ∈ blank, isBlank c)
    (h : blank = [] → ∀ c ∈ before.getLast?, isAttributeChar c = false) :
    ∀ c ∈ (before ++ blank).getLast?, isAttributeChar c = false := by
  cases hlast : blank.getLast? with
  | none =>
    obtain rfl := List.getLast?_eq_none_iff.1 hlast
    rw [List.append_nil]
    exact h rfl
  | some c =>
    rw [List.getLast?_append, hlast]
    intro d hd
    obtain rfl := Option.some.inj hd
    exact not_isAttributeChar_of_isBlank (hblank c (List.mem_of_getLast? hlast))

namespace Reads

lemma name_run (h : Reads (w.chars ++ rest) w rest) :
    (∀ c ∈ w.blank, isBlank c) ∧ IsRun isAttributeChar w.name (w.tail ++ (w.trail ++ rest)) := by
  generalize hds : w.chars ++ rest = ds at h
  cases h with
  | plain hblank hrun hgap hsign => exact ⟨hblank, hrun⟩
  | @assigned blank name gap space tail rest value hblank hrun hgap hspace htail hvalue =>
    have hwritten : value.chars ++ rest = tail := by simpa [chars, Assignment.chars] using hds
    refine ⟨hblank, ?_⟩
    simpa [WrittenAttribute.tail, trail, Assignment.chars, ← hwritten] using hrun

lemma spells (h : Reads (w.chars ++ rest) w rest)
    (hs : Text.size (before ++ (w.chars ++ rest)) < Word.bound)
    (hbreak : Text.Breaks isAttributeChar before (w.chars ++ rest)) :
    (w.place id owner (Text.size before)).Spells (before ++ (w.chars ++ rest))
      (before ++ w.blank) w.tail (w.trail ++ rest) := by
  obtain ⟨hblank, hrun⟩ := h.name_run
  have hb : Text.size before + Text.size w.chars < Word.bound := by
    rw [Text.size_append, Text.size_append] at hs
    omega
  have hsource : before ++ (w.chars ++ rest) =
      before ++ w.blank ++ (w.name ++ w.tail ++ (w.trail ++ rest)) := by
    rw [chars_eq, core_eq]
    simp
  have hspan : (w.place id owner (Text.size before)).span =
      ⟨Text.size (before ++ w.blank),
        Text.size (before ++ w.blank) + Text.size (w.name ++ w.tail)⟩ := by
    rw [place_span_core hb, core_eq, Text.size_append before]
  constructor
  · rw [place_name]
    exact hsource
  · rw [place_name]
    exact hspan
  · rw [place_name, Span.slice, hspan, hsource]
    exact Text.slice_append rfl rfl
  · refine ⟨before, w.blank, rfl, ?_, hblank⟩
    rw [place_outerStart, Word.wrap_of_lt (by omega)]
  · refine stop_append_blank hblank fun hnil => ?_
    rw [chars_eq, core_eq, hnil, List.nil_append, List.append_assoc, List.append_assoc] at hbreak
    exact hbreak.getLast?_of_isRun hrun
  · rw [place_name]
    exact hrun

lemma isExact (h : Reads (w.chars ++ rest) w rest)
    (hs : Text.size (before ++ (w.chars ++ rest)) < Word.bound) :
    (w.place id owner (Text.size before)).IsExact (before ++ (w.chars ++ rest)) w.tail
      (w.trail ++ rest) := by
  have hb : Text.size before + Text.size w.chars < Word.bound := by
    rw [Text.size_append, Text.size_append] at hs
    omega
  generalize hds : w.chars ++ rest = ds at h ⊢
  cases h with
  | plain hblank hrun hgap hsign =>
    refine ⟨fun value hvalue => ?_, fun hvalue hstart => ?_, fun hstart => ⟨rfl, Or.inl ⟨rfl, ?_⟩⟩⟩
    · cases hvalue
    · exact absurd rfl hstart
    · rwa [trail, hgap]
  | @assigned blank name gap space tail rest value hblank hrun hgap hspace htail hvalue =>
    let front := before ++ (blank ++ (name ++ (gap ++ ['=']))) ++ space
    have hfront : ∀ c ∈ front.getLast?, isAttributeChar c = false := by
      refine stop_append_blank hspace fun _ c hc => ?_
      simp only [← List.append_assoc, List.getLast?_concat] at hc
      obtain rfl := Option.some.inj hc
      rfl
    have hsource : before ++ (blank ++ (name ++ (gap ++ '=' :: (space ++ tail)))) = front ++ tail := by
      simp [front]
    have hpos : Text.size before + Text.size blank + Text.size name + Text.size gap + 1 +
        Text.size space = Text.size front := by
      have hsign : Char.utf8Size '=' = 1 := rfl
      simp only [front, Text.size_append, Text.size_cons, Text.size_nil, hsign]
      omega
    have hholds := @place_holds id owner _ (Text.size before) _ _ rfl hb
    rw [hpos] at hholds
    rw [hsource]
    refine ⟨fun text htext => hholds.hasValue hvalue hfront htext,
      fun hnone hstart => hholds.isCutOff hvalue hnone hstart, fun hstart => ?_⟩
    obtain ⟨rfl, rfl, hnone⟩ := hholds.isMissing hvalue hstart
    refine ⟨rfl, Or.inr ⟨gap, space, ?_, hgap, hspace, fun c hc => ?_⟩⟩
    · simp [WrittenAttribute.tail, Assignment.chars, WrittenValue.chars]
    · exact ⟨(hnone c hc).1, (hnone c hc).2, htail c hc⟩

end Reads

lemma blank_of_mem_readAll {cs : Text} (h : w ∈ (readAll cs).1) :
    (∀ c ∈ w.blank, isBlank c) ∧ ∀ c ∈ w.trail, isBlank c := by
  obtain ⟨ds, rest, hr⟩ := exists_read?_of_mem_readAll h
  have hreads := reads_of_read? hr
  rw [← chars_of_read? hr] at hreads
  exact ⟨hreads.name_run.1, trail_blank hr⟩

end WrittenAttribute

end Markup

namespace Placed

variable {p : Placed} {source : Text} {a : Attribute}

lemma exists_attributes_split {written : WrittenTag} (h : p ∈ placed source)
    (hp : p.item.piece = .tag written) : ∃ before ds, source = before ++ ds ∧
      Text.size before = p.start + 1 + Text.size written.name ∧
        Text.Breaks isAttributeChar before ds ∧
          written.attributes = (WrittenAttribute.readAll ds).1 ∧
            p.head.kind.attributes = WrittenAttribute.placeAll p.id (p.id + 1) (Text.size before)
              (WrittenAttribute.readAll ds).1 := by
  obtain ⟨rest, hin⟩ := placed_isIn h
  obtain ⟨before, first, cs, rfl, hb, -, hread⟩ := hin.tag_split hp
  obtain rfl : (WrittenTag.read first cs).1 = written := by rw [hread]
  have hpos : Text.size (before ++ '<' :: (WrittenTag.read first cs).1.name) =
      p.start + 1 + Text.size (WrittenTag.read first cs).1.name := by
    rw [Text.size_append, Text.size_cons, hb, Nat.add_assoc]
    rfl
  refine ⟨before ++ '<' :: (WrittenTag.read first cs).1.name, cs.dropWhile Markup.isNameChar, ?_,
    hpos, Or.inr fun c hc => ?_, rfl, ?_⟩
  · simp [WrittenTag.read_name]
  · rw [isAttributeChar, Text.head?_dropWhile_stop _ _ c hc, Bool.false_and]
  · rw [hpos]
    show (p.item.piece.kind p.id p.start).attributes = _
    rw [hp, Piece.attributes_kind_tag]
    rfl

lemma exists_attribute_split (h : p ∈ placed source) {a : Attribute}
    (ha : a ∈ p.head.kind.attributes) : ∃ before ds w rest i, source = before ++ ds ∧
      WrittenAttribute.read? ds = some (w, rest) ∧ a = w.place i p.id (Text.size before) ∧
        Text.Breaks isAttributeChar before ds := by
  obtain ⟨written, hp, -⟩ := Piece.mem_attributes_kind ha
  obtain ⟨before, cs, rfl, -, hbreak, -, hattributes⟩ := exists_attributes_split h hp
  rw [hattributes] at ha
  obtain ⟨front, ds, w, after, i, rfl, hr, rfl, hfront⟩ :=
    WrittenAttribute.exists_read?_of_mem_placeAll ha hbreak
  exact ⟨before ++ front, ds, w, after, i, by simp, hr, by rw [Text.size_append], hfront⟩

lemma exists_spells (h : p ∈ placed source) (hs : Text.size source < Word.bound)
    (ha : a ∈ p.head.kind.attributes) : ∃ before tail after,
      a.Spells source before tail after ∧ a.IsExact source tail after := by
  obtain ⟨before, ds, w, rest, i, rfl, hr, rfl, hbreak⟩ := exists_attribute_split h ha
  have hreads := WrittenAttribute.reads_of_read? hr
  rw [← WrittenAttribute.chars_of_read? hr] at hs hbreak hreads ⊢
  exact ⟨_, _, _, hreads.spells hs hbreak, hreads.isExact hs⟩

end Placed

/-- An attribute begins with its name, a whole run of characters that names are made of. What it says of
its value and of the offset of its value is so in the source, also where it says that there is none. -/
theorem attribute_text_exact (source : Text) (hs : Text.size source < Word.bound) :
    ∀ n ∈ (parse source).nodes, ∀ a ∈ n.attributes, ∃ before tail after,
      a.Spells source before tail after ∧ a.IsExact source tail after := by
  intro n hn a ha
  rcases head_cases_of_mem_nodes hn with hroot | ⟨p, hp, hhead⟩
  · rw [Node.attributes, hroot] at ha
    cases ha
  · rw [Node.attributes, ← hhead] at ha
    exact p.exists_spells hp hs ha

theorem attribute_text_exact_unclosed :
    Text.size ['<', 'a', ' ', 'é', ' ', '=', '"', 'ü', '"', 'b', ' ', 'c', '=', '\'', '"'] < Word.bound ∧
    (((parse ['<', 'a', ' ', 'é', ' ', '=', '"', 'ü', '"', 'b', ' ', 'c', '=', '\'', '"']).nodes.flatMap
      Node.attributes).map fun a => (a.span, a.value, a.valueStart)) =
        [(⟨3, 11⟩, some ['ü'], some 8), (⟨11, 12⟩, none, none), (⟨13, 17⟩, none, some 16)] ∧
    ∃ n ∈ (parse ['<', 'a', ' ', 'é', ' ', '=', '"', 'ü', '"', 'b', ' ', 'c', '=', '\'', '"']).nodes,
      ∃ a ∈ n.attributes,
        a.HasValue ['<', 'a', ' ', 'é', ' ', '=', '"', 'ü', '"', 'b', ' ', 'c', '=', '\'', '"'] ['ü'] := by
  refine ⟨by decide, by decide +kernel, ?_⟩
  have hvalue : ∃ n ∈ (parse ['<', 'a', ' ', 'é', ' ', '=', '"', 'ü', '"', 'b', ' ', 'c', '=', '\'',
      '"']).nodes, ∃ a ∈ n.attributes, a.value = some ['ü'] := by decide +kernel
  obtain ⟨n, hn, a, ha, hvalue⟩ := hvalue
  obtain ⟨before, tail, after, -, hexact⟩ := attribute_text_exact _ (by decide) n hn a ha
  exact ⟨n, hn, a, ha, hexact.value _ hvalue⟩

end TemplateMarkup
