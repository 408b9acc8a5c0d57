import TemplateMarkup.Proofs.Template.Attributes
import TemplateMarkup.Proofs.Template.Coverage
import TemplateMarkup.Proofs.Template.OpenTags

namespace TemplateMarkup

open Markup (Item Piece Fault FaultKind WrittenAttribute WrittenTag)

def Markup.FaultKind.isLexical : FaultKind → Bool
  | mismatchedClosingTag _ => false
  | unmatchedOpeningTag => false
  | _ => true

def Attribute.faults (a : Attribute) : List Fault :=
  (if a.value = none ∧ a.valueStart ≠ none then [⟨.incompleteAttributeValue, a.span⟩] else []) ++
    if a.value = none ∧ a.valueStart = none ∧ a.span.start + Text.size a.name < a.span.stop then
      [⟨.unrecognizedAttributeValue, Span.empty a.span.stop⟩]
    else []

namespace Head

/-- The span of a tag goes past its last attribute, or past its name, to a closing bracket. -/
def isBracketed (source : Text) (h : Head) (name : Text) (attributes : List Attribute) : Prop :=
  (attributes.getLast?.elim (h.span.start + 1 + Text.size name) fun a => a.span.stop) <
      h.span.stop ∧
    (h.span.slice source).getLast? = some '>'

instance (source : Text) (h : Head) (name : Text) (attributes : List Attribute) :
    Decidable (h.isBracketed source name attributes) :=
  inferInstanceAs (Decidable (_ ∧ _))

def faults (source : Text) (h : Head) : List Fault :=
  match h.kind with
  | .startTag name attributes =>
    if name.isEmpty then
      [⟨.invalidTagName, ⟨h.span.start, h.span.start + Text.size (h.taken source)⟩⟩]
    else if h.isBracketed source name attributes then [] else [⟨.invalidTagEnd, h.span⟩]
  | .selfClosingTag name attributes =>
    (if h.isBracketed source name attributes then [] else [⟨.invalidTagEnd, h.span⟩]) ++
      if Markup.isVoid name then [] else [⟨.invalidSelfClosing name, h.span⟩]
  | .endTag none => [⟨.incompleteClosingTag, h.span⟩]
  | .interpolation =>
    if ['}', '}'] <:+: (h.span.slice source).drop 2 then [] else [⟨.unclosedInterpolation, h.span⟩]
  | _ => []

end Head

def Entry.faults (source : Text) : Entry → List Fault
  | node n => n.head.faults source
  | attr _ a => a.faults

namespace Markup.WrittenAttribute

lemma faults_place {id owner pos : Nat} {a : WrittenAttribute}
    (h : pos + Text.size a.chars < Word.bound) :
    (a.place id owner pos).faults = (a.fault? pos).toList := by
  have hspan : (a.place id owner pos).span =
      ⟨pos + Text.size a.blank, pos + Text.size a.covered⟩ := place_span_of_lt h
  cases ha : a.assignment with
  | none =>
    have hplace : (a.place id owner pos).value = none ∧ (a.place id owner pos).valueStart = none ∧
        (a.place id owner pos).name = a.name := by
      simp [place, ha]
    simp only [Attribute.faults, hspan, hplace, fault?, ha, covered, Text.size_append]
    simp [Nat.add_assoc]
  | some assignment =>
    obtain ⟨blank, value⟩ := assignment
    have hcovered : a.covered = a.chars := by
      simp [covered, chars, ha]
    have hlonger : Text.size a.blank + Text.size a.name < Text.size a.chars := by
      have hsign : Char.utf8Size '=' = 1 := rfl
      simp only [chars, ha, Option.map_some, Option.getD_some, Assignment.chars, Text.size_append,
        Text.size_cons, hsign]
      omega
    have hstart : Word.wrap (pos + Text.size a.blank) = pos + Text.size a.blank :=
      Word.wrap_of_lt (by omega)
    have hplace : (a.place id owner pos).value = value.text? ∧
        (a.place id owner pos).name = a.name ∧ ∃ offset,
        (a.place id owner pos).valueStart = (value.textStart? offset).map Word.wrap := by
      rw [place, ha]
      exact ⟨rfl, rfl, _, rfl⟩
    obtain ⟨hvalue, hname, offset, hvalueStart⟩ := hplace
    rw [hcovered] at hspan
    simp only [Attribute.faults, hspan, hvalue, hname, hvalueStart, fault?, ha, Span.ofOffsets,
      Span.empty, hstart, Word.wrap_of_lt h]
    cases value with
    | missing => simp [WrittenValue.text?, WrittenValue.textStart?]; omega
    | quoted quote run =>
      cases hc : run.closed <;>
        simp [WrittenValue.text?, WrittenValue.textStart?, WrittenValue.isCutOff, hc]
    | bare text ended =>
      cases ended <;> simp [WrittenValue.text?, WrittenValue.textStart?, WrittenValue.isCutOff]

lemma flatMap_faults_placeAll {owner id pos : Nat} {as : List WrittenAttribute}
    (h : pos + Text.size (as.flatMap chars) < Word.bound) :
    (placeAll owner id pos as).flatMap Attribute.faults = faults pos as := by
  induction as generalizing id pos with
  | nil => rfl
  | cons a as ih =>
    simp only [List.flatMap_cons, Text.size_append] at h
    rw [placeAll, List.flatMap_cons, faults_place (by omega), ih (by omega), faults]

end Markup.WrittenAttribute

namespace Placed

variable {p : Placed} {source : Text}

lemma ofOffsets_eq (h : p ∈ placed source) (hs : Text.size source < Word.bound) :
    Span.ofOffsets p.start (p.start + Text.size p.item.piece.chars) = ⟨p.start, p.stop⟩ := by
  have hstop := stop_le_of_mem_placed h
  have hsize := p.start_add_size
  rw [Span.ofOffsets, Word.wrap_of_lt (by omega), Word.wrap_of_lt (by omega), hsize]

lemma isBracketed_iff {first : Char} {cs : Text} (h : p ∈ placed source)
    (hs : Text.size source < Word.bound) (hp : p.item.piece = .tag (WrittenTag.read first cs).1) :
    p.head.isBracketed source (WrittenTag.read first cs).1.name
      (WrittenAttribute.placeAll p.id (p.id + 1)
        (p.start + 1 + Text.size (WrittenTag.read first cs).1.name)
        (WrittenTag.read first cs).1.attributes) ↔
      (WrittenTag.read first cs).1.ending ≠ .missing := by
  have hbracket : Char.utf8Size '<' = 1 := rfl
  have hstop := stop_le_of_mem_placed h
  have hsize := p.start_add_size
  rw [hp, Piece.chars, Text.size_cons, hbracket, ← Nat.add_assoc] at hsize
  have hspan : p.head.span = ⟨p.start, p.stop⟩ := by
    rw [head_span h hs, ← p.start_add_size, hp]
    rfl
  have hslice : p.head.span.slice source = '<' :: (WrittenTag.read first cs).1.chars := by
    rw [slice_span h hs (by simp [hp]), hp, Piece.chars]
  rw [WrittenTag.ending_ne_missing_iff, Head.isBracketed, hslice, hspan,
    WrittenTag.placeAll_last_stop (by omega), ← hsize, Nat.add_lt_add_iff_left]

lemma span_eq_ofOffsets (hn : ¬ ∃ c, p.item.piece = .nameless c) :
    p.head.span = Span.ofOffsets p.start (p.start + Text.size p.item.piece.chars) := by
  show Span.ofOffsets p.start (p.start + p.item.piece.extent) = _
  cases hp : p.item.piece with
  | nameless c => exact absurd ⟨c, hp⟩ hn
  | _ => rfl

lemma faults_tag {first : Char} {cs : Text} (h : p ∈ placed source)
    (hs : Text.size source < Word.bound) (hp : p.item.piece = .tag (WrittenTag.read first cs).1) :
    (Piece.tag (WrittenTag.read first cs).1).faults p.start =
      p.head.kind.attributes.flatMap Attribute.faults ++ p.head.faults source := by
  have hbracket : Char.utf8Size '<' = 1 := rfl
  have hstop := stop_le_of_mem_placed h
  have hsize := p.start_add_size
  have hspan := p.span_eq_ofOffsets (by simp [hp])
  have hbracketed := isBracketed_iff h hs hp
  have hname : (WrittenTag.read first cs).1.name.isEmpty = false := rfl
  have hkind : p.head.kind = p.item.piece.kind p.id p.start := rfl
  rw [hp] at hkind
  rw [hp, Piece.chars, Text.size_cons, hbracket, ← Nat.add_assoc] at hsize hspan
  generalize (WrittenTag.read first cs).1 = tag at *
  have hattributes : (WrittenAttribute.placeAll p.id (p.id + 1) (p.start + 1 + Text.size tag.name)
      tag.attributes).flatMap Attribute.faults =
        WrittenAttribute.faults (p.start + 1 + Text.size tag.name) tag.attributes := by
    apply WrittenAttribute.flatMap_faults_placeAll
    simp only [WrittenTag.chars, Text.size_append] at hsize
    omega
  rw [Piece.faults, WrittenTag.faults, ← hattributes, ← hspan]
  cases he : tag.ending <;> cases hv : Markup.isVoid tag.name <;>
    simp [Head.faults, hkind, Piece.kind, WrittenTag.isSelfClosing, he, hv, hname, hbracketed,
      NodeKind.attributes]

lemma faults_item (h : p ∈ placed source) (hs : Text.size source < Word.bound) :
    p.item.faults p.pos =
      p.head.kind.attributes.flatMap Attribute.faults ++ p.head.faults source := by
  obtain ⟨rest, hin⟩ := placed_isIn h
  have hr := hin.reads
  have hstop := stop_le_of_mem_placed h
  have hsize := p.start_add_size
  have hspan (hn : ¬ ∃ c, p.item.piece = .nameless c) := (p.span_eq_ofOffsets hn).symm
  have hslice := slice_span h hs
  have hkind : p.head.kind = p.item.piece.kind p.id p.start := rfl
  show p.item.piece.faults p.start = _
  generalize p.item.piece.chars ++ rest = cs at hr
  cases hp : p.item.piece with
  | comment run => simp [Head.faults, hkind, hp, Piece.kind, Piece.faults, NodeKind.attributes]
  | text cs => simp [Head.faults, hkind, hp, Piece.kind, Piece.faults, NodeKind.attributes]
  | endTag run =>
    rw [hp] at hspan
    rw [Piece.faults, hspan (by simp), Head.faults, hkind, hp, Piece.kind]
    cases run.closed <;> rfl
  | interpolation run =>
    rw [hp] at hspan hslice hr
    rw [Piece.faults, hspan (by simp), Head.faults, hkind, hp, Piece.kind, hslice (by simp)]
    cases hr with
    | interpolation rest =>
      have hdrop (run : Text.Enclosed) :
          (Piece.interpolation run).chars.drop 2 = run.chars ['}', '}'] := rfl
      cases hc : (Text.Enclosed.read ['}', '}'] rest).1.closed with
      | true =>
        have hin : ['}', '}'] <:+: (Text.Enclosed.read ['}', '}'] rest).1.chars ['}', '}'] := by
          rw [Text.Enclosed.chars, if_pos hc]
          exact (List.suffix_append _ _).isInfix
        simp only [hdrop, if_pos hin]
        rfl
      | false =>
        have hnot : ¬ ['}', '}'] <:+: (Text.Enclosed.read ['}', '}'] rest).1.chars ['}', '}'] := by
          rw [Text.Enclosed.chars, hc]
          exact (Text.Enclosed.read_of_not_closed hc).1
        simp only [hdrop, if_neg hnot]
        rfl
  | nameless c =>
    have hbound := ofOffsets_eq h hs
    have hstart : p.head.span.start = p.start := by rw [head_span h hs]
    rw [hp] at hbound hsize
    rw [Piece.faults, Head.faults, hkind, hp, Piece.kind, taken_of_nameless h hs hp, hp, hbound,
      hstart, hsize]
    rfl
  | tag written =>
    rw [hp] at hr
    cases hr with
    | tag rest hc => exact faults_tag h hs hp

end Placed

lemma filter_isLexical_faults (source : Text) :
    ((parse source).faults.filter fun f => f.kind.isLexical) =
      (placed source).flatMap fun p => p.item.faults p.pos := by
  rw [filter_parse_faults source _ fun _ => rfl]
  refine List.flatMap_congr fun p _ => ?_
  have hown : (p.item.faults p.pos).filter (fun f => f.kind.isLexical) = p.item.faults p.pos := by
    rw [List.filter_eq_self]
    intro f hf
    have := Item.isOwn_of_mem_faults hf
    cases hk : f.kind <;> simp_all [FaultKind.isOwn, FaultKind.isLexical]
  have hstray : (strayFault? p.link).toList.filter (fun f => f.kind.isLexical) = [] := by
    rw [List.filter_eq_nil_iff]
    intro f hf
    obtain ⟨rfl, -⟩ := kind_of_strayFault? (Option.mem_toList.1 hf)
    simp [FaultKind.isLexical]
  rw [hown, hstray, List.append_nil]

lemma flatMap_faults_entries (source : Text) (n : Node) :
    n.entries.flatMap (Entry.faults source) =
      n.head.faults source ++ n.head.kind.attributes.flatMap Attribute.faults := by
  rw [Node.entries, List.flatMap_cons, List.flatMap_map]
  rfl

/-- Apart from tags that do not match, the faults of a parse are, as often as they occur, what is wrong
with the nodes and attributes of the tree. -/
theorem lexical_faults_perm (source : Text) (hs : Text.size source < Word.bound) :
    ((parse source).faults.filter fun f => f.kind.isLexical).Perm
      ((parse source).entries.flatMap (Entry.faults source)) := by
  let faultsOf : Head → List Fault := fun h =>
    h.faults source ++ h.kind.attributes.flatMap Attribute.faults
  have hentries : (parse source).entries.flatMap (Entry.faults source) =
      (placed source).flatMap fun p => faultsOf p.head := by
    calc (parse source).entries.flatMap (Entry.faults source)
        = (parse source).nodes.flatMap fun n => faultsOf n.head := by
          rw [Template.entries_eq, Template.nodes_eq, List.flatMap_assoc]
          exact List.flatMap_congr fun n _ => flatMap_faults_entries source n
      _ = ((parse source).nodes.map Node.head).flatMap faultsOf := by rw [List.flatMap_map]
      _ = (placed source).flatMap fun p => faultsOf p.head := by
          rw [parse_nodes_heads, List.flatMap_cons, List.flatMap_map]
          rfl
  rw [filter_isLexical_faults, hentries]
  refine List.Perm.flatMap_left _ fun p hp => ?_
  rw [Placed.faults_item hp hs]
  exact List.perm_append_comm

theorem lexical_faults_cut_off_value :
    Text.size ['<', 'a', ' ', 'b', '=', '"', 'x', '>'] < Word.bound ∧
    (parse ['<', 'a', ' ', 'b', '=', '"', 'x', '>']).faults =
      [⟨.incompleteAttributeValue, ⟨3, 8⟩⟩, ⟨.invalidTagEnd, ⟨0, 8⟩⟩,
        ⟨.unmatchedOpeningTag, ⟨0, 8⟩⟩] ∧
    ((parse ['<', 'a', ' ', 'b', '=', '"', 'x', '>']).faults.filter fun f => f.kind.isLexical).Perm
      ((parse ['<', 'a', ' ', 'b', '=', '"', 'x', '>']).entries.flatMap
        (Entry.faults ['<', 'a', ' ', 'b', '=', '"', 'x', '>'])) :=
  ⟨by decide, by decide +kernel, lexical_faults_perm _ (by decide)⟩

end TemplateMarkup
