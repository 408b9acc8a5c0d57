import TemplateMarkup.Proofs.Report.Positions

/-! The machine form of a report has one line for each diagnostic. No message breaks its line, since the only
names in messages are those of tags. -/

namespace TemplateMarkup

open Markup (Fault FaultKind WrittenTag isNameChar isNameStart)

section Marks

variable {c : Char} {as bs cs ds : Text}

lemma eq_of_first_mark (ha : c ∉ as) (hc : c ∉ cs) (h : as ++ c :: bs = cs ++ c :: ds) :
    as = cs ∧ bs = ds := by
  have hsplit := congrArg (List.splitOn c) h
  rw [List.splitOn_append_cons_self_of_not_mem ha, List.splitOn_append_cons_self_of_not_mem hc]
    at hsplit
  obtain rfl := (List.cons.inj hsplit).1
  exact ⟨rfl, (List.cons.inj (List.append_cancel_left h)).2⟩

lemma eq_of_last_mark (hb : c ∉ bs) (hd : c ∉ ds) (h : as ++ c :: bs = cs ++ c :: ds) :
    as = cs ∧ bs = ds := by
  have hreverse := congrArg List.reverse h
  simp only [List.reverse_append, List.reverse_cons, List.append_assoc, List.singleton_append]
    at hreverse
  obtain ⟨hbd, hac⟩ := eq_of_first_mark (by simpa using hb) (by simpa using hd) hreverse
  exact ⟨List.reverse_inj.1 hac, List.reverse_inj.1 hbd⟩

end Marks

namespace Text

variable {ls : List Text}

lemma lines_broken (h : ∀ l ∈ ls, '\n' ∉ l) : lines (broken ls) = ls ++ [[]] := by
  induction ls with
  | nil => rfl
  | cons l ls ih =>
    obtain ⟨hl, hls⟩ := List.forall_mem_cons.1 h
    rw [lines] at ih ⊢
    rw [broken_cons, List.splitOn_append_cons_self_of_not_mem hl, ih hls, List.cons_append]

lemma count_broken (h : ∀ l ∈ ls, '\n' ∉ l) : (broken ls).count '\n' = ls.length := by
  induction ls with
  | nil => rfl
  | cons l ls ih =>
    obtain ⟨hl, hls⟩ := List.forall_mem_cons.1 h
    rw [broken_cons, List.count_append, List.count_eq_zero.2 hl, List.count_cons_self, ih hls,
      List.length_cons, Nat.zero_add]

lemma getLast?_broken (hne : ls ≠ []) : (broken ls).getLast? = some '\n' := by
  rw [broken, ← List.dropLast_append_getLast hne, List.flatMap_append]
  simp

end Text

namespace Markup

def FaultKind.quoted : FaultKind → Text
  | invalidSelfClosing name => name
  | mismatchedClosingTag expected => expected
  | _ => []

lemma isNameChar_of_isNameStart {c : Char} (h : isNameStart c) : isNameChar c := by
  have hle : ('A').val.toNat ≤ c.val.toNat := by
    have hletter : (decide (('A').val ≤ c.val ∧ c.val ≤ ('Z').val) ||
        decide (('a').val ≤ c.val) && decide (c.val ≤ ('z').val)) = true := h
    simp only [Bool.or_eq_true, Bool.and_eq_true, decide_eq_true_eq] at hletter
    rcases hletter with ⟨hlow, -⟩ | ⟨hlow, -⟩
    · exact hlow
    · exact Nat.le_trans (by decide) hlow
  rw [isNameChar, Bool.not_eq_true']
  simp only [Bool.or_eq_false_iff, decide_eq_false_iff_not, beq_eq_false_iff_ne]
  refine ⟨⟨⟨?_, ?_⟩, ?_⟩, ?_⟩
  · intro hlt
    have hval : c.val.toNat < (' ').val.toNat := hlt
    exact absurd (hle.trans_lt hval) (by decide)
  all_goals
    rintro rfl
    exact absurd hle (by decide)

end Markup

section Quoted

variable {source : Text} {f : Fault}

lemma Attribute.quoted_of_mem_faults {a : Attribute} (hf : f ∈ a.faults) : f.kind.quoted = [] := by
  rw [Attribute.faults, List.mem_append, List.mem_ite_nil_right, List.mem_ite_nil_right,
    List.mem_singleton, List.mem_singleton] at hf
  rcases hf with ⟨-, rfl⟩ | ⟨-, rfl⟩
  · rfl
  · rfl

lemma Head.quoted_of_mem_faults {h : Head} (hf : f ∈ h.faults source) :
    f.kind.quoted = [] ∨ ∃ attributes, h.kind = .selfClosingTag f.kind.quoted attributes := by
  rw [Head.faults] at hf
  split at hf
  · left
    split at hf
    · rw [List.mem_singleton.1 hf]
      rfl
    · rw [List.mem_singleton.1 (List.mem_ite_nil_left.1 hf).2]
      rfl
  · rename_i name attributes hk
    rcases List.mem_append.1 hf with hf | hf
    · left
      rw [List.mem_singleton.1 (List.mem_ite_nil_left.1 hf).2]
      rfl
    · right
      rw [List.mem_singleton.1 (List.mem_ite_nil_left.1 hf).2]
      exact ⟨attributes, hk⟩
  · left
    rw [List.mem_singleton.1 hf]
    rfl
  · left
    rw [List.mem_singleton.1 (List.mem_ite_nil_left.1 hf).2]
    rfl
  · cases hf

lemma Placed.isNameChar_of_selfClosingTag {p : Placed} (h : p ∈ placed source) {name : Text}
    {attributes : List Attribute} (hk : p.head.kind = .selfClosingTag name attributes) :
    ∀ c ∈ name, isNameChar c := by
  obtain ⟨rest, hin⟩ := placed_isIn h
  replace hk : p.item.piece.kind p.id p.start = .selfClosingTag name attributes := hk
  cases hp : p.item.piece with
  | tag written =>
    obtain ⟨before, first, cs, -, -, hfirst, hread⟩ := hin.tag_split hp
    have hname : written.name = name := by
      simp only [hp, Markup.Piece.kind] at hk
      split at hk
      · exact (NodeKind.selfClosingTag.inj hk).1
      · cases hk
    have hspelled := WrittenTag.read_name first cs
    rw [hread, hname] at hspelled
    rw [hspelled]
    refine List.forall_mem_cons.2 ⟨Markup.isNameChar_of_isNameStart hfirst, ?_⟩
    exact fun c hc => List.mem_takeWhile_imp hc
  | _ =>
    rw [hp] at hk
    cases hk

lemma isNameChar_of_mem_quoted (hs : Text.size source < Word.bound)
    (hf : f ∈ (parse source).faults) : ∀ c ∈ f.kind.quoted, isNameChar c := by
  rcases mem_parse_faults hf with ⟨p, hp, hf⟩ | ⟨link, -, hl⟩ | ⟨frame, -, rfl⟩
  · rw [Placed.faults_item hp hs] at hf
    rcases List.mem_append.1 hf with hf | hf
    · obtain ⟨a, -, hf⟩ := List.mem_flatMap.1 hf
      rw [Attribute.quoted_of_mem_faults hf]
      exact List.forall_mem_nil _
    · rcases Head.quoted_of_mem_faults hf with hquoted | ⟨attributes, hk⟩
      · rw [hquoted]
        exact List.forall_mem_nil _
      · exact p.isNameChar_of_selfClosingTag hp hk
  · rw [(kind_of_strayFault? hl).1]
    exact List.forall_mem_nil _
  · exact List.forall_mem_nil _

end Quoted

namespace Markup.FaultKind

lemma newline_not_mem_message {kind : FaultKind} (h : '\n' ∉ kind.quoted) : '\n' ∉ kind.message := by
  cases kind with
  | invalidSelfClosing name =>
    refine List.not_mem_append h ?_
    decide
  | mismatchedClosingTag expected =>
    refine List.not_mem_append (List.not_mem_append ?_ h) ?_
    · decide
    · decide
  | _ => decide

lemma code_plain (kind : FaultKind) : '\n' ∉ kind.code ∧ '(' ∉ kind.code := by
  cases kind with
  | invalidSelfClosing name =>
    have hplain : '\n' ∉ "invalid-self-closing".toList ∧ '(' ∉ "invalid-self-closing".toList := by
      decide
    exact hplain
  | mismatchedClosingTag expected =>
    have hplain : '\n' ∉ "mismatched-closing-tag".toList ∧ '(' ∉ "mismatched-closing-tag".toList := by
      decide
    exact hplain
  | _ => decide

end Markup.FaultKind

namespace Report

def Diagnostic.line (path : Text) (start stop : Place) (d : Diagnostic) : Text :=
  d.severity.capitals ++ [' '] ++ path ++ [':'] ++ start.shown ++ [':'] ++ stop.shown ++ [' '] ++
    d.message ++ [' ', '('] ++ d.code ++ [')']

def Describes (path source line : Text) (d : Diagnostic) : Prop :=
  ∃ start stop : Place, (start.IsAt source ∧ start.offset = d.span.start ∧ start.Fits) ∧
    (stop.IsAt source ∧ stop.offset = d.span.stop ∧ stop.Fits) ∧ line = d.line path start stop

/-- A text with one line for each of some diagnostics, in their order. The line describes the diagnostic, and
no other one of them. -/
structure IsLineByLine (path source text : Text) (diagnostics : List Diagnostic) : Prop where
  count_eq : text.count '\n' = diagnostics.length
  getLast?_eq : text ≠ [] → text.getLast? = some '\n'
  lines : ∃ lines, Text.lines text = lines ++ [[]] ∧
    List.Forall₂ (Describes path source) lines diagnostics
  unique : ∀ d ∈ diagnostics, ∀ e ∈ diagnostics, ∀ line, Describes path source line d →
    Describes path source line e → d = e

variable {path source line : Text} {d e : Diagnostic}

lemma mark_not_mem_decimal {c : Char} (hc : c.isDigit = false) (n : Nat) : c ∉ Text.decimal n := by
  intro hmem
  rw [JsonText.isDigit_of_mem_decimal hmem] at hc
  cases hc

lemma decimal_inj {m n : Nat} (h : Text.decimal m = Text.decimal n) : m = n := by
  have hdigits := congrArg JsonText.digits? h
  rw [JsonText.digits?_decimal, JsonText.digits?_decimal] at hdigits
  exact Option.some.inj hdigits

lemma newline_not_mem_shown (p : Place) : '\n' ∉ p.shown := by
  have hdecimal (n : Nat) : '\n' ∉ Text.decimal n := mark_not_mem_decimal (by decide) n
  simp [Place.shown, hdecimal]

lemma newline_not_mem_line {start stop : Place} (hpath : '\n' ∉ path) (hmessage : '\n' ∉ d.message)
    (hcode : '\n' ∉ d.code) : '\n' ∉ d.line path start stop := by
  have hcapitals : '\n' ∉ d.severity.capitals := by
    cases d.severity
    decide
  simp [Diagnostic.line, hcapitals, hpath, newline_not_mem_shown, hmessage, hcode]

lemma shown_inj {p q : Place} {c : Char} {rest rest' : Text} (hc : c.isDigit = false)
    (h : p.shown ++ c :: rest = q.shown ++ c :: rest') :
    p.line = q.line ∧ p.column = q.column ∧ rest = rest' := by
  simp only [Place.shown, List.append_assoc, List.cons_append] at h
  obtain ⟨hline, h⟩ := eq_of_first_mark (mark_not_mem_decimal (by decide) _)
    (mark_not_mem_decimal (by decide) _) h
  obtain ⟨hcolumn, hrest⟩ := eq_of_first_mark (mark_not_mem_decimal hc _)
    (mark_not_mem_decimal hc _) h
  exact ⟨decimal_inj hline, decimal_inj hcolumn, hrest⟩

lemma Place.IsAt.offset_inj {p q : Place} (hp : p.IsAt source) (hq : q.IsAt source)
    (hline : p.line = q.line) (hcolumn : p.column = q.column) : p.offset = q.offset := by
  rw [← hp.position_isAt.offset_eq, ← hq.position_isAt.offset_eq, hline, hcolumn]

lemma Describes.unique (hd : Describes path source line d) (he : Describes path source line e)
    (hdcode : '(' ∉ d.code) (hecode : '(' ∉ e.code) : d = e := by
  obtain ⟨start, stop, ⟨hstart, hdstart, -⟩, ⟨hstop, hdstop, -⟩, hline⟩ := hd
  obtain ⟨start', stop', ⟨hstart', hestart, -⟩, ⟨hstop', hestop, -⟩, hline'⟩ := he
  have hseverity : d.severity = e.severity := by
    cases d.severity
    cases e.severity
    rfl
  have h := hline.symm.trans hline'
  simp only [Diagnostic.line, hseverity, List.append_assoc, List.append_cancel_left_eq,
    List.cons_append, List.nil_append, List.cons.injEq, true_and] at h
  obtain ⟨hsl, hsc, h⟩ := shown_inj (by decide) h
  obtain ⟨htl, htc, h⟩ := shown_inj (by decide) h
  have hend (code : Text) (hcode : '(' ∉ code) : '(' ∉ code ++ [')'] := by
    simpa using hcode
  -- A message may hold anything, so it ends only at the last bracket.
  have hmark (message code : Text) : message ++ ' ' :: '(' :: (code ++ [')']) =
      (message ++ [' ']) ++ '(' :: (code ++ [')']) := by
    rw [List.append_assoc]
    rfl
  rw [hmark, hmark] at h
  obtain ⟨hmessage, hcode⟩ := eq_of_last_mark (hend _ hdcode) (hend _ hecode) h
  have hs := hstart.offset_inj hstart' hsl hsc
  have ht := hstop.offset_inj hstop' htl htc
  rw [hdstart, hestart] at hs
  rw [hdstop, hestop] at ht
  obtain ⟨severity, code, message, dstart, dstop⟩ := d
  obtain ⟨severity', code', message', estart, estop⟩ := e
  obtain rfl : severity = severity' := hseverity
  obtain rfl := List.append_cancel_right hcode
  obtain rfl := List.append_cancel_right hmessage
  obtain rfl : dstart = estart := hs
  obtain rfl : dstop = estop := ht
  rfl

def Diagnostic.lineIn (path source : Text) (d : Diagnostic) : Text :=
  d.line path (Place.ofOffset (Lines.ofText source) d.span.start)
    (Place.ofOffset (Lines.ofText source) d.span.stop)

lemma render_machine (path source : Text) (diagnostics : List Diagnostic) :
    Format.machine.render path source diagnostics =
      Text.broken (diagnostics.map (Diagnostic.lineIn path source)) := by
  simp only [Format.render, findings, Text.broken, List.flatMap_map]
  apply List.flatMap_congr
  intro d _
  simp [Finding.machine, Finding.ofDiagnostic, Diagnostic.lineIn, Diagnostic.line, Place.shown]

lemma newline_not_mem_lineIn (hs : Text.size source < Word.bound) (hpath : '\n' ∉ path)
    (hd : d ∈ (Project.diagnose source).1) : '\n' ∉ d.lineIn path source := by
  obtain ⟨f, hf, rfl⟩ := List.mem_map.1 hd
  apply newline_not_mem_line hpath
  · apply FaultKind.newline_not_mem_message
    intro hmem
    exact absurd (isNameChar_of_mem_quoted hs hf _ hmem) (by decide)
  · exact f.kind.code_plain.1

lemma describes_lineIn (hs : Text.size source < Word.bound - 1)
    (hd : d ∈ (Project.diagnose source).1) : Describes path source (d.lineIn path source) d := by
  have hbound : Text.size source < Word.bound := by omega
  have hwithin := mem_diagnose_within hbound hd
  have hstop := hwithin.stop_le_size
  have hstart := hwithin.start_le_stop.trans hstop
  refine ⟨_, _, ⟨Place.ofOffset_isAt hbound hstart, rfl, ?_⟩,
    ⟨Place.ofOffset_isAt hbound hstop, rfl, ?_⟩, rfl⟩
  · exact Place.ofOffset_fits hs (by omega)
  · exact Place.ofOffset_fits hs (by omega)

/-- Under a path without line feeds, the machine form of a report on any source goes line by line. -/
theorem machine_lines (path source : Text) (hs : Text.size source < Word.bound - 1)
    (hpath : '\n' ∉ path) :
    IsLineByLine path source (Format.machine.render path source (Project.diagnose source).1)
      (Project.diagnose source).1 := by
  have hbound : Text.size source < Word.bound := by omega
  have hfree : ∀ line ∈ (Project.diagnose source).1.map (Diagnostic.lineIn path source),
      '\n' ∉ line := by
    refine List.forall_mem_map.2 fun d hd => ?_
    exact newline_not_mem_lineIn hbound hpath hd
  rw [render_machine]
  refine ⟨?_, fun hne => ?_, ⟨_, Text.lines_broken hfree, ?_⟩, ?_⟩
  · rw [Text.count_broken hfree, List.length_map]
  · apply Text.getLast?_broken
    intro hnil
    rw [hnil] at hne
    exact hne rfl
  · rw [List.forall₂_map_left_iff, List.forall₂_same]
    exact fun d hd => describes_lineIn hs hd
  · intro d hd e he line hline hline'
    obtain ⟨f, -, rfl⟩ := List.mem_map.1 hd
    obtain ⟨g, -, rfl⟩ := List.mem_map.1 he
    exact hline.unique hline' f.kind.code_plain.2 g.kind.code_plain.2

theorem machine_lines_hostile_name :
    Text.size ['\n', '<', 'a', '"', '(', '/', '>', '<', '\n'] < Word.bound - 1 ∧ '\n' ∉ ['f', ':'] ∧
    Format.machine.render ['f', ':'] ['\n', '<', 'a', '"', '(', '/', '>', '<', '\n']
        (Project.diagnose ['\n', '<', 'a', '"', '(', '/', '>', '<', '\n']).1 =
      "ERROR f::2:1:2:7 a\"( cannot be used as self closing tag (invalid-self-closing)\n".toList ++
        "ERROR f::2:7:3:1 Invalid tag name (invalid-tag-name)\n".toList ++
        "ERROR f::2:7:2:7 Unmatched opening tag (unmatched-opening-tag)\n".toList ∧
    IsLineByLine ['f', ':'] ['\n', '<', 'a', '"', '(', '/', '>', '<', '\n']
      (Format.machine.render ['f', ':'] ['\n', '<', 'a', '"', '(', '/', '>', '<', '\n']
        (Project.diagnose ['\n', '<', 'a', '"', '(', '/', '>', '<', '\n']).1)
      (Project.diagnose ['\n', '<', 'a', '"', '(', '/', '>', '<', '\n']).1 :=
  ⟨by decide, by decide, by decide +kernel, machine_lines _ _ (by decide) (by decide)⟩

end Report

end TemplateMarkup
