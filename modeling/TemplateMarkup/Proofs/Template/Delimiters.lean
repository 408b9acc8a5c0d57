import Mathlib.Data.List.Chain
import TemplateMarkup.Proofs.Template.Coverage

namespace TemplateMarkup

open Markup (Item Piece items)

namespace NodeKind

structure OpensWith (ahead : Text) (k : NodeKind) : Prop where
  comment_iff : k = .comment ↔ ['<', '!', '-', '-'] <+: ahead
  endTag_iff : (∃ name, k = .endTag name) ↔ ['<', '/'] <+: ahead
  openingTag_iff : k.isOpeningTag ↔
    ['<'] <+: ahead ∧ ¬ ['<', '!', '-', '-'] <+: ahead ∧ ¬ ['<', '/'] <+: ahead
  interpolation_iff : k = .interpolation ↔ ['{', '{'] <+: ahead
  text_iff : k = .text ↔ ¬ ['<'] <+: ahead ∧ ¬ ['{', '{'] <+: ahead

/-- Of `ahead`, where a node of the kind begins, `rest` is left when the node has ended. -/
def EndsBefore (ahead rest : Text) : NodeKind → Prop
  | comment => ∃ body, Text.CutsPast ['-', '-', '>'] (ahead.drop 4) body rest
  | endTag name => Text.CutsPast ['>'] (ahead.drop 2) name rest
  | interpolation => ∃ body, Text.CutsPast ['}', '}'] (ahead.drop 2) body rest
  | text => ∃ front, ahead = front ++ rest ∧
      Text.FirstAt (fun cs => ['<'] <+: cs ∨ ['{', '{'] <+: cs) front rest
  | _ => True

end NodeKind

namespace Markup

namespace Piece

lemma endsText_iff_begins {cs : Text} : endsText cs ↔ ['<'] <+: cs ∨ ['{', '{'] <+: cs := by
  rw [endsText_iff]
  exact or_congr ⟨fun ⟨rest, h⟩ => ⟨rest, h.symm⟩, fun ⟨rest, h⟩ => ⟨rest, h.symm⟩⟩
    ⟨fun ⟨rest, h⟩ => ⟨rest, h.symm⟩, fun ⟨rest, h⟩ => ⟨rest, h.symm⟩⟩

variable {ahead rest : Text} {piece : Piece}

lemma Reads.kind_opensWith (h : Reads ahead (piece, rest)) (id start : Nat) :
    (piece.kind id start).OpensWith ahead := by
  cases h with
  | @tag c rest hc =>
    have hbang : '!' ≠ c := by
      rintro rfl
      cases hc
    have hslash : '/' ≠ c := by
      rintro rfl
      cases hc
    rw [kind]
    split <;> constructor <;> simp [NodeKind.isOpeningTag, hbang, hslash]
  | @nameless c rest hn hs hc =>
    have hcomment : ¬ ['<', '!', '-', '-'] <+: '<' :: c :: rest := by simpa using hc
    have hend : ¬ ['<', '/'] <+: '<' :: c :: rest := by simpa [eq_comm] using hs
    exact ⟨iff_of_false (by simp [kind]) hcomment, iff_of_false (by simp [kind]) hend,
      iff_of_true rfl ⟨by simp, hcomment, hend⟩, by simp [kind], by simp [kind]⟩
  | @text c rest he =>
    rw [← Bool.not_eq_true, endsText_iff_begins, not_or] at he
    obtain ⟨hbracket, hbraces⟩ := he
    have hother (mark : Text) (h : ['<'] <+: mark) : ¬ mark <+: c :: rest :=
      fun hmark => hbracket (h.trans hmark)
    exact ⟨iff_of_false (by simp [kind]) (hother _ (by simp)),
      iff_of_false (by simp [kind]) (hother _ (by simp)),
      iff_of_false (by simp [kind, NodeKind.isOpeningTag]) fun h => hbracket h.1,
      iff_of_false (by simp [kind]) hbraces, iff_of_true rfl ⟨hbracket, hbraces⟩⟩
  | _ => constructor <;> simp [kind, NodeKind.isOpeningTag]

lemma Reads.kind_endsBefore (h : Reads ahead (piece, rest)) (id start : Nat) :
    (piece.kind id start).EndsBefore ahead rest := by
  cases h with
  | comment rest => exact ⟨_, Text.Enclosed.read_cutsPast ..⟩
  | endTag rest => exact Text.Enclosed.read_cutsPast ..
  | interpolation rest => exact ⟨_, Text.Enclosed.read_cutsPast ..⟩
  | @text c rest he =>
    refine ⟨c :: (Text.cutBefore endsText rest).1, by simp [Text.cutBefore_append], ?_⟩
    have hfirst := Text.cutBefore_firstAt endsText (c :: rest)
    rw [Text.cutBefore_cons, if_neg (by simp [he])] at hfirst
    simpa only [endsText_iff_begins] using hfirst
  | nothing => exact ⟨[], rfl, by simp, Or.inl rfl⟩
  | @tag c rest hc =>
    simp only [kind]
    split <;> trivial
  | _ => trivial

lemma kind_eq_text_iff {id start : Nat} :
    piece.kind id start = .text ↔ ∃ chars, piece = .text chars := by
  cases piece with
  | tag written =>
    rw [kind]
    split <;> simp
  | _ => simp [kind]

lemma Reads.stop_of_text {chars : Text} (h : Reads ahead (.text chars, rest)) :
    rest = [] ∨ endsText rest := by
  cases h with
  | text rest he => exact (Text.cutBefore_firstAt endsText rest).stop
  | nothing => exact Or.inl rfl

end Piece

lemma Item.piece_ne_text_of_endsText {cs rest chars : Text} {item : Item}
    (h : Item.read? cs = some (item, rest)) (hcs : Piece.endsText cs) : item.piece ≠ .text chars := by
  obtain ⟨-, -, hp⟩ := Item.read?_eq_some_iff.1 h
  have hblank : (Text.cutBlank cs).2 = cs := by
    rcases Piece.endsText_iff.1 hcs with ⟨_, rfl⟩ | ⟨_, rfl⟩ <;> rfl
  have hr := Piece.reads cs
  rw [hblank] at hp
  rw [hp] at hr
  intro hchars
  rw [hchars] at hr
  cases hr with
  | text rest he => exact absurd (he.symm.trans hcs) (by decide)
  | nothing => cases hcs

lemma items_texts_apart (cs : Text) : (items cs).IsChain fun first second =>
    ¬ ((∃ chars, first.piece = .text chars) ∧ ∃ chars, second.piece = .text chars) := by
  induction cs using items_induction with
  | nil => simp
  | cons cs item rest hr ih =>
    rw [items_of_read? hr]
    apply List.IsChain.cons ih
    rintro next hnext ⟨⟨chars, hchars⟩, chars', hchars'⟩
    have hreads := Item.reads_of_read? hr
    rw [hchars] at hreads
    cases hr' : Item.read? rest with
    | none =>
      rw [Item.read?_eq_none_iff.1 hr'] at hnext
      simp at hnext
    | some read =>
      obtain ⟨second, after⟩ := read
      rw [items_of_read? hr'] at hnext
      obtain rfl := Option.some.inj hnext
      rcases hreads.stop_of_text with rfl | hstop
      · cases hr'
      · exact Item.piece_ne_text_of_endsText hr' hstop hchars'

end Markup

namespace Placed

variable {p : Placed} {source : Text}

lemma exists_delimited_split (h : p ∈ placed source) (hs : Text.size source < Word.bound) :
    ∃ before rest, source = before ++ (p.head.span.slice source ++ rest) ∧
      Text.size before = p.head.span.start ∧
      Text.size before + Text.size (p.head.span.slice source) = p.head.span.stop ∧
      p.head.kind.OpensWith (p.head.span.slice source ++ rest) ∧
      p.head.kind.EndsBefore (p.head.span.slice source ++ rest) rest := by
  obtain ⟨rest, hin⟩ := placed_isIn h
  obtain ⟨before, hb, hsource⟩ := hin.split
  have hopen := hin.reads.kind_opensWith p.id p.start
  have hspan := head_span h hs
  have hstart : Text.size (before ++ p.item.blank) = p.head.span.start := by
    rw [hspan, Text.size_append, hb, start]
  by_cases hn : ∃ c, p.item.piece = .nameless c
  · obtain ⟨c, hc⟩ := hn
    have hempty : p.head.span.slice source = [] := by
      rw [hspan, hc]
      exact Text.slice_self p.start source
    have hkind : p.head.kind = .startTag [] [] := by
      show p.item.piece.kind p.id p.start = _
      rw [hc]
      rfl
    refine ⟨before ++ p.item.blank, p.item.piece.chars ++ rest, ?_, hstart, ?_, ?_, ?_⟩
    · rw [hempty, hsource]
      simp
    · rw [hempty, hstart, hspan, hc]
      rfl
    · rw [hempty]
      exact hopen
    · rw [hkind]
      trivial
  · have hslice := slice_span h hs hn
    rw [hslice]
    refine ⟨before ++ p.item.blank, rest, ?_, hstart, ?_, hopen,
      hin.reads.kind_endsBefore p.id p.start⟩
    · rw [List.append_assoc]
      exact hsource
    · rw [hstart, hspan, Piece.extent_eq_size hn]

lemma text_blanks (h : p ∈ placed source) (hs : Text.size source < Word.bound)
    (hk : p.head.kind = .text) :
    (p.head.span.slice source = [] → p.head.span.start = Text.size source ∧
      ∃ c, source.getLast? = some c ∧ Text.isBlank c) ∧
    ∀ c ∈ (p.head.span.slice source).head?, Text.isBlank c = false := by
  obtain ⟨chars, hchars⟩ := Piece.kind_eq_text_iff.1 hk
  have hslice : p.head.span.slice source = chars := by
    rw [slice_span h hs (by simp [hchars]), hchars]
    rfl
  obtain ⟨rest, hin⟩ := placed_isIn h
  have hreads := hin.reads
  have hsize := hin.size_eq
  obtain ⟨before, cs, rfl, hb, hr⟩ := hin
  obtain ⟨-, hblank, hpiece⟩ := Item.read?_eq_some_iff.1 hr
  rw [hchars] at hreads hpiece
  rw [hslice, head_span h hs]
  constructor
  · rintro rfl
    obtain rfl : rest = [] := by
      generalize (Piece.text []).chars ++ rest = ds at hreads
      cases hreads
      rfl
    have hitem : p.item.chars = p.item.blank := by
      rw [Item.chars, hchars]
      exact List.append_nil _
    have hcs := Item.chars_of_read? hr
    have hne := Item.chars_ne_nil_of_read? hr
    rw [hitem] at hcs hne
    rw [List.append_nil] at hcs
    constructor
    · rw [stop, hitem] at hsize
      exact hsize
    · refine ⟨p.item.blank.getLast hne, ?_, Item.blank_of_read? hr _ (List.getLast_mem hne)⟩
      rw [← hcs, List.getLast?_append_of_ne_nil _ hne, List.getLast?_eq_getLast_of_ne_nil hne]
  · have hfront := Item.piece_head_not_blank hr
    rw [hchars] at hfront
    exact hfront

end Placed

lemma NodeKind.EndsBefore.text_free {text rest : Text}
    (h : NodeKind.EndsBefore (text ++ rest) rest .text) : '<' ∉ text ∧ ¬ ['{', '{'] <:+: text := by
  obtain ⟨front, hfront, hfirst⟩ := h
  obtain rfl := List.append_cancel_right hfront
  constructor
  · rw [← List.singleton_infix_iff]
    exact hfirst.not_infix (fun more => Or.inl (List.prefix_append ..)) (by simp)
  · exact hfirst.not_infix (fun more => Or.inr (List.prefix_append ..)) (by simp)

lemma content_texts_apart (source : Text) :
    (parse source).content.IsChain fun m n => ¬ (m.kind = .text ∧ n.kind = .text) := by
  have hplaced : (placed source).IsChain fun p q =>
      ¬ (p.head.kind = .text ∧ q.head.kind = .text) := by
    have hitems := Markup.items_texts_apart source
    rw [← Builder.map_item_placed (items source) Builder.start, List.isChain_map] at hitems
    exact hitems.imp fun p q hpq hkinds =>
      hpq ⟨Piece.kind_eq_text_iff.1 hkinds.1, Piece.kind_eq_text_iff.1 hkinds.2⟩
  have hheads : ((parse source).content.map Node.head).IsChain fun g h =>
      ¬ (g.kind = .text ∧ h.kind = .text) := by
    rw [content_heads, List.isChain_map]
    exact hplaced
  exact (List.isChain_map _).1 hheads

/-- What a node is shows in what it begins with, and it ends behind the first mark that closes it. Texts
are as long as they can be, so they hold no mark that opens anything and do not follow each other. -/
theorem content_delimited (source : Text) (hs : Text.size source < Word.bound) :
    (∀ n ∈ (parse source).content, ∃ before rest,
      source = before ++ ((parse source).text (.node n) ++ rest) ∧
      Text.size before = n.head.span.start ∧
      Text.size before + Text.size ((parse source).text (.node n)) = n.head.span.stop ∧
      n.kind.OpensWith ((parse source).text (.node n) ++ rest) ∧
      n.kind.EndsBefore ((parse source).text (.node n) ++ rest) rest) ∧
    (∀ n ∈ (parse source).content, n.kind = .text →
      ((parse source).text (.node n) = [] → n.head.span.start = Text.size source ∧
        ∃ c, source.getLast? = some c ∧ Text.isBlank c) ∧
      '<' ∉ (parse source).text (.node n) ∧ ¬ ['{', '{'] <:+: (parse source).text (.node n) ∧
      ∀ c ∈ ((parse source).text (.node n)).head?, Text.isBlank c = false) ∧
    (parse source).content.IsChain fun m n => ¬ (m.kind = .text ∧ n.kind = .text) := by
  refine ⟨fun n hn => ?_, fun n hn hk => ?_, content_texts_apart source⟩
  · obtain ⟨p, hp, hhead⟩ := exists_placed_of_mem_content hn
    have hsplit := Placed.exists_delimited_split hp hs
    rw [hhead] at hsplit
    exact hsplit
  · obtain ⟨p, hp, hhead⟩ := exists_placed_of_mem_content hn
    have hkind : p.head.kind = .text := by
      rw [hhead]
      exact hk
    obtain ⟨before, rest, -, -, -, -, hends⟩ := Placed.exists_delimited_split hp hs
    obtain ⟨hempty, hblank⟩ := Placed.text_blanks hp hs hkind
    rw [hkind] at hends
    obtain ⟨hbracket, hbraces⟩ := hends.text_free
    rw [hhead] at hempty hbracket hbraces hblank
    exact ⟨hempty, hbracket, hbraces, hblank⟩

theorem content_delimited_overlapping :
    Text.size ['{', '{', '{', '}', '}', '}', '<', '!', '-', '-', '>'] < Word.bound ∧
    ((parse ['{', '{', '{', '}', '}', '}', '<', '!', '-', '-', '>']).content.map
      fun n => (n.kind, n.head.span)) =
        [(.interpolation, ⟨0, 5⟩), (.text, ⟨5, 6⟩), (.comment, ⟨6, 11⟩)] ∧
    (parse ['{', '{', '{', '}', '}', '}', '<', '!', '-', '-', '>']).content.IsChain
      fun m n => ¬ (m.kind = .text ∧ n.kind = .text) :=
  ⟨by decide, by decide +kernel, (content_delimited _ (by decide)).2.2⟩

end TemplateMarkup
