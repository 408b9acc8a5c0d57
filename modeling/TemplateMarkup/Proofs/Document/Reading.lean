import TemplateMarkup.Proofs.Document.Basic
import TemplateMarkup.Proofs.Markup.Reading

/-! Each part of a printed document is read back as the pieces that it was printed from, and what follows it is
read as it would be alone. -/

namespace TemplateMarkup

open Markup (Item Piece WrittenAttribute WrittenTag WrittenValue)

lemma Text.takeWhile_append_cons {p : Char → Bool} {cs rest : Text} {c : Char}
    (hcs : ∀ d ∈ cs, p d) (hc : p c = false) : (cs ++ c :: rest).takeWhile p = cs := by
  rw [List.takeWhile_append_of_pos hcs, List.takeWhile_cons_of_neg (by simp [hc]), List.append_nil]

lemma Text.dropWhile_append_cons {p : Char → Bool} {cs rest : Text} {c : Char}
    (hcs : ∀ d ∈ cs, p d) (hc : p c = false) : (cs ++ c :: rest).dropWhile p = c :: rest := by
  rw [List.dropWhile_append_of_pos hcs, List.dropWhile_cons_of_neg (by simp [hc])]

lemma Text.cutBlank_append_cons {blank rest : Text} {c : Char} (hblank : ∀ d ∈ blank, isBlank d)
    (hc : isBlank c = false) : cutBlank (blank ++ c :: rest) = (blank, c :: rest) := by
  rw [cutBlank, takeWhile_append_cons hblank hc, dropWhile_append_cons hblank hc]

lemma Text.cutBlank_of_not_blank {c : Char} {cs : Text} (h : isBlank c = false) :
    cutBlank (c :: cs) = ([], c :: cs) :=
  @cutBlank_append_cons [] cs c (by simp) h

namespace Part

def written (a : Text × Text) : WrittenAttribute :=
  ⟨[' '], a.1, [], some ⟨[], .quoted '"' ⟨a.2, true⟩⟩⟩

def opening (name : Text) (attributes : List (Text × Text)) : WrittenTag :=
  ⟨name, attributes.map written, [], .plain⟩

lemma isBlank_of_isAttributeChar {c : Char} (h : Markup.isAttributeChar c) :
    Text.isBlank c = false := by
  by_contra hb
  rw [Bool.not_eq_false] at hb
  rw [Markup.not_isAttributeChar_of_isBlank hb] at h
  cases h

variable {rest : Text}

lemma read_value {v : Text} (h : '"' ∉ v) :
    WrittenValue.read ('"' :: (v ++ '"' :: rest)) = (.quoted '"' ⟨v, true⟩, rest) := by
  have hread : Text.Enclosed.read ['"'] (v ++ '"' :: rest) = (⟨v, true⟩, rest) := by
    rw [show v ++ '"' :: rest = v ++ ['"'] ++ rest by simp]
    exact Text.Enclosed.read_append (Text.endsFirst_singleton h)
  rw [WrittenValue.read, if_pos (Or.inl rfl), hread]

lemma read?_attribute {a : Text × Text} (h : IsAttribute a) :
    WrittenAttribute.read? (printAttribute a ++ rest) = some (written a, rest) := by
  obtain ⟨name, value⟩ := a
  obtain ⟨hne, hname, hvalue⟩ := h
  obtain ⟨c, cs, rfl⟩ := List.exists_cons_of_ne_nil hne
  have hc : Text.isBlank c = false := isBlank_of_isAttributeChar (hname c (List.mem_cons_self ..))
  have hprint : printAttribute (c :: cs, value) ++ rest =
      ' ' :: (c :: cs ++ '=' :: '"' :: (value ++ '"' :: rest)) := by
    simp [printAttribute]
  have hblank : Text.cutBlank (' ' :: (c :: cs ++ '=' :: '"' :: (value ++ '"' :: rest))) =
      ([' '], c :: cs ++ '=' :: '"' :: (value ++ '"' :: rest)) :=
    @Text.cutBlank_append_cons [' '] _ c (by simp [Text.isBlank]) hc
  rw [hprint, WrittenAttribute.read?, hblank]
  simp only [Text.takeWhile_append_cons hname (show Markup.isAttributeChar '=' = false by decide),
    Text.dropWhile_append_cons hname (show Markup.isAttributeChar '=' = false by decide),
    Text.cutBlank_of_not_blank (show Text.isBlank '=' = false by decide),
    Text.cutBlank_of_not_blank (show Text.isBlank '"' = false by decide), read_value hvalue]
  rfl

lemma read?_bracket (rest : Text) : WrittenAttribute.read? ('>' :: rest) = none := by
  rw [WrittenAttribute.read?, Text.cutBlank_of_not_blank (by decide)]
  rfl

lemma readAll_attributes {as : List (Text × Text)} (h : ∀ a ∈ as, IsAttribute a) :
    WrittenAttribute.readAll (as.flatMap printAttribute ++ '>' :: rest) =
      (as.map written, '>' :: rest) := by
  induction as with
  | nil => exact WrittenAttribute.readAll_of_read?_none (read?_bracket rest)
  | cons a as ih =>
    have ha := h a (List.mem_cons_self ..)
    have has := ih fun b hb => h b (List.mem_cons_of_mem a hb)
    rw [List.flatMap_cons, List.append_assoc, WrittenAttribute.readAll_of_read? (read?_attribute ha),
      has, List.map_cons]

lemma exists_printed_stop (as : List (Text × Text)) (rest : Text) : ∃ c cs,
    as.flatMap printAttribute ++ '>' :: rest = c :: cs ∧ Markup.isNameChar c = false := by
  cases as with
  | nil => exact ⟨'>', rest, rfl, by decide⟩
  | cons a as => exact ⟨' ', _, rfl, by decide⟩

lemma read_opening {first : Char} {cs : Text} {as : List (Text × Text)}
    (hname : ∀ d ∈ cs, Markup.isNameChar d) (has : ∀ a ∈ as, IsAttribute a) :
    WrittenTag.read first (cs ++ (as.flatMap printAttribute ++ '>' :: rest)) =
      (opening (first :: cs) as, rest) := by
  obtain ⟨c, ds, hprint, hc⟩ := exists_printed_stop as rest
  have htake : (cs ++ (as.flatMap printAttribute ++ '>' :: rest)).takeWhile Markup.isNameChar =
      cs := by
    rw [hprint, Text.takeWhile_append_cons hname hc]
  have hdrop : (cs ++ (as.flatMap printAttribute ++ '>' :: rest)).dropWhile Markup.isNameChar =
      as.flatMap printAttribute ++ '>' :: rest := by
    rw [hprint, Text.dropWhile_append_cons hname hc]
  rw [WrittenTag.read, htake, hdrop, readAll_attributes has]
  simp only [Text.cutBlank_of_not_blank (show Text.isBlank '>' = false by decide)]
  rfl

mutual

def items : Part → List Item
  | element name attributes content => ⟨[], .tag (opening name attributes)⟩ ::
      (itemsAll content ++ [⟨[], .endTag ⟨name, true⟩⟩])
  | void name attributes => [⟨[], .tag (opening name attributes)⟩]
  | comment body => [⟨[], .comment ⟨body, true⟩⟩]
  | interpolation body => [⟨[], .interpolation ⟨body, true⟩⟩]
  | text chars => [⟨[], .text chars⟩]

def itemsAll : List Part → List Item
  | [] => []
  | p :: rest => p.items ++ itemsAll rest

end

lemma items_cons {c : Char} {cs : Text} {piece : Piece} (hc : Text.isBlank c = false)
    (h : Piece.read (c :: cs) = (piece, rest)) :
    Markup.items (c :: cs) = ⟨[], piece⟩ :: Markup.items rest := by
  refine Markup.items_of_read? (Item.read?_eq_some_iff.2 ⟨by simp, ?_, ?_⟩)
  · rw [Text.cutBlank_of_not_blank hc]
  · rw [Text.cutBlank_of_not_blank hc, h]

lemma items_opening {name : Text} {as : List (Text × Text)} (hname : IsName name)
    (has : ∀ a ∈ as, IsAttribute a) :
    Markup.items (printOpening name as ++ rest) =
      ⟨[], .tag (opening name as)⟩ :: Markup.items rest := by
  cases name with
  | nil => exact hname.elim
  | cons c cs =>
    obtain ⟨hc, hcs⟩ := hname
    have hprint : printOpening (c :: cs) as ++ rest =
        '<' :: c :: (cs ++ (as.flatMap printAttribute ++ '>' :: rest)) := by
      simp [printOpening]
    rw [hprint]
    refine items_cons (by decide) ?_
    rw [Piece.read_of_isNameStart _ hc, read_opening hcs has]

lemma not_mem_of_isName {name : Text} (h : IsName name) : '>' ∉ name := by
  cases name with
  | nil => exact h.elim
  | cons c cs =>
    intro hmem
    rcases List.mem_cons.1 hmem with rfl | hmem
    · exact absurd h.1 (by decide)
    · exact absurd (h.2 '>' hmem) (by decide)

lemma items_closing {name : Text} (h : IsName name) :
    Markup.items (printClosing name ++ rest) =
      ⟨[], .endTag ⟨name, true⟩⟩ :: Markup.items rest := by
  have hread := @Text.Enclosed.read_append _ _ rest
    (Text.endsFirst_singleton (not_mem_of_isName h))
  have hprint : printClosing name ++ rest = '<' :: '/' :: (name ++ ['>'] ++ rest) := by
    simp [printClosing]
  rw [hprint]
  refine items_cons (by decide) ?_
  rw [Piece.read, hread]

lemma items_comment {body : Text} (h : ¬ ['-', '-', '>'] <:+: body) :
    Markup.items ((comment body).print ++ rest) =
      ⟨[], .comment ⟨body, true⟩⟩ :: Markup.items rest := by
  have hread := @Text.Enclosed.read_append _ _ rest
    (@Text.endsFirst_of_last_new body ['-', '-'] '>' (by decide) h)
  have hprint : (comment body).print ++ rest =
      '<' :: '!' :: '-' :: '-' :: (body ++ (['-', '-'] ++ ['>']) ++ rest) := by
    simp [print]
  rw [hprint]
  refine items_cons (by decide) ?_
  rw [Piece.read, show ['-', '-', '>'] = ['-', '-'] ++ ['>'] from rfl, hread]

lemma items_interpolation {body : Text} (h : ¬ ['}', '}'] <:+: body)
    (hlast : body.getLast? ≠ some '}') :
    Markup.items ((interpolation body).print ++ rest) =
      ⟨[], .interpolation ⟨body, true⟩⟩ :: Markup.items rest := by
  have hread := @Text.Enclosed.read_append _ _ rest (Text.endsFirst_double h hlast)
  have hprint : (interpolation body).print ++ rest =
      '{' :: '{' :: (body ++ ['}', '}'] ++ rest) := by
    simp [print]
  rw [hprint]
  refine items_cons (by decide) ?_
  rw [Piece.read, hread]

def Follows (rest : Text) : Part → Prop
  | text chars => (rest = [] ∨ Piece.endsText rest) ∧
      (chars.getLast? = some '{' → rest.head? ≠ some '{')
  | _ => True

lemma endsText_inside {chars xs ys : Text} {c : Char} (h : (text chars).WellFormed)
    (hrest : (text chars).Follows rest) (he : chars = xs ++ c :: ys) :
    Piece.endsText (c :: ys ++ rest) = false := by
  obtain ⟨-, -, hbracket, hbraces⟩ := h
  refine Bool.eq_false_iff.2 fun hends => ?_
  rcases Piece.endsText_iff.1 hends with ⟨zs, hc⟩ | ⟨zs, hc⟩
  · obtain ⟨rfl, -⟩ := List.cons.inj hc
    exact hbracket (by simp [he])
  · obtain ⟨rfl, hys⟩ := List.cons.inj hc
    cases ys with
    | nil => exact hrest.2 (by simp [he]) (by rw [show rest = '{' :: zs from hys]; rfl)
    | cons d ys =>
      obtain ⟨rfl, -⟩ := List.cons.inj hys
      exact hbraces ⟨xs, ys, by simp [he]⟩

lemma items_text {chars : Text} (h : (text chars).WellFormed) (hrest : (text chars).Follows rest) :
    Markup.items (chars ++ rest) = ⟨[], .text chars⟩ :: Markup.items rest := by
  obtain ⟨hne, hblank, -⟩ := id h
  obtain ⟨c, cs, rfl⟩ := List.exists_cons_of_ne_nil hne
  have hstart : Piece.endsText (c :: (cs ++ rest)) = false :=
    endsText_inside h hrest (List.nil_append _).symm
  have hcut : Text.cutBefore Piece.endsText (cs ++ rest) = (cs, rest) := by
    refine Text.cutBefore_append_of_first (fun xs d ys he => ?_) hrest.1
    have hinside : c :: cs = (c :: xs) ++ d :: ys := by rw [he, List.cons_append]
    rw [endsText_inside h hrest hinside]
    simp
  rw [List.cons_append]
  refine items_cons (hblank c rfl) ?_
  rw [Piece.read_of_endsText hstart, hcut]

lemma endsText_print {q : Part} (hq : ∀ chars, q ≠ text chars) (rest : Text) :
    Piece.endsText (q.print ++ rest) := by
  cases q with
  | text chars => exact absurd rfl (hq chars)
  | element name as content => rw [print, printOpening]; rfl
  | void name as => rw [print, printOpening]; rfl
  | comment body => rw [print]; rfl
  | interpolation body => rw [print]; rfl

lemma follows_printAll {p : Part} {ps : List Part} (h : AllWellFormed (p :: ps))
    (hrest : rest = [] ∨ rest.head? = some '<') : p.Follows (printAll ps ++ rest) := by
  cases p with
  | text chars =>
    cases ps with
    | nil =>
      rw [printAll, List.nil_append]
      rcases hrest with rfl | hhead
      · exact ⟨Or.inl rfl, fun _ => by simp⟩
      · obtain ⟨cs, rfl⟩ := List.head?_eq_some_iff.1 hhead
        exact ⟨Or.inr rfl, fun _ => by simp⟩
    | cons q ps =>
      have hjoin : (text chars).Precedes q := h.2.1 q rfl
      have hq : ∀ more, q ≠ text more := by
        rintro more rfl
        exact hjoin
      rw [printAll, List.append_assoc]
      refine ⟨Or.inr (endsText_print hq _), fun hlast => ?_⟩
      cases q with
      | text more => exact absurd rfl (hq more)
      | interpolation body => exact absurd hlast hjoin
      | element name as content => simp [print, printOpening]
      | void name as => simp [print, printOpening]
      | comment body => simp [print]
  | _ => trivial

mutual

lemma items_print (rest : Text) : ∀ p : Part, p.WellFormed → p.Follows rest →
    Markup.items (p.print ++ rest) = p.items ++ Markup.items rest
  | element name as content, h, _ => by
    obtain ⟨hname, -, has, hcontent⟩ := h
    rw [print, items, List.append_assoc, items_opening hname has, List.append_assoc,
      items_printAll (printClosing name ++ rest) content hcontent (Or.inr rfl),
      items_closing hname]
    simp
  | void name as, h, _ => items_opening h.1 h.2.2
  | comment body, h, _ => items_comment h
  | interpolation body, h, _ => items_interpolation h.1 h.2
  | text chars, h, hrest => items_text h hrest

lemma items_printAll (rest : Text) : ∀ ps : List Part, AllWellFormed ps →
    (rest = [] ∨ rest.head? = some '<') →
      Markup.items (printAll ps ++ rest) = itemsAll ps ++ Markup.items rest
  | [], _, _ => rfl
  | p :: ps, h, hrest => by
    rw [printAll, itemsAll, List.append_assoc, items_print _ p h.1 (follows_printAll h hrest),
      items_printAll rest ps h.2.2 hrest, List.append_assoc]

end

end Part

end TemplateMarkup
