import TemplateMarkup.Proofs.Markup.Reading

namespace TemplateMarkup

namespace Text

variable {p : Char → Bool} {mark body cs front rest rest' : Text}

lemma head?_append_congr (front : Text) (h : rest'.head? = rest.head?) :
    (front ++ rest').head? = (front ++ rest).head? := by
  rw [List.head?_append, List.head?_append, h]

lemma while_local (htake : cs.takeWhile p = front) (hdrop : cs.dropWhile p = rest)
    (h : rest'.head? = rest.head?) :
    (front ++ rest').takeWhile p = front ∧ (front ++ rest').dropWhile p = rest' := by
  have hfront : ∀ c ∈ front, p c := fun c hc => List.mem_takeWhile_imp (htake ▸ hc)
  have hstop := List.head?_dropWhile_not p cs
  rw [hdrop, ← h] at hstop
  rw [List.takeWhile_append_of_pos hfront, List.dropWhile_append_of_pos hfront]
  cases rest' with
  | nil => simp
  | cons c rest' =>
    have hc : ¬ p c := by simpa using hstop
    rw [List.takeWhile_cons_of_neg hc, List.dropWhile_cons_of_neg hc, List.append_nil]
    exact ⟨rfl, rfl⟩

lemma cutBlank_local (hcut : cutBlank cs = (front, rest)) (h : rest'.head? = rest.head?) :
    cutBlank (front ++ rest') = (front, rest') := by
  obtain ⟨htake, hdrop⟩ := Prod.mk.inj hcut
  obtain ⟨htake, hdrop⟩ := while_local htake hdrop h
  exact Prod.ext htake hdrop

lemma Enclosed.read_local (h : (read mark cs).1.closed ∨ rest' = []) :
    read mark ((read mark cs).1.chars mark ++ rest') = ((read mark cs).1, rest') := by
  cases hcut : cutPast mark cs with
  | some cut =>
    obtain ⟨body, rest⟩ := cut
    rw [show read mark cs = (⟨body, true⟩, rest) by rw [read, hcut]]
    exact read_append (endsFirst_of_cutPast hcut)
  | none =>
    have hread : read mark cs = (⟨cs, false⟩, []) := by rw [read, hcut]
    rw [hread] at h ⊢
    obtain rfl := h.resolve_left (by simp)
    rw [chars, if_neg (by simp), List.append_nil, hread]

end Text

namespace Markup

open Text (cutBlank)

variable {cs rest rest' : Text}

lemma WrittenValue.read_local {value : WrittenValue} (h : read cs = (value, rest))
    (hrest : rest'.head? = rest.head?) : read (value.chars ++ rest') = (value, rest') := by
  cases cs with
  | nil =>
    obtain ⟨rfl, rfl⟩ := Prod.mk.inj h
    obtain rfl := List.head?_eq_none_iff.1 hrest
    rfl
  | cons c cs =>
    rw [read] at h
    by_cases hq : c = '"' ∨ c = '\''
    · simp only [if_pos hq, Prod.mk.injEq] at h
      obtain ⟨rfl, rfl⟩ := h
      have hclosed : (Text.Enclosed.read [c] cs).1.closed ∨ rest' = [] := by
        cases hc : (Text.Enclosed.read [c] cs).1.closed with
        | true => exact Or.inl rfl
        | false =>
          rw [(Text.Enclosed.read_of_not_closed hc).2] at hrest
          exact Or.inr (List.head?_eq_none_iff.1 hrest)
      rw [chars, List.cons_append, read, if_pos hq, Text.Enclosed.read_local hclosed]
    rw [if_neg hq] at h
    by_cases hb : isAttributeChar c
    · rw [if_pos hb] at h
      obtain ⟨rfl, rfl⟩ := Prod.mk.inj h
      obtain ⟨htake, hdrop⟩ := Text.while_local rfl rfl hrest
      have hended : rest'.isEmpty = (cs.dropWhile isAttributeChar).isEmpty := by
        rw [Bool.eq_iff_iff, List.isEmpty_iff, List.isEmpty_iff, ← List.head?_eq_none_iff, hrest,
          List.head?_eq_none_iff]
      rw [chars, List.cons_append, read, if_neg hq, if_pos hb]
      simp only [htake, hdrop, hended]
    · rw [if_neg hb] at h
      obtain ⟨rfl, rfl⟩ := Prod.mk.inj h
      obtain ⟨more, rfl⟩ := List.head?_eq_some_iff.1 hrest
      rw [chars, List.nil_append, read, if_neg hq, if_neg hb]

namespace WrittenAttribute

structure Opens (cs blank name gap rest : Text) : Prop where
  blank_cut : cutBlank cs = (blank, name ++ (gap ++ rest))
  name_run : (name ++ (gap ++ rest)).takeWhile isAttributeChar = name
  name_stop : (name ++ (gap ++ rest)).dropWhile isAttributeChar = gap ++ rest
  gap_cut : cutBlank (gap ++ rest) = (gap, rest)

variable {blank name gap : Text} {a : WrittenAttribute} {as : List WrittenAttribute}

lemma exists_opens (cs : Text) : ∃ blank name gap rest, Opens cs blank name gap rest := by
  have hname : (cutBlank cs).2.takeWhile isAttributeChar ++
      ((cutBlank ((cutBlank cs).2.dropWhile isAttributeChar)).1 ++
        (cutBlank ((cutBlank cs).2.dropWhile isAttributeChar)).2) = (cutBlank cs).2 := by
    rw [Text.cutBlank_append, List.takeWhile_append_dropWhile]
  refine ⟨_, _, _, _, Prod.ext rfl hname.symm, ?_, ?_, ?_⟩
  · rw [hname]
  · rw [hname, Text.cutBlank_append]
  · rw [Text.cutBlank_append]

namespace Opens

lemma chars_eq (h : Opens cs blank name gap rest) : cs = blank ++ (name ++ (gap ++ rest)) := by
  have hcs := Text.cutBlank_append cs
  rw [h.blank_cut] at hcs
  exact hcs.symm

lemma transfer (h : Opens cs blank name gap rest) (hrest : rest'.head? = rest.head?) :
    Opens (blank ++ (name ++ (gap ++ rest'))) blank name gap rest' := by
  have hgap := Text.head?_append_congr gap hrest
  have hname := Text.head?_append_congr name hgap
  obtain ⟨hrun, hstop⟩ := Text.while_local h.name_run h.name_stop hgap
  exact ⟨Text.cutBlank_local h.blank_cut hname, hrun, hstop, Text.cutBlank_local h.gap_cut hrest⟩

lemma read?_of_name_nil (h : Opens cs blank [] gap rest) : read? cs = none := by
  rw [read?, h.blank_cut]
  simp only [h.name_run]
  rfl

lemma read?_assigned {space tail after : Text} {value : WrittenValue}
    (h : Opens cs blank name gap ('=' :: rest)) (hname : name ≠ [])
    (hspace : cutBlank rest = (space, tail)) (hvalue : WrittenValue.read tail = (value, after)) :
    read? cs = some (⟨blank, name, gap, some ⟨space, value⟩⟩, after) := by
  rw [read?, h.blank_cut]
  simp only [h.name_run, h.name_stop, h.gap_cut]
  rw [if_neg (by simpa using hname)]
  simp only [hspace, hvalue]

lemma read?_plain (h : Opens cs blank name gap rest) (hname : name ≠ [])
    (hsign : rest.head? ≠ some '=') : read? cs = some (⟨blank, name, gap, none⟩, rest) := by
  rw [read?, h.blank_cut]
  simp only [h.name_run, h.name_stop, h.gap_cut]
  rw [if_neg (by simpa using hname)]
  cases rest with
  | nil => rfl
  | cons c rest =>
    split
    · rename_i heq
      rw [heq] at hsign
      exact absurd rfl hsign
    · rfl

end Opens

lemma read?_local (h : read? cs = some (a, rest)) (hrest : rest'.head? = rest.head?) :
    read? (a.chars ++ rest') = some (a, rest') := by
  obtain ⟨blank, name, gap, after, ho⟩ := exists_opens cs
  by_cases hname : name = []
  · subst hname
    rw [ho.read?_of_name_nil] at h
    cases h
  by_cases hsign : after.head? = some '='
  · obtain ⟨tail, rfl⟩ := List.head?_eq_some_iff.1 hsign
    obtain ⟨space, more, hspace⟩ : ∃ space more, cutBlank tail = (space, more) := ⟨_, _, rfl⟩
    obtain ⟨value, last, hvalue⟩ : ∃ value last, WrittenValue.read more = (value, last) :=
      ⟨_, _, rfl⟩
    rw [ho.read?_assigned hname hspace hvalue, Option.some.injEq, Prod.mk.injEq] at h
    obtain ⟨rfl, rfl⟩ := h
    have hmore : (value.chars ++ rest').head? = more.head? := by
      have hback := WrittenValue.chars_append more
      rw [hvalue] at hback
      rw [← hback]
      exact Text.head?_append_congr value.chars hrest
    have hchars : (⟨blank, name, gap, some ⟨space, value⟩⟩ : WrittenAttribute).chars ++ rest' =
        blank ++ (name ++ (gap ++ '=' :: (space ++ (value.chars ++ rest')))) := by
      simp [chars, Assignment.chars]
    rw [hchars]
    have ho' : Opens (blank ++ (name ++ (gap ++ '=' :: (space ++ (value.chars ++ rest'))))) blank name
        gap ('=' :: (space ++ (value.chars ++ rest'))) := ho.transfer rfl
    exact ho'.read?_assigned hname (Text.cutBlank_local hspace hmore)
      (WrittenValue.read_local hvalue hrest)
  · rw [ho.read?_plain hname hsign, Option.some.injEq, Prod.mk.injEq] at h
    obtain ⟨rfl, rfl⟩ := h
    have hchars : (⟨blank, name, gap, none⟩ : WrittenAttribute).chars ++ rest' =
        blank ++ (name ++ (gap ++ rest')) := by
      simp [chars]
    rw [hchars]
    exact (ho.transfer hrest).read?_plain hname (by rwa [hrest])

lemma read?_eq_none_iff (hcut : cutBlank cs = (blank, rest)) :
    read? cs = none ↔ ∀ c ∈ rest.head?, isAttributeChar c = false := by
  simp only [read?, hcut]
  cases rest with
  | nil => simp
  | cons c rest =>
    by_cases hc : isAttributeChar c
    · rw [List.takeWhile_cons_of_pos hc, List.isEmpty_cons, if_neg (by simp)]
      split <;> simp [hc]
    · rw [List.takeWhile_cons_of_neg hc]
      simp [hc]

lemma readAll_local {gap tail tail' : Text} (h : readAll cs = (as, rest))
    (hcut : cutBlank rest = (gap, tail)) (htail : tail'.head? = tail.head?) :
    readAll (as.flatMap chars ++ (gap ++ tail')) = (as, gap ++ tail') := by
  -- The reader looks past blanks for another name, so the gap before the ending stays as it was.
  induction as generalizing cs with
  | nil =>
    cases hr : read? cs with
    | some read =>
      rw [readAll_of_read? hr] at h
      cases h
    | none =>
      rw [readAll_of_read?_none hr] at h
      obtain ⟨-, rfl⟩ := Prod.mk.inj h
      apply readAll_of_read?_none
      rw [List.flatMap_nil, List.nil_append, read?_eq_none_iff (Text.cutBlank_local hcut htail), htail]
      exact (read?_eq_none_iff hcut).1 hr
  | cons a as ih =>
    cases hr : read? cs with
    | none =>
      rw [readAll_of_read?_none hr] at h
      cases h
    | some read =>
      obtain ⟨b, after⟩ := read
      rw [readAll_of_read? hr, Prod.mk.injEq, List.cons.injEq] at h
      obtain ⟨⟨rfl, has⟩, hrest⟩ := h
      have hall : readAll after = (as, rest) := Prod.ext has hrest
      have hafter := chars_readAll after
      rw [hall, ← Text.cutBlank_append rest, hcut] at hafter
      have hhead : (as.flatMap chars ++ (gap ++ tail')).head? = after.head? := by
        rw [← hafter]
        exact Text.head?_append_congr _ (Text.head?_append_congr gap htail)
      rw [List.flatMap_cons, List.append_assoc, readAll_of_read? (read?_local hr hhead), ih hall]

end WrittenAttribute

lemma Ending.read_local {ending : Ending} (h : read cs = (ending, rest)) (he : ending ≠ .missing) :
    read (ending.chars ++ rest') = (ending, rest') := by
  cases ending with
  | missing => exact absurd rfl he
  | _ => rfl

lemma WrittenTag.read_of_parts {first : Char} {as : List WrittenAttribute} {name gap more last : Text}
    {ending : Ending} (hname : cs.takeWhile isNameChar = name)
    (hall : WrittenAttribute.readAll (cs.dropWhile isNameChar) = (as, more))
    (hgap : cutBlank more = (gap, last)) (hending : Ending.read last = (ending, rest)) :
    read first cs = (⟨first :: name, as, gap, ending⟩, rest) := by
  simp only [read, hname, hall, hgap, hending]

lemma WrittenTag.read_local {first : Char} {tag : WrittenTag} (h : read first cs = (tag, rest))
    (he : tag.ending ≠ .missing) (rest' : Text) :
    ∃ tail, tag.chars = first :: tail ∧ read first (tail ++ rest') = (tag, rest') := by
  obtain ⟨as, more, hall⟩ : ∃ as more,
      WrittenAttribute.readAll (cs.dropWhile isNameChar) = (as, more) := ⟨_, _, rfl⟩
  obtain ⟨gap, last, hgap⟩ : ∃ gap last, cutBlank more = (gap, last) := ⟨_, _, rfl⟩
  obtain ⟨ending, after, hending⟩ : ∃ ending after, Ending.read last = (ending, after) :=
    ⟨_, _, rfl⟩
  rw [read_of_parts rfl hall hgap hending, Prod.mk.injEq] at h
  obtain ⟨rfl, rfl⟩ := h
  have hlast : (ending.chars ++ rest').head? = last.head? := by
    have hback := Ending.chars_append last
    rw [hending] at hback
    rw [← hback]
    cases ending with
    | missing => exact absurd rfl he
    | _ => rfl
  have hmore : (as.flatMap WrittenAttribute.chars ++ (gap ++ (ending.chars ++ rest'))).head? =
      (cs.dropWhile isNameChar).head? := by
    have hback := WrittenAttribute.chars_readAll (cs.dropWhile isNameChar)
    rw [hall, ← Text.cutBlank_append more, hgap] at hback
    rw [← hback]
    exact Text.head?_append_congr _ (Text.head?_append_congr gap hlast)
  obtain ⟨htake, hdrop⟩ := Text.while_local rfl rfl hmore
  refine ⟨cs.takeWhile isNameChar ++ (as.flatMap WrittenAttribute.chars ++ (gap ++ ending.chars)),
    by simp [chars], ?_⟩
  rw [List.append_assoc, List.append_assoc, List.append_assoc]
  refine read_of_parts htake ?_ (Text.cutBlank_local hgap hlast) (Ending.read_local hending he)
  rw [hdrop]
  exact WrittenAttribute.readAll_local hall hgap hlast

namespace Piece

lemma endsText_append (h : endsText cs) (more : Text) : endsText (cs ++ more) := by
  rcases endsText_iff.1 h with ⟨tail, rfl⟩ | ⟨tail, rfl⟩ <;> rfl

lemma read_chars {piece : Piece} (h : Reads cs (piece, rest)) (hname : ∀ c, piece ≠ .nameless c)
    (hending : ∀ tag, piece = .tag tag → tag.ending ≠ .missing) :
    read piece.chars = (piece, []) := by
  have henclosed (mark cs : Text) : Text.Enclosed.read mark ((Text.Enclosed.read mark cs).1.chars mark) =
      ((Text.Enclosed.read mark cs).1, []) := by
    have hread := @Text.Enclosed.read_local mark cs [] (Or.inr rfl)
    rwa [List.append_nil] at hread
  cases h with
  | comment rest =>
    show read ('<' :: '!' :: '-' :: '-' :: Text.Enclosed.chars _ _) = _
    rw [read, henclosed]
  | endTag rest =>
    show read ('<' :: '/' :: Text.Enclosed.chars _ _) = _
    rw [read, henclosed]
  | bracket => exact absurd rfl (hname none)
  | nameless rest hn hs hc => exact absurd rfl (hname _)
  | @tag c rest hc =>
    generalize hread : WrittenTag.read c rest = out at *
    obtain ⟨tag, after⟩ := out
    obtain ⟨tail, hchars, hagain⟩ := WrittenTag.read_local hread (hending tag rfl) []
    rw [List.append_nil] at hagain
    rw [chars, hchars, read_of_isNameStart _ hc, hagain]
  | interpolation rest =>
    show read ('{' :: '{' :: Text.Enclosed.chars _ _) = _
    rw [read, henclosed]
  | @text c rest he =>
    have hfirst := Text.cutBefore_firstAt endsText (c :: rest)
    rw [Text.cutBefore_cons, if_neg (by simp [he])] at hfirst
    -- What ends a text within its own characters ends it in front of any others.
    have halone : ∀ xs d ys, c :: (Text.cutBefore endsText rest).1 = xs ++ d :: ys →
        ¬ endsText (d :: ys ++ []) := fun xs d ys hsplit hends => by
      rw [List.append_nil] at hends
      exact hfirst.earlier xs d ys hsplit (endsText_append hends _)
    have hc : ¬ endsText (c :: (Text.cutBefore endsText rest).1) := by
      simpa using halone [] c _ rfl
    have hcut := Text.cutBefore_append_of_first halone (Or.inl rfl)
    rw [List.append_nil, Text.cutBefore_cons, if_neg hc, Prod.mk.injEq, List.cons.injEq] at hcut
    obtain ⟨⟨-, hfront⟩, hback⟩ := hcut
    rw [chars, read_of_endsText (Bool.eq_false_iff.2 hc), hfront, hback]
  | nothing => rfl

end Piece

lemma items_piece {item : Item} (h : Item.read? cs = some (item, rest))
    (hne : item.piece.chars ≠ []) (hname : ∀ c, item.piece ≠ .nameless c)
    (hending : ∀ tag, item.piece = .tag tag → tag.ending ≠ .missing) :
    items item.piece.chars = [⟨[], item.piece⟩] := by
  have hcut : cutBlank item.piece.chars = ([], item.piece.chars) := by
    have hfront := Item.piece_head_not_blank h
    cases hchars : item.piece.chars with
    | nil => exact absurd hchars hne
    | cons c cs =>
      have hc : ¬ Text.isBlank c := by simpa [hchars] using hfront
      rw [cutBlank, List.takeWhile_cons_of_neg hc, List.dropWhile_cons_of_neg hc]
  have hread := Piece.read_chars (Item.reads_of_read? h) hname hending
  have hitem : Item.read? item.piece.chars = some (⟨[], item.piece⟩, []) := by
    refine Item.read?_eq_some_iff.2 ⟨hne, ?_, ?_⟩
    · rw [hcut]
    · rw [hcut, hread]
  rw [items_of_read? hitem, items_nil]

end Markup

end TemplateMarkup
