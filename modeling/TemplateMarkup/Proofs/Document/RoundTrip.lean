import TemplateMarkup.Proofs.Document.Reading
import TemplateMarkup.Proofs.Document.Tree
import TemplateMarkup.Proofs.Template.Appending

namespace TemplateMarkup

open Markup (Item Piece WrittenAttribute WrittenTag)
open Builder (Adds)

namespace Part

lemma faults_written (pos : Nat) (as : List (Text × Text)) :
    WrittenAttribute.faults pos (as.map written) = [] := by
  induction as generalizing pos with
  | nil => rfl
  | cons a as ih =>
    rw [List.map_cons, WrittenAttribute.faults, ih]
    rfl

lemma areAttributes_placeAll (owner id pos : Nat) (as : List (Text × Text)) :
    AreAttributes as (WrittenAttribute.placeAll owner id pos (as.map written)) := by
  induction as generalizing id pos with
  | nil => rfl
  | cons a as ih =>
    rw [List.map_cons, WrittenAttribute.placeAll]
    exact congrArg _ (ih _ _)

lemma chars_opening (name : Text) (as : List (Text × Text)) :
    (Piece.tag (opening name as)).chars = printOpening name as := by
  have hwritten : (as.map written).flatMap WrittenAttribute.chars = as.flatMap printAttribute := by
    rw [List.flatMap_map]
    refine List.flatMap_congr fun a _ => ?_
    simp [WrittenAttribute.chars, written, Markup.Assignment.chars, Markup.WrittenValue.chars,
      Text.Enclosed.chars, printAttribute]
  simp [Piece.chars, WrittenTag.chars, opening, hwritten, printOpening, Markup.Ending.chars]

lemma kind_opening (id start : Nat) (name : Text) (as : List (Text × Text)) :
    ∃ attributes, AreAttributes as attributes ∧ (Piece.tag (opening name as)).kind id start =
      if Markup.isVoid name then .selfClosingTag name attributes
      else .startTag name attributes :=
  ⟨_, areAttributes_placeAll _ _ _ as, rfl⟩

lemma faults_opening (start : Nat) (name : Text) (as : List (Text × Text)) :
    (Piece.tag (opening name as)).faults start = [] := by
  rw [Piece.faults, WrittenTag.faults, opening, faults_written]
  rfl

lemma chars_closing (name : Text) : (Piece.endTag ⟨name, true⟩).chars = printClosing name := by
  simp [Piece.chars, Text.Enclosed.chars, printClosing]

variable {source : Text}

lemma adds_element {name : Text} {as : List (Text × Text)} {content : List Part}
    (hs : Text.size source < Word.bound) (hvoid : Markup.isVoid name = false)
    (h : Adds source (printAll content) (itemsAll content) (AreNodes source content)) :
    Adds source (element name as content).print (element name as content).items
      fun ns => ∃ n, IsNode source (element name as content) n ∧ ns = [n] := by
  have hkind (id start : Nat) : ∃ attributes, AreAttributes as attributes ∧
      (Piece.tag (opening name as)).kind id start = .startTag name attributes := by
    obtain ⟨attributes, has, hk⟩ := kind_opening id start name as
    rw [if_neg (by simp [hvoid])] at hk
    exact ⟨attributes, has, hk⟩
  have hadds := Adds.enclose hs rfl
    (fun id start => (hkind id start).imp fun _ hk => hk.2) (faults_opening · name as) h
  rw [chars_opening, chars_closing] at hadds
  refine hadds.imp ?_
  rintro _ ⟨head, last, inner, hhead, hlast, hinner, rfl⟩
  obtain ⟨id, start, hk⟩ := hhead.kind
  obtain ⟨attributes, has, hk'⟩ := hkind id start
  obtain ⟨_, _, hend⟩ := hlast.kind
  refine ⟨_, ⟨⟨attributes, hk.trans hk', has⟩, ?_, inner, _, rfl, hinner, hend, ?_, rfl⟩, rfl⟩
  · exact hhead.slice.trans (chars_opening name as)
  · exact hlast.slice.trans (chars_closing name)

lemma adds_void {name : Text} {as : List (Text × Text)} (hs : Text.size source < Word.bound)
    (hvoid : Markup.isVoid name) : Adds source (void name as).print (void name as).items
      fun ns => ∃ n, IsNode source (void name as) n ∧ ns = [n] := by
  have hkind (id start : Nat) : ∃ attributes, AreAttributes as attributes ∧
      (Piece.tag (opening name as)).kind id start = .selfClosingTag name attributes := by
    obtain ⟨attributes, has, hk⟩ := kind_opening id start name as
    rw [if_pos hvoid] at hk
    exact ⟨attributes, has, hk⟩
  have hnot {id start : Nat} {kind : NodeKind}
      (h : ∀ attributes, NodeKind.selfClosingTag name attributes ≠ kind) :
      (Piece.tag (opening name as)).kind id start ≠ kind := by
    obtain ⟨attributes, -, hk⟩ := hkind id start
    rw [hk]
    exact h attributes
  have hadds := Adds.leaf hs rfl (fun _ _ _ _ => hnot (by simp)) (fun _ _ _ => hnot (by simp))
    (faults_opening · name as)
  rw [chars_opening] at hadds
  refine hadds.imp ?_
  rintro _ ⟨head, hhead, rfl⟩
  obtain ⟨id, start, hk⟩ := hhead.kind
  obtain ⟨attributes, has, hk'⟩ := hkind id start
  exact ⟨_, ⟨⟨attributes, hk.trans hk', has⟩, hhead.slice.trans (chars_opening name as), rfl⟩, rfl⟩

mutual

lemma adds_items (hs : Text.size source < Word.bound) : ∀ p : Part, p.WellFormed →
    Adds source p.print p.items fun ns => ∃ n, IsNode source p n ∧ ns = [n]
  | element name as content, h => adds_element hs h.2.1 (adds_itemsAll hs content h.2.2.2)
  | void name as, h => adds_void hs h.2.1
  | comment body, _ => by
    refine (@Adds.leaf (.comment ⟨body, true⟩) source hs rfl ?_ ?_ fun _ => rfl).imp ?_
    · exact fun _ _ _ _ hk => by cases hk
    · exact fun _ _ _ hk => by cases hk
    · rintro _ ⟨head, ⟨⟨_, _, hk⟩, hslice⟩, rfl⟩
      exact ⟨_, ⟨hk, hslice, rfl⟩, rfl⟩
  | interpolation body, _ => by
    refine (@Adds.leaf (.interpolation ⟨body, true⟩) source hs rfl ?_ ?_ fun _ => rfl).imp ?_
    · exact fun _ _ _ _ hk => by cases hk
    · exact fun _ _ _ hk => by cases hk
    · rintro _ ⟨head, ⟨⟨_, _, hk⟩, hslice⟩, rfl⟩
      exact ⟨_, ⟨hk, hslice, rfl⟩, rfl⟩
  | text chars, _ => by
    refine (@Adds.leaf (.text chars) source hs rfl ?_ ?_ fun _ => rfl).imp ?_
    · exact fun _ _ _ _ hk => by cases hk
    · exact fun _ _ _ hk => by cases hk
    · rintro _ ⟨head, ⟨⟨_, _, hk⟩, hslice⟩, rfl⟩
      exact ⟨_, ⟨hk, hslice, rfl⟩, rfl⟩

lemma adds_itemsAll (hs : Text.size source < Word.bound) : ∀ ps : List Part, AllWellFormed ps →
    Adds source (printAll ps) (itemsAll ps) (AreNodes source ps)
  | [], _ => Adds.nil rfl
  | p :: ps, h => by
    refine ((adds_items hs p h.1).append (adds_itemsAll hs ps h.2.2)).imp ?_
    rintro _ ⟨_, rest, rfl, ⟨n, hn, rfl⟩, hrest⟩
    exact ⟨n, rest, rfl, hn, hrest⟩

end

end Part

/-- A document that is printed in fewer than 2^32 bytes is parsed without a fault, the nodes below the root
are its parts, and the document read off the tree is the one that was printed. -/
theorem parse_print (d : Document) (hs : Text.size d.print < Word.bound) :
    (parse d.print).faults = [] ∧
    Part.AreNodes d.print d.parts (parse d.print).root.children ∧
    (parse d.print).parts = d.parts := by
  have hitems : Markup.items d.print = Part.itemsAll d.parts := by
    have h := Part.items_printAll [] d.parts d.wellFormed (Or.inl rfl)
    rwa [List.append_nil, Markup.items_nil, List.append_nil] at h
  obtain ⟨ns, id, hns, hfold⟩ := Part.adds_itemsAll hs d.parts d.wellFormed Builder.start [] []
    (List.append_nil _).symm rfl
  have hbuilt : built d.print = (Builder.start.appendAll ns).moved
      (Builder.start.offset + Text.size (Part.printAll d.parts)) id := by
    rw [built, hitems, hfold]
  have hopened : Builder.start.opened = [] := rfl
  rw [Builder.appendAll_of_nil hopened] at hbuilt
  have hroot : (parse d.print).root = ⟨rootHead, ns⟩ := by
    have htree : (parse d.print).root = (built d.print).tree := rfl
    rw [htree, hbuilt]
    simp [Builder.tree, Builder.start, Builder.moved, Frame.addAll, Frame.node]
  have hfaults : (parse d.print).faults = (built d.print).allFaults := rfl
  refine ⟨?_, ?_, ?_⟩
  · rw [hfaults, hbuilt]
    rfl
  · rw [hroot]
    exact hns
  · rw [Template.parts, hroot]
    exact Part.parts_of_areNodes ns d.parts hns

def Document.nested : Document where
  parts := [.element ['p'] [(['a'], ['<', '>'])] [.text ['t', '}'], .interpolation ['e', '{'],
    .void ['b', 'r'] [], .element ['p'] [] []], .comment ['-', '>', '-']]
  wellFormed := by
    simp [Part.AllWellFormed, Part.WellFormed, Part.IsName, Part.IsAttribute, Part.Precedes]
    decide

theorem parse_print_nested :
    Text.size Document.nested.print < Word.bound ∧
    (parse Document.nested.print).faults = [] ∧
    Part.AreNodes Document.nested.print Document.nested.parts
      (parse Document.nested.print).root.children ∧
    (parse Document.nested.print).parts = Document.nested.parts :=
  ⟨by decide, parse_print Document.nested (by decide)⟩

end TemplateMarkup
