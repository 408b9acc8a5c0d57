import TemplateMarkup.Proofs.Template.Concatenation

namespace TemplateMarkup

open Markup (Item WrittenAttribute items)

/-- What a parse of a source has built and what is still ahead of it, after a number of turns. -/
inductive Reaches (source : Text) : Nat → Builder → Text → Prop
  | start : Reaches source 0 Builder.start source
  | turn {turns : Nat} {b : Builder} {ahead rest : Text} {item : Item} :
      Reaches source turns b ahead → Item.read? ahead = some (item, rest) →
      Reaches source (turns + 1) (b.add item) rest

namespace Reaches

variable {source ahead rest : Text} {turns : Nat} {b : Builder} {item : Item}

/-- Turns and ids are paid for with bytes, and what is ahead completes what was built. -/
structure Sound (source : Text) (turns : Nat) (b : Builder) (ahead : Text) : Prop where
  offset_add : b.offset + Text.size ahead = Text.size source
  turns_le : turns ≤ b.offset
  nextId_le : b.nextId ≤ b.offset + 1
  built_eq : (items ahead).foldl Builder.add b = built source
  turns_add : turns + (items ahead).length = (items source).length

lemma sound_start (source : Text) : Sound source 0 Builder.start source :=
  ⟨Nat.zero_add _, Nat.le_refl 0, Nat.le_refl 1, rfl, Nat.zero_add _⟩

lemma offset_lt (b : Builder) (h : Item.read? ahead = some (item, rest)) :
    b.offset + item.piece.attributeCount < (b.add item).offset := by
  have hcount := Item.attributeCount_lt_of_read? h
  rw [(Builder.add_step b item).offset_eq]
  omega

lemma Sound.turn (hb : Sound source turns b ahead) (h : Item.read? ahead = some (item, rest)) :
    Sound source (turns + 1) (b.add item) rest := by
  obtain ⟨hoffset, hturns, hid, hbuilt, hcount⟩ := hb
  have hlt := offset_lt b h
  have hsize := congrArg Text.size (Item.chars_of_read? h)
  have hnext := (Builder.add_step b item).nextId_eq
  rw [Text.size_append] at hsize
  rw [Markup.items_of_read? h] at hbuilt hcount
  refine ⟨?_, by omega, by omega, hbuilt, ?_⟩
  · rw [(Builder.add_step b item).offset_eq]
    omega
  · rw [List.length_cons] at hcount
    omega

lemma sound (h : Reaches source turns b ahead) : Sound source turns b ahead := by
  induction h with
  | start => exact sound_start source
  | turn _ hr ih => exact ih.turn hr

lemma finish (h : Reaches source turns b ahead) :
    Reaches source (turns + (items ahead).length) ((items ahead).foldl Builder.add b) [] := by
  induction ahead using Markup.items_induction generalizing turns b with
  | nil =>
    rw [Markup.items_nil]
    exact h
  | cons ahead item rest hr ih =>
    rw [Markup.items_of_read? hr, List.length_cons, List.foldl_cons, Nat.add_comm _ 1, ← Nat.add_assoc]
    exact ih (h.turn hr)

end Reaches

lemma Markup.WrittenAttribute.size_lt_of_read? {cs rest : Text} {a : WrittenAttribute}
    (h : WrittenAttribute.read? cs = some (a, rest)) : Text.size rest < Text.size cs := by
  have hname := mt Text.size_eq_zero_iff.1 (WrittenAttribute.name_ne_nil_of_read? h)
  have hsize := congrArg Text.size (WrittenAttribute.chars_of_read? h)
  simp only [WrittenAttribute.chars, Text.size_append] at hsize
  omega

lemma length_content (source : Text) : (parse source).content.length = (items source).length := by
  have hlength := congrArg List.length (content_heads source)
  have hitems := congrArg List.length (Builder.map_item_placed (items source) Builder.start)
  rw [List.length_map, List.length_map] at hlength
  rw [List.length_map] at hitems
  exact hlength.trans hitems

/-- Every turn moves on, and so does every attribute that is read. The turns end behind the source, there
are no more of them than bytes, and every id is the number of entries that there were before it. -/
theorem parse_progress (source : Text) (hs : Text.size source < Word.bound) :
    (∀ turns b ahead, Reaches source turns b ahead →
      b.offset + Text.size ahead = Text.size source ∧ turns ≤ Text.size source ∧
      (Item.read? ahead = none → ahead = [] ∧ b.offset = Text.size source ∧
        b.tree = (parse source).root ∧ b.allFaults = (parse source).faults ∧
        turns = (parse source).content.length) ∧
      ∀ item rest, Item.read? ahead = some (item, rest) →
        b.offset < (b.add item).offset ∧
        (b.add item).offset + Text.size rest = Text.size source ∧
        ∀ i ≤ item.piece.attributeCount, Word.wrap (b.nextId + i) = b.nextId + i) ∧
    (∀ cs a rest, WrittenAttribute.read? cs = some (a, rest) →
      a.chars ++ rest = cs ∧ Text.size rest < Text.size cs) ∧
    Reaches source (parse source).content.length (built source) [] ∧
    (parse source).content.length ≤ Text.size source ∧
    (parse source).entries.length ≤ Text.size source + 1 ∧
    (parse source).entries.map Entry.id = List.range (parse source).entries.length := by
  have hfinish : Reaches source (parse source).content.length (built source) [] := by
    have hend := (@Reaches.start source).finish
    rwa [Nat.zero_add, ← length_content] at hend
  refine ⟨fun turns b ahead h => ?_, fun cs a rest h => ?_, hfinish, ?_, ?_, ?_⟩
  · have hsound := h.sound
    have hoffset := hsound.offset_add
    have hturns := hsound.turns_le
    refine ⟨hoffset, by omega, fun hnone => ?_, fun item rest hr => ?_⟩
    · obtain rfl := Item.read?_eq_none_iff.1 hnone
      obtain rfl : b = built source := by
        have hbuilt := hsound.built_eq
        rwa [Markup.items_nil] at hbuilt
      have hcount := hsound.turns_add
      rw [Markup.items_nil, ← length_content] at hcount
      exact ⟨rfl, offset_built source, rfl, rfl, hcount⟩
    · have hlt := Reaches.offset_lt b hr
      have hnext := (h.turn hr).sound.offset_add
      have hid := hsound.nextId_le
      exact ⟨by omega, hnext, fun i hi => Word.wrap_of_lt (by omega)⟩
  · exact ⟨WrittenAttribute.chars_of_read? h, WrittenAttribute.size_lt_of_read? h⟩
  · have hturns := hfinish.sound.turns_le
    rwa [offset_built] at hturns
  · rw [length_entries]
    exact nextId_built_le source
  · exact (map_id_entries source).trans (ids_eq_range hs)

theorem parse_progress_trailing_blank :
    Text.size ['<', 'a', ' ', 'b', '>', ' '] < Word.bound ∧
    (parse ['<', 'a', ' ', 'b', '>', ' ']).entries.length = 4 ∧
    Reaches ['<', 'a', ' ', 'b', '>', ' '] (parse ['<', 'a', ' ', 'b', '>', ' ']).content.length
      (built ['<', 'a', ' ', 'b', '>', ' ']) [] ∧
    (parse ['<', 'a', ' ', 'b', '>', ' ']).content.length ≤ Text.size ['<', 'a', ' ', 'b', '>', ' '] :=
  have hprogress := parse_progress ['<', 'a', ' ', 'b', '>', ' '] (by decide)
  ⟨by decide, by decide +kernel, hprogress.2.2.1, hprogress.2.2.2.1⟩

end TemplateMarkup
