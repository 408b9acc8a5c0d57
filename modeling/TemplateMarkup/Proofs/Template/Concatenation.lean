import TemplateMarkup.Proofs.Markup.Continuation
import TemplateMarkup.Proofs.Template.Counting
import TemplateMarkup.Proofs.Template.Grafting

namespace TemplateMarkup

open Markup (Item Stats)

def Head.IsOpenEnded (source : Text) (h : Head) : Prop :=
  h.kind = .text ∨ h.kind = .comment ∧ ¬ ['-', '-', '>'] <:+: (h.span.slice source).drop 4

instance (source : Text) (h : Head) : Decidable (h.IsOpenEnded source) :=
  inferInstanceAs (Decidable (_ ∨ _ ∧ ¬ _))

def Template.shift (t : Template) : Shift :=
  ⟨t.entries.length - 1, Text.size t.source⟩

lemma Placed.isOpenEnded_head {p : Placed} {source : Text} (h : p ∈ placed source)
    (hs : Text.size source < Word.bound) (hp : p.item.piece.IsOpenEnded) :
    p.head.IsOpenEnded source := by
  obtain ⟨rest, hin⟩ := placed_isIn h
  have hr := hin.reads
  have hslice := slice_span h hs
  have hkind : p.head.kind = p.item.piece.kind p.id p.start := rfl
  generalize p.item.piece.chars ++ rest = cs at hr
  cases hpiece : p.item.piece with
  | text chars =>
    left
    rw [hkind, hpiece]
    rfl
  | comment run =>
    right
    rw [hpiece] at hp hr hslice
    have hopen : run.closed = false := hp
    have hdrop : (Markup.Piece.comment run).chars.drop 4 = run.body := by
      simp [Markup.Piece.chars, Text.Enclosed.chars, hopen]
    rw [hkind, hpiece, hslice (by simp), hdrop]
    refine ⟨rfl, ?_⟩
    cases hr with
    | comment after => exact (Text.Enclosed.read_of_not_closed hopen).1
  | _ =>
    rw [hpiece] at hp
    exact hp.elim

variable {a b : Text}

lemma offset_built (source : Text) : (built source).offset = Text.size source := by
  have h : ∀ (cs : Text) (b : Builder),
      ((Markup.items cs).foldl Builder.add b).offset = b.offset + Text.size cs := by
    intro cs
    induction cs using Markup.items_induction with
    | nil => simp
    | cons cs item rest hr ih =>
      intro b
      rw [Markup.items_of_read? hr, List.foldl_cons, ih, (Builder.add_step b item).offset_eq,
        ← Item.chars_of_read? hr, Text.size_append, Nat.add_assoc]
  exact (h source Builder.start).trans (Nat.zero_add _)

lemma not_isOpenEnded_of_getLast? (hs : Text.size a < Word.bound)
    (hend : ∀ n ∈ (parse a).nodes.getLast?, ¬ n.head.IsOpenEnded a) {item : Item}
    (h : (Markup.items a).getLast? = some item) : ¬ item.piece.IsOpenEnded := by
  rw [← Builder.map_item_placed (Markup.items a) Builder.start, List.getLast?_map] at h
  obtain ⟨p, hp, rfl⟩ := Option.map_eq_some_iff.1 h
  have hlast := congrArg List.getLast? (parse_nodes_heads a)
  rw [List.getLast?_map, List.getLast?_cons, List.getLast?_map, show (placed a).getLast? = some p from hp]
    at hlast
  obtain ⟨n, hn, hhead⟩ := Option.map_eq_some_iff.1 hlast
  intro hopen
  apply hend n hn
  rw [hhead]
  exact Placed.isOpenEnded_head (List.mem_of_getLast? hp) hs hopen

lemma items_append_of_faultless (hs : Text.size a < Word.bound) (hfaults : (parse a).faults = [])
    (hend : ∀ n ∈ (parse a).nodes.getLast?, ¬ n.head.IsOpenEnded a) :
    Markup.items (a ++ b) = Markup.items a ++ Markup.items b := by
  apply Markup.items_append
  · intro item hitem
    rw [← Builder.map_item_placed (Markup.items a) Builder.start] at hitem
    obtain ⟨p, hp, rfl⟩ := List.mem_map.1 hitem
    rw [parse_faults] at hfaults
    have hplaced := List.flatMap_eq_nil_iff.1 (List.append_eq_nil_iff.1 hfaults).1 p hp
    exact ⟨p.start, (List.append_eq_nil_iff.1 hplaced).1⟩
  · exact fun item => not_isOpenEnded_of_getLast? hs hend

lemma built_closed (hfaults : (parse a).faults = []) :
    (built a).opened = [] ∧ (built a).faults = [] := by
  obtain ⟨hreverse, hmap⟩ := List.append_eq_nil_iff.1 hfaults
  exact ⟨List.map_eq_nil_iff.1 hmap, List.reverse_eq_nil_iff.1 hreverse⟩

lemma built_append (hs : Text.size a + Text.size b < Word.bound) (hfaults : (parse a).faults = [])
    (hend : ∀ n ∈ (parse a).nodes.getLast?, ¬ n.head.IsOpenEnded a) :
    built (a ++ b) = (built b).graft (built a).root.children (parse a).shift := by
  have hshift : (parse a).shift = ⟨(built a).nextId - 1, (built a).offset⟩ := by
    rw [Template.shift, length_entries, offset_built]
    rfl
  have hle := nextId_built_le a
  obtain ⟨hopened, hbuilt⟩ := built_closed hfaults
  have hstart := Builder.eq_graft_start hopened hbuilt (built_framed a).root_head
    (nextId_built_pos a)
  have hids : (parse a).shift.ids ≤ (parse a).shift.bytes := by
    rw [hshift, offset_built]
    exact Nat.sub_le_of_le_add hle
  calc built (a ++ b)
      = (Markup.items b).foldl Builder.add (built a) := by
        rw [built, items_append_of_faultless (by omega) hfaults hend, List.foldl_append]
        rfl
    _ = (Markup.items b).foldl Builder.add
          (Builder.start.graft (built a).root.children (parse a).shift) := by rw [hshift, ← hstart]
    _ = (built b).graft (built a).root.children (parse a).shift :=
        Builder.graft_foldl hids b Builder.start Builder.framed_start Nat.one_pos (Nat.le_refl _) (by
          show 0 + Text.size b + Text.size a < Word.bound
          omega)

/-- Behind a text that leaves nothing open, a text is parsed as it is alone, moved to its place. -/
theorem parse_append (a b : Text) (hs : Text.size a + Text.size b < Word.bound)
    (hfaults : (parse a).faults = [])
    (hend : ∀ n ∈ (parse a).nodes.getLast?, ¬ n.head.IsOpenEnded a) :
    (parse (a ++ b)).root = ⟨(parse a).root.head,
      (parse a).root.children ++ (parse b).root.children.map (parse a).shift.node⟩ ∧
    (parse (a ++ b)).entries = .node (parse (a ++ b)).root ::
      ((parse a).entries.tail ++ (parse b).entries.tail.map (parse a).shift.entry) ∧
    (parse (a ++ b)).faults = (parse b).faults.map (parse a).shift.fault ∧
    (parse (a ++ b)).stats = (parse a).stats.add (parse b).stats := by
  have hbuilt := built_append hs hfaults hend
  have hroot : (parse (a ++ b)).root = ⟨(parse a).root.head,
      (parse a).root.children ++ (parse b).root.children.map (parse a).shift.node⟩ := by
    have hfront : (parse a).root.children = (built a).root.children.reverse := by
      show (built a).tree.children = _
      rw [Builder.tree_eq, (built_closed hfaults).1]
      rfl
    have htree : (parse (a ++ b)).root = (built (a ++ b)).tree := rfl
    rw [htree, hbuilt, Builder.graft_tree, hfront, parse_root_head, (built_framed b).root_head]
    rfl
  refine ⟨hroot, ?_, ?_, ?_⟩
  · rw [entries_parse (a ++ b), entries_parse a, entries_parse b, hroot, List.tail_cons,
      List.tail_cons, Node.preorders_append, List.flatMap_append, Shift.entries_preorders]
  · show (built (a ++ b)).allFaults = _
    rw [hbuilt, Builder.graft_allFaults]
    rfl
  · show Stats.ofItems (Markup.items (a ++ b)) = _
    rw [items_append_of_faultless (by omega) hfaults hend, Stats.ofItems_append]
    rfl

theorem parse_append_unclosed :
    Text.size ['<', 'b', ' ', 'é', '=', '1', '>', '<', '/', 'b', '>'] +
      Text.size [' ', '<', 'i', '>', 'x'] < Word.bound ∧
    (parse ['<', 'b', ' ', 'é', '=', '1', '>', '<', '/', 'b', '>']).faults = [] ∧
    (∀ n ∈ (parse ['<', 'b', ' ', 'é', '=', '1', '>', '<', '/', 'b', '>']).nodes.getLast?,
      ¬ n.head.IsOpenEnded ['<', 'b', ' ', 'é', '=', '1', '>', '<', '/', 'b', '>']) ∧
    (parse [' ', '<', 'i', '>', 'x']).faults = [⟨.unmatchedOpeningTag, ⟨1, 4⟩⟩] ∧
    (parse (['<', 'b', ' ', 'é', '=', '1', '>', '<', '/', 'b', '>'] ++
      [' ', '<', 'i', '>', 'x'])).faults = [⟨.unmatchedOpeningTag, ⟨13, 16⟩⟩] ∧
    (parse (['<', 'b', ' ', 'é', '=', '1', '>', '<', '/', 'b', '>'] ++
      [' ', '<', 'i', '>', 'x'])).stats =
        (parse ['<', 'b', ' ', 'é', '=', '1', '>', '<', '/', 'b', '>']).stats.add
          (parse [' ', '<', 'i', '>', 'x']).stats := by
  have hend : ∀ n ∈ (parse ['<', 'b', ' ', 'é', '=', '1', '>', '<', '/', 'b', '>']).nodes.getLast?,
      ¬ n.head.IsOpenEnded ['<', 'b', ' ', 'é', '=', '1', '>', '<', '/', 'b', '>'] := by
    decide +kernel
  have h := parse_append _ [' ', '<', 'i', '>', 'x'] (by decide) (by decide +kernel) hend
  refine ⟨by decide, by decide +kernel, hend, by decide +kernel, ?_, h.2.2.2⟩
  rw [h.2.2.1]
  decide +kernel

end TemplateMarkup
