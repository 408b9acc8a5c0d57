import Mathlib.Data.List.Nodup
import TemplateMarkup.Project.FileTree
import TemplateMarkup.Proofs.Project.Paths
import TemplateMarkup.Proofs.Text.Bytes

/-! The files of a tree are listed once each, by the bytes of the names that lead to them, and they stand where
the names lead below the path of the tree. -/

namespace TemplateMarkup.Project

namespace FileTree

inductive WellFormed : FileTree → Prop
  | file (bytes : ByteArray) : WellFormed (file bytes)
  | directory {entries : List (Text × FileTree)} (names : ∀ e ∈ entries, IsName e.1)
      (distinct : (entries.map Prod.fst).Nodup) (inner : ∀ e ∈ entries, WellFormed e.2) :
      WellFormed (directory entries)

inductive HasFile (bytes : ByteArray) : FileTree → List Text → Prop
  | here : HasFile bytes (file bytes) []
  | entry {entries : List (Text × FileTree)} {name : Text} {t : FileTree} {names : List Text}
      (h : (name, t) ∈ entries) (inner : HasFile bytes t names) :
      HasFile bytes (directory entries) (name :: names)

variable {bytes : ByteArray} {entries : List (Text × FileTree)} {name : Text} {names : List Text}
  {t top here : FileTree} {above : List FileTree}

lemma HasFile.ne_nil (h : (FileTree.directory entries).HasFile bytes names) : names ≠ [] := by
  cases h with
  | entry hentry inner => exact List.cons_ne_nil _ _

lemma filesOf_eq_map : (entries : List (Text × FileTree)) →
    filesOf entries = entries.map fun e => (e.1, e.2.files)
  | [] => rfl
  | (name, t) :: others => by rw [filesOf, filesOf_eq_map others, List.map_cons]

lemma mem_files_directory_iff : (names, bytes) ∈ (directory entries).files ↔
    ∃ name t rest, (name, t) ∈ entries ∧ names = name :: rest ∧ (rest, bytes) ∈ t.files := by
  rw [files, filesOf_eq_map, List.mem_flatMap]
  constructor
  · rintro ⟨_, hblock, hfile⟩
    obtain ⟨⟨name, t⟩, hentry, rfl⟩ := List.mem_map.1 (List.mem_mergeSort.1 hblock)
    obtain ⟨⟨rest, _⟩, hrest, heq⟩ := List.mem_map.1 hfile
    obtain ⟨rfl, rfl⟩ := Prod.mk.inj heq
    exact ⟨name, t, rest, hentry, rfl, hrest⟩
  · rintro ⟨name, t, rest, hentry, rfl, hrest⟩
    refine ⟨(name, t.files), List.mem_mergeSort.2 ?_, ?_⟩
    · exact List.mem_map.2 ⟨(name, t), hentry, rfl⟩
    · exact List.mem_map.2 ⟨(rest, bytes), hrest, rfl⟩

lemma mem_files_iff : (names, bytes) ∈ t.files ↔ t.HasFile bytes names := by
  constructor
  · intro h
    induction names generalizing t with
    | nil =>
      cases t with
      | file bytes' =>
        rw [files, List.mem_singleton, Prod.mk.injEq] at h
        exact h.2 ▸ .here
      | directory entries =>
        obtain ⟨_, _, _, -, hnil, -⟩ := mem_files_directory_iff.1 h
        cases hnil
    | cons name names ih =>
      cases t with
      | file bytes' => simp [files] at h
      | directory entries =>
        obtain ⟨_, t, _, hentry, heq, hrest⟩ := mem_files_directory_iff.1 h
        obtain ⟨rfl, rfl⟩ := List.cons.inj heq
        exact .entry hentry (ih hrest)
  · intro h
    induction h with
    | here => simp [files]
    | entry hentry inner ih => exact mem_files_directory_iff.2 ⟨_, _, _, hentry, rfl, ih⟩

lemma filesOf_sorted (h : (entries.map Prod.fst).Nodup) :
    ((filesOf entries).mergeSort fun a b => Path.nameLe a.1 b.1).Pairwise
      fun a b => Text.bytes a.1 < Text.bytes b.1 := by
  have hle : ((filesOf entries).mergeSort fun a b => Path.nameLe a.1 b.1).Pairwise
      fun a b => Path.nameLe a.1 b.1 = true := by
    apply List.pairwise_mergeSort
    · intro a b c hab hbc
      exact decide_eq_true (List.le_trans (of_decide_eq_true hab) (of_decide_eq_true hbc))
    · intro a b
      rw [Path.nameLe, Path.nameLe, Bool.or_eq_true, decide_eq_true_eq, decide_eq_true_eq]
      exact List.le_total _ _
  have hperm := (filesOf entries).mergeSort_perm fun a b => Path.nameLe a.1 b.1
  have hdistinct : (((filesOf entries).mergeSort fun a b => Path.nameLe a.1 b.1).map Prod.fst).Nodup := by
    rw [(hperm.map Prod.fst).nodup_iff, filesOf_eq_map, List.map_map]
    exact h
  refine hle.imp₂ (fun a b hab hne => ?_) (List.pairwise_map.1 hdistinct)
  exact Std.lt_of_le_of_ne (of_decide_eq_true hab) fun heq => hne (Text.bytes_injective heq)

lemma WellFormed.files_sorted (h : t.WellFormed) :
    t.files.Pairwise fun a b => a.1.map Text.bytes < b.1.map Text.bytes := by
  induction h with
  | file bytes =>
    rw [files]
    exact List.pairwise_singleton _ _
  | @directory entries names distinct inner ih =>
    rw [files]
    -- Files below one entry share its name, and between two entries the names decide.
    apply List.pairwise_flatMap.2
    constructor
    · intro block hblock
      rw [List.mem_mergeSort, filesOf_eq_map] at hblock
      obtain ⟨e, he, rfl⟩ := List.mem_map.1 hblock
      rw [List.pairwise_map]
      exact (ih e he).imp fun hlt => List.cons_lt_cons_iff.2 (Or.inr ⟨rfl, hlt⟩)
    · apply (filesOf_sorted distinct).imp
      intro a b hab f hf g hg
      obtain ⟨f, -, rfl⟩ := List.mem_map.1 hf
      obtain ⟨g, -, rfl⟩ := List.mem_map.1 hg
      exact List.cons_lt_cons_iff.2 (Or.inl hab)

lemma WellFormed.isName (h : t.WellFormed) (hf : t.HasFile bytes names) : ∀ name ∈ names, IsName name := by
  induction hf with
  | here => exact List.forall_mem_nil _
  | entry hentry inner ih =>
    cases h with
    | directory hnames distinct hinner =>
      exact List.forall_mem_cons.2 ⟨hnames _ hentry, ih (hinner _ hentry)⟩

lemma WellFormed.components_ofNames (h : t.WellFormed) (hf : t.HasFile bytes names) (hne : names ≠ []) :
    Path.components (Path.ofNames names) = names :=
  Path.components_ofNames (fun name hname => (h.isName hf name hname).slash_not_mem) hne

lemma lookup_of_mem (h : (entries.map Prod.fst).Nodup) (hentry : (name, t) ∈ entries) :
    entry? (directory entries) name = some t := by
  obtain ⟨before, after, rfl⟩ := List.append_of_mem hentry
  rw [List.map_append, List.map_cons, List.nodup_middle, List.nodup_cons] at h
  refine List.lookup_eq_some_iff.2 ⟨before, after, rfl, fun p hp => bne_iff_ne.2 ?_⟩
  rintro rfl
  exact h.1 (List.mem_append_left _ (List.mem_map.2 ⟨p, hp, rfl⟩))

lemma exists_mem_of_lookup (h : entry? here name = some t) :
    ∃ entries, here = directory entries ∧ (name, t) ∈ entries := by
  cases here with
  | file bytes => cases h
  | directory entries =>
    obtain ⟨before, after, rfl, -⟩ := List.lookup_eq_some_iff.1 h
    exact ⟨_, rfl, List.mem_append_right _ List.mem_cons_self⟩

lemma wellFormed_empty : empty.WellFormed :=
  .directory (List.forall_mem_nil _) List.nodup_nil (List.forall_mem_nil _)

lemma WellFormed.lookup (h : (FileTree.directory entries).WellFormed) (name : Text) :
    ((entries.lookup name).getD empty).WellFormed := by
  cases hlookup : entries.lookup name with
  | none => exact wellFormed_empty
  | some t =>
    obtain ⟨before, after, rfl, -⟩ := List.lookup_eq_some_iff.1 hlookup
    cases h with
    | directory hnames hdistinct hinner =>
      exact hinner (name, t) (List.mem_append_right _ List.mem_cons_self)

lemma WellFormed.replace (h : (FileTree.directory entries).WellFormed) (hname : IsName name)
    (ht : t.WellFormed) :
    (FileTree.directory (entries.filter (·.1 != name) ++ [(name, t)])).WellFormed := by
  cases h with
  | directory hnames hdistinct hinner =>
    have hkept {p : Text × FileTree → Prop} (hp : ∀ e ∈ entries, p e) :
        ∀ e ∈ entries.filter (·.1 != name), p e := fun e he => hp e (List.mem_of_mem_filter he)
    constructor
    · exact List.forall_mem_append.2 ⟨hkept hnames, List.forall_mem_singleton.2 hname⟩
    · rw [List.map_append, List.map_singleton, ← List.concat_eq_append, List.nodup_concat]
      refine ⟨fun hmem => ?_, hdistinct.sublist (List.filter_sublist.map Prod.fst)⟩
      obtain ⟨e, he, heq⟩ := List.mem_map.1 hmem
      exact bne_iff_ne.1 (List.mem_filter.1 he).2 heq
    · exact List.forall_mem_append.2 ⟨hkept hinner, List.forall_mem_singleton.2 ht⟩

lemma WellFormed.put {content : FileTree} (h : t.WellFormed) (names : List Text)
    (hnames : ∀ name ∈ names, IsName name) (hcontent : content.WellFormed) :
    (t.put names content).WellFormed := by
  induction names generalizing t with
  | nil => exact hcontent
  | cons name names ih =>
    obtain ⟨hname, hrest⟩ := List.forall_mem_cons.1 hnames
    cases t with
    | file bytes => exact wellFormed_empty.replace hname (ih wellFormed_empty hrest)
    | directory entries => exact h.replace hname (ih (h.lookup name) hrest)

def step (above : List FileTree) (here : FileTree) (name : Text) : Option (List FileTree × FileTree) :=
  if !here.isDirectory then none
  else if name.isEmpty || name = ['.'] then some (above, here)
  else if name = ['.', '.'] then above.head?.map fun parent => (above.tail, parent)
  else Option.map (fun next => (here :: above, next)) <| entry? here name

lemma follow_cons (above : List FileTree) (here : FileTree) (name : Text) (names : List Text) :
    follow above here (name :: names) =
      (step above here name).bind fun found => follow found.1 found.2 names := by
  rw [follow.eq_def, step]
  dsimp only
  split_ifs with hfile hskip habove
  · rfl
  · rfl
  · cases above <;> rfl
  · cases entry? here name <;> rfl

lemma step_of_mem (hname : IsName name) (hdistinct : (entries.map Prod.fst).Nodup)
    (hentry : (name, t) ∈ entries) :
    step above (directory entries) name = some (directory entries :: above, t) := by
  have hskip : ¬ (name.isEmpty || name = ['.']) := by
    simp [hname.ne_nil, hname.ne_here]
  rw [step, if_neg hskip, if_neg hname.ne_above, lookup_of_mem hdistinct hentry]
  rfl

lemma WellFormed.of_step {found : List FileTree × FileTree} (hhere : here.WellFormed)
    (habove : ∀ t ∈ above, t.WellFormed) (h : step above here name = some found) :
    found.2.WellFormed ∧ ∀ t ∈ found.1, t.WellFormed := by
  rw [step] at h
  split_ifs at h
  · obtain rfl := Option.some.inj h
    exact ⟨hhere, habove⟩
  · cases above with
    | nil => cases h
    | cons parent further =>
      obtain rfl := Option.some.inj h
      exact List.forall_mem_cons.1 habove
  · obtain ⟨t, hentry, rfl⟩ := Option.map_eq_some_iff.1 h
    obtain ⟨entries, rfl, hmem⟩ := exists_mem_of_lookup hentry
    refine ⟨?_, List.forall_mem_cons.2 ⟨hhere, habove⟩⟩
    cases hhere with
    | directory hnames hdistinct hinner => exact hinner _ hmem

lemma WellFormed.of_follow (hhere : here.WellFormed) (habove : ∀ t ∈ above, t.WellFormed)
    (h : follow above here names = some t) : t.WellFormed := by
  induction names generalizing above here with
  | nil =>
    obtain rfl := Option.some.inj h
    exact hhere
  | cons name names ih =>
    rw [follow_cons] at h
    obtain ⟨found, hstep, h⟩ := Option.bind_eq_some_iff.1 h
    obtain ⟨hhere, habove⟩ := hhere.of_step habove hstep
    exact ih hhere habove h

lemma exists_follow_append (h : follow above here names = some t) :
    ∃ above', ∀ more, follow above here (names ++ more) = follow above' t more := by
  induction names generalizing above here with
  | nil =>
    obtain rfl := Option.some.inj h
    exact ⟨above, fun more => rfl⟩
  | cons name names ih =>
    rw [follow_cons] at h
    obtain ⟨found, hstep, h⟩ := Option.bind_eq_some_iff.1 h
    obtain ⟨above', habove⟩ := ih h
    refine ⟨above', fun more => ?_⟩
    rw [List.cons_append, follow_cons, hstep]
    exact habove more

lemma follow_append_nil_cons (first : List Text) {more : List Text} (h : more ≠ []) :
    follow above here (first ++ [] :: more) = follow above here (first ++ more) := by
  induction first generalizing above here with
  | nil =>
    obtain ⟨name, names, rfl⟩ := List.exists_cons_of_ne_nil h
    rw [List.nil_append, List.nil_append, follow_cons above here []]
    cases hfile : here.isDirectory with
    | false => simp [follow_cons, step, hfile]
    | true => simp [step, hfile]
  | cons name first ih => simp only [List.cons_append, follow_cons, ih]

lemma WellFormed.follow_of_hasFile (h : t.WellFormed) (hf : t.HasFile bytes names)
    (above : List FileTree) : follow above t names = some (.file bytes) := by
  induction hf generalizing above with
  | here => rfl
  | entry hentry inner ih =>
    cases h with
    | directory hnames hdistinct hinner =>
      rw [follow_cons, step_of_mem (hnames _ hentry) hdistinct hentry]
      exact ih (hinner _ hentry) _

lemma follow_of_find? {root : Text} (h : top.find? root = some t) :
    follow [] top (Path.components root) = some t := by
  rw [find?] at h
  split_ifs at h
  exact h

lemma find?_append {root : Text} (h : top.find? root = some t) (more : Text) :
    top.find? (root ++ more) = follow [] top (Path.components (root ++ more)) := by
  cases root with
  | nil => cases h
  | cons c root =>
    rw [find?] at h ⊢
    split_ifs at h with hc
    exact if_neg hc

lemma WellFormed.find?_join {root : Text} (h : top.WellFormed) (hroot : top.find? root = some t)
    (hf : t.HasFile bytes names) (hne : names ≠ []) :
    top.find? (Path.join root (Path.ofNames names)) = some (.file bytes) := by
  have hfollow := follow_of_find? hroot
  have ht : t.WellFormed := h.of_follow (List.forall_mem_nil _) hfollow
  have hnames := ht.components_ofNames hf hne
  obtain ⟨above, hmore⟩ := exists_follow_append hfollow
  rw [← ht.follow_of_hasFile hf above, ← hmore, Path.join]
  -- A path that ends in a slash has an empty name at its end, which the longer path does not have.
  split
  · rename_i hslash
    have hempty : root ≠ [] := fun hempty => by simp [hempty, find?] at hroot
    have hslash : root.getLast? = some '/' := by simpa [hempty] using hslash
    obtain ⟨front, rfl⟩ := List.getLast?_eq_some_iff.1 hslash
    have hempty : Path.components (front ++ ['/']) = Path.components front ++ [[]] :=
      Path.components_append_slash front []
    rw [find?_append hroot, hempty, List.append_assoc, List.append_assoc, List.singleton_append,
      List.singleton_append, Path.components_append_slash, hnames, follow_append_nil_cons _ hne]
  · rw [find?_append hroot, Path.components_append_slash, hnames]

end FileTree

end TemplateMarkup.Project
