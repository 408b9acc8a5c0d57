import TemplateMarkup.Project.Discovery
import TemplateMarkup.Proofs.Project.FileTrees

namespace TemplateMarkup.Project

def Path.Precedes (a b : Text) : Prop :=
  (a.splitOn '/').map Text.bytes < (b.splitOn '/').map Text.bytes

variable {top t : FileTree} {entries : List (Text × FileTree)} {root suffix : Text}
  {ignored : Glob.IgnoreSet} {names : List Text} {bytes : ByteArray} {file : TemplateFile}

lemma FileTree.WellFormed.splitOn_ofNames (h : (FileTree.directory entries).WellFormed)
    (hf : (FileTree.directory entries).HasFile bytes names) :
    (Path.ofNames names).splitOn '/' = names := by
  rw [← Path.components_eq_splitOn, h.components_ofNames hf hf.ne_nil]

lemma TemplateFile.below_eq (h : ∀ name ∈ names, IsName name) (hne : names ≠ []) :
    below root names bytes = ⟨Path.join root (Path.ofNames names), Path.ofNames names, bytes⟩ := by
  rw [below, Path.strip?_join root h hne, Option.getD_some]

lemma FileTree.WellFormed.below_eq (h : (FileTree.directory entries).WellFormed)
    (hf : (FileTree.directory entries).HasFile bytes names) :
    TemplateFile.below root names bytes =
      ⟨Path.join root (Path.ofNames names), Path.ofNames names, bytes⟩ :=
  TemplateFile.below_eq (h.isName hf) hf.ne_nil

lemma mem_templatesBelow_iff (h : (FileTree.directory entries).WellFormed) :
    file ∈ templatesBelow root (.directory entries) suffix ignored ↔ ∃ parents name,
      (FileTree.directory entries).HasFile file.bytes (parents ++ [name]) ∧
      file.displayPath.splitOn '/' = parents ++ [name] ∧ suffix <:+ name ∧
      ignored.ignores file.displayPath = false ∧ file.path = Path.join root file.displayPath := by
  rw [templatesBelow, List.mem_filter, List.mem_map, Bool.not_eq_true']
  constructor
  · rintro ⟨⟨⟨names, bytes⟩, hmem, rfl⟩, hignored⟩
    obtain ⟨hfile, hsuffix⟩ := List.mem_filter.1 hmem
    rw [FileTree.mem_files_iff] at hfile
    have hsplit := h.splitOn_ofNames hfile
    dsimp only at hignored hsuffix ⊢
    rw [h.below_eq hfile] at hignored ⊢
    obtain ⟨parents, name, rfl⟩ := (List.eq_nil_or_concat' names).resolve_left hfile.ne_nil
    rw [List.getLastD_concat, List.isSuffixOf_iff_suffix] at hsuffix
    exact ⟨parents, name, hfile, hsplit, hsuffix, hignored, rfl⟩
  · rintro ⟨parents, name, hfile, hsplit, hsuffix, hignored, hpath⟩
    refine ⟨⟨(parents ++ [name], file.bytes), List.mem_filter.2 ⟨FileTree.mem_files_iff.2 hfile, ?_⟩, ?_⟩,
      hignored⟩
    · dsimp only
      rwa [List.getLastD_concat, List.isSuffixOf_iff_suffix]
    · change TemplateFile.below root (parents ++ [name]) file.bytes = file
      rw [h.below_eq hfile, ← Path.eq_ofNames hsplit, ← hpath]

lemma templatesBelow_sorted (h : (FileTree.directory entries).WellFormed) :
    (templatesBelow root (.directory entries) suffix ignored).Pairwise fun a b =>
      Path.Precedes a.displayPath b.displayPath := by
  apply List.Pairwise.sublist List.filter_sublist
  rw [List.pairwise_map]
  apply (h.files_sorted.sublist List.filter_sublist).imp_of_mem
  rintro ⟨names, bytes⟩ ⟨names', bytes'⟩ hmem hmem' hlt
  have hfile := FileTree.mem_files_iff.1 (List.mem_of_mem_filter hmem)
  have hfile' := FileTree.mem_files_iff.1 (List.mem_of_mem_filter hmem')
  dsimp only
  rw [h.below_eq hfile, h.below_eq hfile', Path.Precedes, h.splitOn_ofNames hfile, h.splitOn_ofNames hfile']
  exact hlt

/-- What is found below the directory `root`: the files there whose names end as asked and whose paths are not
left out, each once, in the order of their names. -/
structure IsListing (root suffix : Text) (ignored : Glob.IgnoreSet) (entries : List (Text × FileTree))
    (found : List TemplateFile) : Prop where
  mem_iff : ∀ file, file ∈ found ↔ ∃ parents name,
    (FileTree.directory entries).HasFile file.bytes (parents ++ [name]) ∧
    file.displayPath.splitOn '/' = parents ++ [name] ∧ suffix <:+ name ∧
    ignored.ignores file.displayPath = false ∧ file.path = Path.join root file.displayPath
  nodup : (found.map TemplateFile.displayPath).Nodup
  sorted : found.Pairwise fun a b => Path.Precedes a.displayPath b.displayPath

lemma isListing_templatesBelow (h : (FileTree.directory entries).WellFormed) :
    IsListing root suffix ignored entries (templatesBelow root (.directory entries) suffix ignored) where
  mem_iff file := mem_templatesBelow_iff h
  nodup := by
    rw [List.Nodup, List.pairwise_map]
    apply (templatesBelow_sorted h).imp
    intro a b hlt heq
    rw [heq] at hlt
    exact List.lt_irrefl _ hlt
  sorted := templatesBelow_sorted h

/-- Below a directory, the templates are exactly the files there whose names end as asked and whose paths are
not left out. They are shown by the names that lead to them, however the path of the directory is spelled, and
stand at these names below that path. Each is found once, and in the order of the names. -/
theorem templates_exact (root suffix : Text) (ignored : Glob.IgnoreSet) (htop : top.WellFormed)
    (hroot : top.find? root = some (.directory entries)) :
    ∃ found, templatesAt top.find? root suffix ignored = .ok found ∧
      (∀ file, file ∈ found ↔ ∃ parents name,
        (FileTree.directory entries).HasFile file.bytes (parents ++ [name]) ∧
        file.displayPath.splitOn '/' = parents ++ [name] ∧ suffix <:+ name ∧
        ignored.ignores file.displayPath = false ∧ file.path = Path.join root file.displayPath) ∧
      (∀ file ∈ found, top.find? file.path = some (.file file.bytes)) ∧
      (found.map TemplateFile.displayPath).Nodup ∧
      found.Pairwise fun a b => Path.Precedes a.displayPath b.displayPath := by
  have ht : (FileTree.directory entries).WellFormed :=
    htop.of_follow (List.forall_mem_nil _) (FileTree.follow_of_find? hroot)
  have hlisting : IsListing root suffix ignored entries _ := isListing_templatesBelow ht
  refine ⟨templatesBelow root (.directory entries) suffix ignored, by rw [templatesAt, hroot],
    hlisting.mem_iff, fun file hmem => ?_, hlisting.nodup, hlisting.sorted⟩
  obtain ⟨parents, name, hfile, hsplit, -, -, hpath⟩ := (hlisting.mem_iff file).1 hmem
  rw [hpath, Path.eq_ofNames hsplit]
  exact htop.find?_join hroot hfile hfile.ne_nil

theorem templates_exact_nested_first :
    ∃ top entries found, top = FileTree.directory [("d".toList, .directory entries)] ∧
      entries = [("a.html".toList, .file .empty), ("a".toList, .directory [("x.html".toList, .file .empty)]),
        ("b".toList, .directory [("y.html".toList, .file .empty)])] ∧
      top.WellFormed ∧ top.find? "d/".toList = some (.directory entries) ∧
      templatesAt top.find? "d/".toList ".html".toList ⟨[[.letter 'b', .trailing]]⟩ = .ok found ∧
      ⟨"d/a.html".toList, "a.html".toList, .empty⟩ ∈ found ∧
      ⟨"d/a/x.html".toList, "a/x.html".toList, .empty⟩ ∈ found ∧
      (∀ file ∈ found, file.displayPath ≠ "b/y.html".toList) ∧
      Path.Precedes "a/x.html".toList "a.html".toList ∧
      found.Pairwise fun a b => Path.Precedes a.displayPath b.displayPath := by
  have htop : (FileTree.directory [("d".toList, .directory [("a.html".toList, .file .empty),
      ("a".toList, .directory [("x.html".toList, .file .empty)]),
      ("b".toList, .directory [("y.html".toList, .file .empty)])])]).WellFormed :=
    ((FileTree.wellFormed_empty.put ["d".toList, "a.html".toList] (by decide) (.file _)).put
      ["d".toList, "a".toList, "x.html".toList] (by decide) (.file _)).put
        ["d".toList, "b".toList, "y.html".toList] (by decide) (.file _)
  obtain ⟨found, hfound, hmem, -, -, hsorted⟩ :=
    templates_exact "d/".toList ".html".toList ⟨[[.letter 'b', .trailing]]⟩ htop rfl
  refine ⟨_, _, found, rfl, rfl, htop, rfl, hfound, ?_, ?_, fun file hfile heq => ?_, ?_, hsorted⟩
  · refine (hmem _).2 ⟨[], "a.html".toList, ?_, by decide, by decide, by decide, rfl⟩
    exact .entry List.mem_cons_self .here
  · refine (hmem _).2 ⟨["a".toList], "x.html".toList, ?_, by decide, by decide, by decide, rfl⟩
    exact .entry (List.mem_cons_of_mem _ List.mem_cons_self) (.entry List.mem_cons_self .here)
  · obtain ⟨_, _, -, -, -, hignored, -⟩ := (hmem file).1 hfile
    rw [heq] at hignored
    exact absurd hignored (by decide)
  · unfold Path.Precedes
    decide

end TemplateMarkup.Project
