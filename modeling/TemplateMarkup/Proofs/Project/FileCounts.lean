import Mathlib.Data.List.Forall2
import TemplateMarkup.Proofs.Project.Accounting

namespace TemplateMarkup.Project

open Glob (IgnoreSet Readable)

def TemplateFile.IsText (file : TemplateFile) : Prop :=
  ∃ text : Text, file.bytes = text.utf8Encode

lemma TemplateFile.isText_iff (file : TemplateFile) : file.IsText ↔ file.bytes.IsValidUTF8 := by
  constructor
  · rintro ⟨text, h⟩
    exact ⟨text, h⟩
  · rintro ⟨text, h⟩
    exact ⟨text, h⟩

instance : DecidablePred TemplateFile.IsText := fun file =>
  decidable_of_iff file.bytes.IsValidUTF8 file.isText_iff.symm

structure CheckedFile.IsOf (r : CheckedFile) (file : TemplateFile) : Prop where
  file_eq : r.file = file
  bytes_eq : file.bytes = r.source.utf8Encode
  diagnosed : (r.diagnostics, r.stats) = diagnose r.source

variable {file : TemplateFile} {r : CheckedFile}

lemma CheckedFile.ofFile_eq_none (h : ¬ file.IsText) : CheckedFile.ofFile file = none := by
  rw [ofFile, String.fromUTF8?, dif_neg fun hvalid => h (file.isText_iff.2 hvalid)]
  rfl

lemma CheckedFile.exists_ofFile_eq_some (h : file.IsText) :
    ∃ r, CheckedFile.ofFile file = some r ∧ r.IsOf file := by
  have hvalid := file.isText_iff.1 h
  rw [ofFile, String.fromUTF8?, dif_pos hvalid]
  refine ⟨_, rfl, rfl, ?_, rfl⟩
  rw [← String.toByteArray_ofList, String.ofList_toList]
  rfl

lemma checkAll_isOf (found : List TemplateFile) :
    List.Forall₂ CheckedFile.IsOf (checkAll found) (found.filter (·.IsText)) := by
  induction found with
  | nil => exact .nil
  | cons file found ih =>
    by_cases h : file.IsText
    · obtain ⟨r, hr, hof⟩ := CheckedFile.exists_ofFile_eq_some h
      rw [checkAll, List.filterMap_cons_some hr, List.filter_cons_of_pos (by simpa using h)]
      exact .cons hof ih
    · rw [checkAll, List.filterMap_cons_none (CheckedFile.ofFile_eq_none h),
        List.filter_cons_of_neg (by simpa using h)]
      exact ih

lemma length_checkAll (found : List TemplateFile) :
    (checkAll found).length = (found.filter (·.IsText)).length :=
  (checkAll_isOf found).length_eq

lemma length_checkAll_eq_iff (found : List TemplateFile) :
    found.length = (checkAll found).length ↔ ∀ file ∈ found, file.IsText := by
  rw [length_checkAll, eq_comm, List.length_filter_eq_length_iff]
  simp only [decide_eq_true_eq]

lemma length_eq_length_checkAll_add (found : List TemplateFile) :
    found.length = (checkAll found).length + (found.filter (¬ ·.IsText)).length := by
  rw [length_checkAll, List.length_eq_length_filter_add (fun file => decide file.IsText)]
  simp only [decide_not]

lemma exists_render_eq {format : Report.Format} (h : format ≠ .json) (checked : List CheckedFile)
    (summary : Report.Summary) : ∃ reports, render format checked summary =
      reports ++ " in ".toList ++ Report.counted summary.files "file".toList "files".toList ++ ['\n'] := by
  rw [render, Report.Summary.text]
  · simp only [← List.append_assoc]
    exact ⟨_, rfl⟩
  · exact h

def Job.selected (job : Job) (top : Text → Option FileTree) (ignored : IgnoreSet) : List TemplateFile :=
  job.paths.flatMap (selectedAt top job.suffix ignored)

/-- A check that runs counts all files that were selected, and says so at the end. It checks those that are
texts and no others, so the count exceeds the checked files by the others, and is their number just if there
are none. -/
theorem counted_files_exact {job : Job} {top : Text → Option FileTree} {outcome : Outcome}
    (h : job.run top = .ok outcome) : ∃ ignored found,
      IgnoreSet.ofPatterns job.ignore = .ok ignored ∧ found = job.selected top ignored ∧
      List.Forall₂ CheckedFile.IsOf (checkAll found) (found.filter (·.IsText)) ∧
      outcome.summary.files = (checkAll found).length + (found.filter (¬ ·.IsText)).length ∧
      (outcome.summary.files = (checkAll found).length ↔ ∀ file ∈ found, file.IsText) ∧
      (job.format ≠ .json → ∃ reports, outcome.output = reports ++ " in ".toList ++
        Report.counted found.length "file".toList "files".toList ++ ['\n']) := by
  obtain ⟨ignored, hset, -, found, hfound, rfl⟩ := Job.run_eq_ok h
  exact ⟨ignored, found, hset, hfound, checkAll_isOf found, length_eq_length_checkAll_add found,
    length_checkAll_eq_iff found, fun hformat => exists_render_eq hformat _ _⟩

def mixedTree : FileTree :=
  .directory [("u.html".toList, .file ⟨#[0xFF]⟩), ("b.html".toList, .file ⟨#[60, 98, 47, 62]⟩)]

def mixedJob (paths : List Text) : Job :=
  ⟨paths, [], ".html".toList, .human⟩

theorem counted_files_exact_mixed : ∃ ignored outcome,
    (mixedJob ["u.html".toList, "b.html".toList]).run mixedTree.find? = .ok outcome ∧
    IgnoreSet.ofPatterns [] = .ok ignored ∧ outcome.summary.files = 2 ∧
    (checkAll ((mixedJob ["u.html".toList, "b.html".toList]).selected mixedTree.find? ignored)).length = 1 ∧
    ∃ reports, outcome.output = reports ++ " in ".toList ++
      Report.counted 2 "file".toList "files".toList ++ ['\n'] := by
  have hexist : ∀ path ∈ (mixedJob ["u.html".toList, "b.html".toList]).paths,
      (mixedTree.find? path).isSome := by decide
  obtain ⟨outcome, hrun⟩ := Job.exists_run_ok (List.forall_mem_nil _) hexist
  obtain ⟨ignored, found, hset, hfound, -, hfiles, -, hprinted⟩ := counted_files_exact hrun
  have hselected : found = [⟨"u.html".toList, "u.html".toList, ⟨#[0xFF]⟩⟩,
      ⟨"b.html".toList, "b.html".toList, ⟨#[60, 98, 47, 62]⟩⟩] := hfound
  have htexts : (found.filter (·.IsText)).length = 1 := by
    rw [hselected]
    decide +kernel
  have hothers : (found.filter (¬ ·.IsText)).length = 1 := by
    rw [hselected]
    decide +kernel
  have hlength : found.length = 2 := congrArg List.length hselected
  have hprint := hprinted (by decide)
  rw [length_checkAll, htexts, hothers] at hfiles
  rw [hlength] at hprint
  refine ⟨ignored, outcome, hrun, hset, hfiles, ?_, hprint⟩
  rw [← hfound, length_checkAll, htexts]

/-- A file that is no text is counted, and no file is checked. -/
theorem unread_file_counted : ∃ ignored outcome,
    (mixedJob ["u.html".toList]).run mixedTree.find? = .ok outcome ∧
    IgnoreSet.ofPatterns [] = .ok ignored ∧ outcome.summary.files = 1 ∧
    (checkAll ((mixedJob ["u.html".toList]).selected mixedTree.find? ignored)).length = 0 := by
  have hexist : ∀ path ∈ (mixedJob ["u.html".toList]).paths, (mixedTree.find? path).isSome := by decide
  obtain ⟨outcome, hrun⟩ := Job.exists_run_ok (List.forall_mem_nil _) hexist
  obtain ⟨ignored, hset, -, found, hfound, rfl⟩ := Job.run_eq_ok hrun
  have hselected : found = [⟨"u.html".toList, "u.html".toList, ⟨#[0xFF]⟩⟩] := hfound
  refine ⟨ignored, _, hrun, hset, congrArg List.length hselected, ?_⟩
  rw [show (mixedJob ["u.html".toList]).selected mixedTree.find? ignored = found from hfound.symm,
    length_checkAll, hselected]
  decide +kernel

end TemplateMarkup.Project
