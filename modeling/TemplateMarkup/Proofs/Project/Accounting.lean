import TemplateMarkup.CommandLine.Command
import TemplateMarkup.Proofs.Glob.IgnoreSet
import TemplateMarkup.Proofs.Project.Discovery
import TemplateMarkup.Proofs.Report.Lossless
import TemplateMarkup.Proofs.Template.Numbering

namespace TemplateMarkup.Project

open Glob (IgnoreSet InvalidPattern Readable)
open Report (Diagnostic Finding Format Summary)
open Report.JsonText (Value Denotes)

section Selection

def selectedAt (top : Text → Option FileTree) (suffix : Text) (ignored : IgnoreSet) (path : Text) :
    List TemplateFile :=
  match top path with
  | none => []
  | some (.file bytes) => [⟨path, path, bytes⟩]
  | some (.directory entries) => templatesBelow path (.directory entries) suffix ignored

variable {top : Text → Option FileTree} {suffix path : Text} {ignored : IgnoreSet}
  {paths : List Text} {found : List TemplateFile} {cause : CheckFailure}

/-- What is selected where a path leads: the file that stands there, whatever it is called, or all that the
directory there lists. -/
inductive Selects (suffix : Text) (ignored : IgnoreSet) (path : Text) :
    FileTree → List TemplateFile → Prop
  | file (bytes : ByteArray) : Selects suffix ignored path (.file bytes) [⟨path, path, bytes⟩]
  | directory {entries : List (Text × FileTree)} {found : List TemplateFile}
      (h : IsListing path suffix ignored entries found) :
      Selects suffix ignored path (.directory entries) found

lemma selects_selectedAt {t : FileTree} (hpath : top path = some t) (ht : t.WellFormed) :
    Selects suffix ignored path t (selectedAt top suffix ignored path) := by
  rw [selectedAt, hpath]
  cases t with
  | file bytes => exact .file bytes
  | directory entries => exact .directory (isListing_templatesBelow ht)

lemma templatesAt_eq (h : (top path).isSome) :
    templatesAt top path suffix ignored = .ok (selectedAt top suffix ignored path) := by
  rw [templatesAt, selectedAt]
  cases hpath : top path with
  | none => simp [hpath] at h
  | some t => cases t <;> rfl

lemma templatesAtAll_error (h : templatesAtAll top suffix ignored paths = .error cause) :
    ∃ before path after, cause = .pathNotFound path ∧ paths = before ++ path :: after ∧
      (∀ p ∈ before, (top p).isSome) ∧ top path = none := by
  induction paths with
  | nil => cases h
  | cons path others ih =>
    rw [templatesAtAll] at h
    cases hpath : top path with
    | none =>
      simp only [templatesAt, hpath, Except.error.injEq] at h
      exact ⟨[], path, others, h.symm, rfl, List.forall_mem_nil _, hpath⟩
    | some t =>
      have hsome : (top path).isSome := by simp [hpath]
      rw [templatesAt_eq hsome] at h
      obtain ⟨before, missing, after, hcause, rfl, hbefore, hmissing⟩ :=
        ih (error_of_map_eq_error h)
      exact ⟨path :: before, missing, after, hcause, rfl, List.forall_mem_cons.2 ⟨hsome, hbefore⟩,
        hmissing⟩

lemma templatesAtAll_ok (h : templatesAtAll top suffix ignored paths = .ok found) :
    (∀ path ∈ paths, (top path).isSome) ∧ found = paths.flatMap (selectedAt top suffix ignored) := by
  induction paths generalizing found with
  | nil =>
    cases h
    exact ⟨List.forall_mem_nil _, rfl⟩
  | cons path others ih =>
    rw [templatesAtAll] at h
    cases hpath : top path with
    | none => simp [templatesAt, hpath] at h
    | some t =>
      have hsome : (top path).isSome := by simp [hpath]
      rw [templatesAt_eq hsome] at h
      obtain ⟨rest, hothers, hfound⟩ := exists_of_map_eq_ok h
      obtain ⟨hexist, rfl⟩ := ih hothers
      exact ⟨List.forall_mem_cons.2 ⟨hsome, hexist⟩, hfound.symm⟩

end Selection

structure Source where
  path : Text
  text : Text
deriving DecidableEq

namespace Source

def ofFile (file : TemplateFile) : Option Source :=
  (String.fromUTF8? file.bytes).map fun content => ⟨file.displayPath, content.toList⟩

def errors (s : Source) : Nat :=
  (parse s.text).faults.length

def nodes (s : Source) : Nat :=
  (parse s.text).entries.length - 1

def diagnostics (s : Source) : List Diagnostic :=
  (diagnose s.text).1

def findings (s : Source) : List Finding :=
  Report.findings s.path s.text s.diagnostics

def report (format : Format) (s : Source) : Text :=
  format.render s.path s.text s.diagnostics

lemma length_findings (s : Source) : s.findings.length = s.errors := by
  simp [findings, Report.findings, diagnostics, diagnose, errors]

end Source

def CheckedFile.toSource (r : CheckedFile) : Source :=
  ⟨r.file.displayPath, r.source⟩

section Checked

variable {found : List TemplateFile} {r : CheckedFile}

lemma map_toSource_checkAll (found : List TemplateFile) :
    (checkAll found).map CheckedFile.toSource = found.filterMap Source.ofFile := by
  rw [checkAll, List.map_filterMap]
  congr 1
  funext file
  rw [CheckedFile.ofFile, Option.map_map, Source.ofFile]
  rfl

lemma checked_eq (h : r ∈ checkAll found) : (r.diagnostics, r.stats) = diagnose r.source := by
  obtain ⟨file, -, hfile⟩ := List.mem_filterMap.1 h
  obtain ⟨content, -, rfl⟩ := Option.map_eq_some_iff.1 hfile
  rfl

lemma checked_diagnostics (h : r ∈ checkAll found) : r.diagnostics = r.toSource.diagnostics :=
  congrArg Prod.fst (checked_eq h)

lemma map_checkAll {α : Type} {f : CheckedFile → α} {g : Source → α} (found : List TemplateFile)
    (h : ∀ r ∈ checkAll found, f r = g r.toSource) :
    (checkAll found).map f = (found.filterMap Source.ofFile).map g := by
  rw [← map_toSource_checkAll, List.map_map]
  exact List.map_congr_left h

lemma flatMap_checkAll {α : Type} {f : CheckedFile → List α} {g : Source → List α}
    (found : List TemplateFile) (h : ∀ r ∈ checkAll found, f r = g r.toSource) :
    (checkAll found).flatMap f = (found.filterMap Source.ofFile).flatMap g := by
  rw [List.flatMap, map_checkAll found h, List.flatMap]

lemma flatMap_findings (found : List TemplateFile) :
    (checkAll found).flatMap CheckedFile.findings =
      (found.filterMap Source.ofFile).flatMap Source.findings := by
  apply flatMap_checkAll
  intro r hr
  rw [CheckedFile.findings, checked_diagnostics hr]
  rfl

lemma flatMap_render (format : Format) (found : List TemplateFile) :
    (checkAll found).flatMap (CheckedFile.render format) =
      (found.filterMap Source.ofFile).flatMap (Source.report format) := by
  apply flatMap_checkAll
  intro r hr
  rw [CheckedFile.render, checked_diagnostics hr]
  rfl

lemma summarize_errors (found : List TemplateFile) :
    (summarize found (checkAll found)).errors =
      ((found.filterMap Source.ofFile).map Source.errors).sum := by
  rw [← map_checkAll (f := fun r => r.diagnostics.length) found ?_]
  · simp [summarize, List.sum, List.foldr_map]
  · intro r hr
    rw [checked_diagnostics hr]
    simp [Source.diagnostics, diagnose, Source.errors]

lemma summarize_nodes (found : List TemplateFile) :
    (summarize found (checkAll found)).nodes =
      ((found.filterMap Source.ofFile).map Source.nodes).sum := by
  rw [← map_checkAll (f := fun r => r.stats.total) found ?_]
  · simp [summarize, List.sum, List.foldr_map]
  · intro r hr
    have hstats : r.stats = (parse r.source).stats := congrArg Prod.snd (checked_eq hr)
    rw [hstats, Source.nodes, ← stats_total]
    rfl

end Checked

/-- The counts and the output of a check of some files agree with what the sources among them hold. -/
structure Accounts (format : Format) (files : Nat) (sources : List Source) (output : Text)
    (summary : Summary) : Prop where
  files_eq : summary.files = files
  errors_eq : summary.errors = (sources.map Source.errors).sum
  nodes_eq : summary.nodes = (sources.map Source.nodes).sum
  json : format = .json → ∃ objects : Source → List Value,
    (∀ s ∈ sources, (∀ v, Denotes (s.report .json) v ↔ v = .array (objects s)) ∧
      (objects s).map Value.finding? = s.findings.map some) ∧
    (∀ v, Denotes output v ↔ v = .array (sources.flatMap objects)) ∧
    (sources.flatMap objects).length = summary.errors
  text : format ≠ .json → output = sources.flatMap (Source.report format) ++
    (List.replicate 36 '=' ++ "\nng-template-check found ".toList ++
      Text.decimal summary.errors ++ (if summary.errors = 1 then " error" else " errors").toList ++
      " in ".toList ++ Text.decimal files ++ (if files = 1 then " file" else " files").toList ++ ['\n'])

lemma summary_text (summary : Summary) : summary.text =
    List.replicate 36 '=' ++ "\nng-template-check found ".toList ++
      Text.decimal summary.errors ++ (if summary.errors = 1 then " error" else " errors").toList ++
      " in ".toList ++ Text.decimal summary.files ++
      (if summary.files = 1 then " file" else " files").toList := by
  have hcounted : ∀ (n : Nat) (one many : String),
      Report.counted n one.toList many.toList =
        Text.decimal n ++ (if n = 1 then " " ++ one else " " ++ many).toList := by
    intro n one many
    rw [Report.counted, List.append_assoc]
    split <;> simp
  rw [Summary.text, hcounted, hcounted]
  simp only [List.append_assoc]
  rfl

lemma length_flatMap_findings (sources : List Source) :
    (sources.flatMap Source.findings).length = (sources.map Source.errors).sum := by
  rw [List.length_flatMap]
  congr 1
  exact List.map_congr_left fun s _ => s.length_findings

lemma accounts_render (format : Format) (found : List TemplateFile) :
    Accounts format found.length (found.filterMap Source.ofFile)
      (render format (checkAll found) (summarize found (checkAll found)))
      (summarize found (checkAll found)) where
  files_eq := rfl
  errors_eq := summarize_errors found
  nodes_eq := summarize_nodes found
  json := by
    rintro rfl
    have hobjects : ((found.filterMap Source.ofFile).flatMap Source.findings).map
        (fun f => f.json.value) =
        (found.filterMap Source.ofFile).flatMap fun s => s.findings.map fun f => f.json.value :=
      List.map_flatMap
    refine ⟨fun s => s.findings.map fun f => f.json.value, fun s _ => ⟨fun v => ?_, ?_⟩,
      fun v => ?_, ?_⟩
    · exact Report.denotes_json_iff s.path s.text s.diagnostics v
    · exact Report.map_finding?_json s.findings
    · rw [render, flatMap_findings, ← hobjects]
      exact Report.denotes_jsonList_iff _ rfl v
    · rw [← hobjects, List.length_map, length_flatMap_findings, summarize_errors]
  text := by
    intro hformat
    rw [render, flatMap_render, List.append_assoc, summary_text]
    · rfl
    · exact hformat

/-- The failure tells of the first pattern that cannot be read or, if there is none, of the first path
where nothing stands. -/
inductive Job.FailsWith (job : Job) (top : Text → Option FileTree) : CheckFailure → Prop
  | pattern {cause : InvalidPattern} (h : cause.IsFirst job.ignore) :
    job.FailsWith top (.invalidPattern cause)
  | path {before after : List Text} {path : Text} (hpatterns : ∀ p ∈ job.ignore, Readable p)
    (hsplit : job.paths = before ++ path :: after) (hbefore : ∀ p ∈ before, (top p).isSome)
    (hpath : top path = none) : job.FailsWith top (.pathNotFound path)

namespace Job

variable {job : Job} {top : Text → Option FileTree} {cause : CheckFailure} {outcome : Outcome}

lemma FailsWith.is_bad (h : job.FailsWith top cause) :
    (∃ p ∈ job.ignore, ¬ Readable p) ∨ ∃ path ∈ job.paths, top path = none := by
  cases h with
  | pattern h =>
    obtain ⟨before, after, hsplit, -⟩ := h.split
    exact .inl ⟨_, by simp [hsplit], Glob.not_readable_of_error h.read_eq⟩
  | path _ hsplit _ hpath => exact .inr ⟨_, by simp [hsplit], hpath⟩

lemma not_bad (hreadable : ∀ p ∈ job.ignore, Readable p)
    (hexist : ∀ path ∈ job.paths, (top path).isSome) :
    ¬ ((∃ p ∈ job.ignore, ¬ Readable p) ∨ ∃ path ∈ job.paths, top path = none) := by
  rintro (⟨p, hp, hpattern⟩ | ⟨path, hp, hpath⟩)
  · exact hpattern (hreadable p hp)
  · have hsome := hexist path hp
    simp [hpath] at hsome

lemma run_error (h : job.run top = .error cause) : job.FailsWith top cause := by
  rw [run] at h
  cases hset : IgnoreSet.ofPatterns job.ignore with
  | error e =>
    simp only [hset, Except.error.injEq] at h
    subst h
    exact .pattern (IgnoreSet.ofPatterns_error hset)
  | ok ignored =>
    simp only [hset] at h
    cases hfound : templatesAtAll top job.suffix ignored job.paths with
    | ok found => simp [hfound] at h
    | error e =>
      simp only [hfound, Except.error.injEq] at h
      subst h
      obtain ⟨before, path, after, rfl, hsplit, hbefore, hpath⟩ := templatesAtAll_error hfound
      exact .path (IgnoreSet.readable_of_ofPatterns hset) hsplit hbefore hpath

lemma run_eq_ok (h : job.run top = .ok outcome) : ∃ ignored,
    IgnoreSet.ofPatterns job.ignore = .ok ignored ∧ (∀ path ∈ job.paths, (top path).isSome) ∧
    ∃ found, found = job.paths.flatMap (selectedAt top job.suffix ignored) ∧
      outcome = ⟨render job.format (checkAll found) (summarize found (checkAll found)),
        summarize found (checkAll found)⟩ := by
  rw [run] at h
  cases hset : IgnoreSet.ofPatterns job.ignore with
  | error e => simp [hset] at h
  | ok ignored =>
    simp only [hset] at h
    cases hfound : templatesAtAll top job.suffix ignored job.paths with
    | error e => simp [hfound] at h
    | ok found =>
      simp only [hfound, Except.ok.injEq] at h
      obtain ⟨hexist, heq⟩ := templatesAtAll_ok hfound
      exact ⟨ignored, rfl, hexist, found, heq, h.symm⟩

lemma run_ok (h : job.run top = .ok outcome) :
    (∀ p ∈ job.ignore, Readable p) ∧ (∀ path ∈ job.paths, (top path).isSome) ∧
    ∃ ignored found, IgnoreSet.ofPatterns job.ignore = .ok ignored ∧
      found = job.paths.flatMap (selectedAt top job.suffix ignored) ∧
      Accounts job.format found.length (found.filterMap Source.ofFile) outcome.output
        outcome.summary := by
  obtain ⟨ignored, hset, hexist, found, hfound, rfl⟩ := run_eq_ok h
  exact ⟨IgnoreSet.readable_of_ofPatterns hset, hexist, ignored, found, hset, hfound,
    accounts_render _ _⟩

lemma exists_run_ok (hreadable : ∀ p ∈ job.ignore, Readable p)
    (hexist : ∀ path ∈ job.paths, (top path).isSome) : ∃ outcome, job.run top = .ok outcome := by
  cases hrun : job.run top with
  | error cause => exact absurd (run_error hrun).is_bad (not_bad hreadable hexist)
  | ok outcome => exact ⟨outcome, rfl⟩

end Job

end TemplateMarkup.Project

namespace TemplateMarkup.CommandLine

open Glob (IgnoreSet Readable)
open Project (Accounts FileTree Selects Source selectedAt)

/-- A check with a bad pattern or path says so and writes nothing else. Any other check accounts for all
templates that can be read, in the order of the paths, and its code tells whether there are errors. -/
theorem run_accounts (o : Options) (top : Text → Option FileTree) :
    ((∃ p ∈ o.ignore, ¬ Readable p) ∨ (∃ path ∈ o.paths, top path = none) →
      ∃ cause, o.job.FailsWith top cause ∧
        o.run top = ⟨1, [], none, some (cause.message ++ ['\n'])⟩) ∧
    ((∀ p ∈ o.ignore, Readable p) → (∀ path ∈ o.paths, (top path).isSome) →
      ∃ ignored found summary, IgnoreSet.ofPatterns o.ignore = .ok ignored ∧
        found = o.paths.flatMap (selectedAt top o.suffix ignored) ∧
        (∀ path ∈ o.paths, ∀ t, top path = some t → t.WellFormed →
          Selects o.suffix ignored path t (selectedAt top o.suffix ignored path)) ∧
        o.job.run top = .ok ⟨(o.run top).output, summary⟩ ∧
        Accounts o.output found.length (found.filterMap Source.ofFile) (o.run top).output summary ∧
        ((o.run top).exitCode = 1 ↔ 0 < summary.errors) ∧
        ((o.run top).exitCode = 0 ↔ summary.errors = 0)) := by
  constructor
  · intro hbad
    cases hrun : o.job.run top with
    | error cause => exact ⟨cause, Project.Job.run_error hrun, by rw [Options.run, hrun]⟩
    | ok outcome =>
      obtain ⟨hreadable, hexist, -⟩ := Project.Job.run_ok hrun
      exact absurd hbad (Project.Job.not_bad hreadable hexist)
  · intro hreadable hexist
    cases hrun : o.job.run top with
    | error cause =>
      exact absurd (Project.Job.run_error hrun).is_bad (Project.Job.not_bad hreadable hexist)
    | ok outcome =>
      obtain ⟨-, -, ignored, found, hset, hfound, haccounts⟩ := Project.Job.run_ok hrun
      have hresult : o.run top = ⟨if outcome.summary.errors = 0 then 0 else 1, outcome.output,
          if o.stats then some outcome.summary.statsLine else none, none⟩ := by
        rw [Options.run, hrun]
      refine ⟨ignored, found, outcome.summary, hset, hfound,
        fun path _ t hpath ht => Project.selects_selectedAt hpath ht, ?_, ?_, ?_, ?_⟩
      · rw [hresult]
      · rw [hresult]
        exact haccounts
      · simp [hresult, Nat.pos_iff_ne_zero]
      · simp [hresult]

def sampleDirectory : FileTree :=
  .directory [(['b', '.'], .file ⟨#[60, 98, 47, 62]⟩)]

def sampleTrees : List (Text × FileTree) :=
  [(['u'], .file ⟨#[0xFF]⟩), (['b'], .file ⟨#[60, 98, 47, 62]⟩), (['d'], sampleDirectory)]

def sampleOptions (paths : List Text) : Options :=
  ⟨paths, .json, [], [], false, false⟩

theorem run_accounts_unreadable_file :
    (∀ p ∈ (sampleOptions [['u'], ['b']]).ignore, Readable p) ∧
    (∀ path ∈ (sampleOptions [['u'], ['b']]).paths, (sampleTrees.lookup path).isSome) ∧
    (∃ output summary, (sampleOptions [['u'], ['b']]).job.run (sampleTrees.lookup ·) =
      .ok ⟨output, summary⟩ ∧ summary.files = 2 ∧ summary.errors = 1 ∧ summary.nodes = 1) ∧
    ((sampleOptions [['u'], ['b']]).run (sampleTrees.lookup ·)).exitCode = 1 ∧
    (∃ path ∈ (sampleOptions [['u'], ['b'], ['m']]).paths, sampleTrees.lookup path = none) ∧
    ((sampleOptions [['u'], ['b'], ['m']]).run (sampleTrees.lookup ·)).output = [] ∧
    sampleTrees.lookup ['d'] = some sampleDirectory ∧ sampleDirectory.WellFormed ∧
    ∃ ignored found, IgnoreSet.ofPatterns [] = .ok ignored ∧
      Selects ['.'] ignored ['d'] sampleDirectory found ∧
      ⟨['d', '/', 'b', '.'], ['b', '.'], ⟨#[60, 98, 47, 62]⟩⟩ ∈ found := by
  have hsome : ∀ path ∈ (sampleOptions [['u'], ['b']]).paths, (sampleTrees.lookup path).isSome := by
    decide
  have hnone : ∃ path ∈ (sampleOptions [['u'], ['b'], ['m']]).paths,
      sampleTrees.lookup path = none := ⟨['m'], by decide, rfl⟩
  have hdirectory : sampleDirectory.WellFormed :=
    FileTree.wellFormed_empty.put [['b', '.']] (by decide) (.file _)
  obtain ⟨ignored, found, summary, -, rfl, -, hrun, haccounts, hcode, -⟩ :=
    (run_accounts (sampleOptions [['u'], ['b']]) (sampleTrees.lookup ·)).2
      (List.forall_mem_nil _) hsome
  obtain ⟨cause, -, hfails⟩ :=
    (run_accounts (sampleOptions [['u'], ['b'], ['m']]) (sampleTrees.lookup ·)).1 (.inr hnone)
  obtain ⟨ignored', -, -, hset, -, hselects, -⟩ :=
    (run_accounts (sampleOptions [['d']]) (sampleTrees.lookup ·)).2 (List.forall_mem_nil _) (by decide)
  -- The file that is no text is passed over.
  have hsources : [⟨['u'], ['u'], ⟨#[0xFF]⟩⟩, ⟨['b'], ['b'], ⟨#[60, 98, 47, 62]⟩⟩].filterMap
      Source.ofFile = [⟨['b'], ['<', 'b', '/', '>']⟩] := by
    decide +kernel
  have herrors := haccounts.errors_eq.trans (congrArg (fun s => (s.map Source.errors).sum) hsources)
  have hnodes := haccounts.nodes_eq.trans (congrArg (fun s => (s.map Source.nodes).sum) hsources)
  have hone : ([⟨['b'], ['<', 'b', '/', '>']⟩].map Source.errors).sum = 1 := by decide +kernel
  refine ⟨List.forall_mem_nil _, hsome,
    ⟨_, summary, hrun, haccounts.files_eq, herrors.trans hone, hnodes.trans ?_⟩, hcode.2 ?_, hnone,
    by rw [hfails], rfl, hdirectory, ignored', _, hset,
    hselects ['d'] List.mem_cons_self _ rfl hdirectory, ?_⟩
  · decide +kernel
  · rw [herrors.trans hone]
    exact Nat.one_pos
  · have hkept : ignored'.ignores ['b', '.'] = false :=
      eq_of_toOption_map (f := (IgnoreSet.ignores · ['b', '.'])) hset (by decide +kernel)
    apply (Project.mem_templatesBelow_iff hdirectory).2
    exact ⟨[], ['b', '.'], .entry List.mem_cons_self .here, by decide, by decide, hkept, rfl⟩

end TemplateMarkup.CommandLine
