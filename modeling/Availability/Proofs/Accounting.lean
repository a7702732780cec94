import Availability.Proofs.Merging
import Mathlib.Data.List.Nodup
import Mathlib.Data.List.Perm.Basic

/-!
# Every finding is accounted for

Checking files loses no finding and makes none up: each stands or is silenced, and it is silenced
by the first comment of its own file that is meant for it. The audit is in the order of files and
lines, and within a line in the order of the walk.
-/
namespace Availability

theorem Issue.ofName?_eq_some_iff {name : String} {issue : Issue} :
    ofName? name = some issue ↔ name = issue.name := by
  constructor
  · intro h
    unfold ofName? at h
    split at h
    · cases h
      rfl
    · cases h
      rfl
    · cases h
  · rintro rfl
    exact ofName?_name issue

namespace Suppression

/-- A suppression is meant for a diagnostic of its file by its rule and its lines. -/
def Matches (s : Suppression) (d : Diagnostic) : Prop :=
  (s.rule = "*" ∨ s.rule = d.issue.name) ∧
    (s.reach = .file ∨ (s.reach = .line ∧ d.line = s.line) ∨
      (s.reach = .nextLine ∧ d.line = s.line + 1))

instance (s : Suppression) (d : Diagnostic) : Decidable (s.Matches d) :=
  inferInstanceAs (Decidable (_ ∧ _))

theorem coversIssue_iff {s : Suppression} {issue : Issue} :
    s.coversIssue issue = true ↔ s.rule = "*" ∨ s.rule = issue.name := by
  simp [coversIssue, Issue.ofName?_eq_some_iff]

theorem coversLine_iff {s : Suppression} {line : Nat} :
    s.coversLine line = true ↔ s.reach = .file ∨ (s.reach = .line ∧ line = s.line) ∨
      (s.reach = .nextLine ∧ line = s.line + 1) := by
  unfold coversLine
  cases s.reach <;> simp

theorem covers_iff {s : Suppression} {d : Diagnostic} (hfile : d.file = s.file) :
    s.covers d = true ↔ s.Matches d := by
  simp [covers, Matches, hfile, coversIssue_iff, coversLine_iff]

theorem file_of_ofDirective? {file : String} {header : Bool} {line : Nat} {before : List Char}
    {directive : Directive} {s : Suppression}
    (h : ofDirective? file header line before directive = some s) : s.file = file := by
  unfold ofDirective? at h
  cases directive.request with
  | ignore => grind
  | ignoreNextLine => grind
  | ignoreFile => grind

theorem file_of_mem_ofLines {file : String} {header : Bool} {line : Nat} {lines : List (List Char)}
    {s : Suppression} (h : s ∈ ofLines file header line lines) : s.file = file := by
  induction lines generalizing header line with
  | nil => cases h
  | cons text rest ih =>
    rcases List.mem_append.mp h with hfirst | hrest
    · obtain ⟨style, -, hstyle⟩ := List.exists_of_findSome?_eq_some (Option.mem_toList.mp hfirst)
      obtain ⟨⟨before, directive⟩, -, hdirective⟩ := Option.bind_eq_some_iff.mp hstyle
      exact file_of_ofDirective? hdirective
    · exact ih hrest

end Suppression

namespace SourceFile

variable (f : SourceFile) (policy : Policy)

/-- The suppressions in the comments of a file, in the order of its text. -/
def suppressions : List Suppression :=
  Suppression.ofSource f.label f.text

/-- What a policy finds in a file, in the order of the walk. -/
def findings : List Diagnostic :=
  policy.diagnose f.label f.tree

/-- The findings that no suppression of the file is meant for. -/
def standing : List Diagnostic :=
  (f.findings policy).filter fun d => ∀ s ∈ f.suppressions, ¬ s.Matches d

/-- The findings that a suppression of the file is meant for, each with the first such one. -/
def silenced : List Suppressed :=
  (f.findings policy).filterMap fun d => (f.suppressions.find? (·.Matches d)).map (⟨d, ·⟩)

theorem covers_eq_matches {d : Diagnostic} (hd : d ∈ f.findings policy) {s : Suppression}
    (hs : s ∈ f.suppressions) : s.covers d = decide (s.Matches d) := by
  have hfile : d.file = s.file :=
    (Policy.file_of_mem_diagnose hd).trans (Suppression.file_of_mem_ofLines hs).symm
  rw [Bool.eq_iff_iff, decide_eq_true_iff, Suppression.covers_iff hfile]

theorem audit_diagnostics : (f.audit policy).diagnostics = f.standing policy := by
  refine List.filter_congr fun d hd => ?_
  change (!f.suppressions.any (·.covers d)) = _
  rw [Bool.eq_iff_iff, Bool.not_eq_true', List.any_eq_false, decide_eq_true_iff]
  refine forall₂_congr fun s hs => ?_
  rw [f.covers_eq_matches policy hd hs, decide_eq_true_iff]

theorem audit_suppressed : (f.audit policy).suppressed = f.silenced policy := by
  refine List.filterMap_congr fun d hd => ?_
  change (f.suppressions.find? (·.covers d)).map _ = _
  rw [← List.head?_filter, ← List.head?_filter,
    List.filter_congr fun s hs => f.covers_eq_matches policy hd hs]

theorem mem_silenced_iff {f : SourceFile} {policy : Policy} {d : Diagnostic} {s : Suppression} :
    ⟨d, s⟩ ∈ f.silenced policy ↔
      d ∈ f.findings policy ∧ f.suppressions.find? (·.Matches d) = some s := by
  simp only [silenced, List.mem_filterMap, Option.map_eq_some_iff, Suppressed.mk.injEq]
  constructor
  · rintro ⟨d', hd, s', hfind, rfl, rfl⟩
    exact ⟨hd, hfind⟩
  · rintro ⟨hd, hfind⟩
    exact ⟨d, hd, s, hfind, rfl, rfl⟩

/-- Each finding stands or is silenced. -/
theorem standing_append_silenced_perm :
    (f.standing policy ++ (f.silenced policy).map (·.diagnostic)).Perm (f.findings policy) := by
  have hsilenced : (f.silenced policy).map (·.diagnostic) =
      (f.findings policy).filter fun d => !decide (∀ s ∈ f.suppressions, ¬ s.Matches d) := by
    rw [silenced, List.map_filterMap, ← List.filterMap_eq_filter]
    congr 1
    funext d
    cases hfind : f.suppressions.find? (·.Matches d) with
    | none =>
      have hnone : ∀ s ∈ f.suppressions, ¬ s.Matches d := by simpa using hfind
      simpa [Option.guard] using hnone
    | some s =>
      have hs : s.Matches d := by simpa using List.find?_some hfind
      have hmem := List.mem_of_find?_eq_some hfind
      have hsome : ¬ ∀ s ∈ f.suppressions, ¬ s.Matches d := fun hnone => hnone s hmem hs
      simp [Option.guard, hsome]
  rw [hsilenced]
  exact List.filter_append_perm _ _

end SourceFile

/-- Of files with different names only one has something under a name. -/
theorem flatMap_eq_of_label {β : Type} {files : List SourceFile}
    (hlabels : (files.map (·.label)).Nodup) {f : SourceFile} (hf : f ∈ files)
    {found : SourceFile → List β} (hfound : ∀ g, found g ≠ [] → g.label = f.label) :
    files.flatMap found = found f := by
  have hnone {others : List SourceFile} (hothers : ∀ g ∈ others, g.label ≠ f.label) :
      others.flatMap found = [] := by
    refine List.flatMap_eq_nil_iff.mpr fun g hg => ?_
    by_contra hne
    exact hothers g hg (hfound g hne)
  obtain ⟨before, after, rfl⟩ := List.append_of_mem hf
  obtain ⟨-, htail, hbefore⟩ := List.pairwise_append.mp (List.pairwise_map.mp hlabels)
  have hafter := (List.pairwise_cons.mp htail).1
  rw [List.flatMap_append, List.flatMap_cons,
    hnone fun g hg => hbefore g hg f List.mem_cons_self, hnone fun g hg => (hafter g hg).symm,
    List.nil_append, List.append_nil]

namespace Check

variable (c : Check) (parse : Php.Parser) (disk : Files.Disk) (paths : List String)

theorem run_diagnostics :
    let files := c.filesRead parse disk paths
    (c.run parse disk paths).diagnostics =
      (files.flatMap (·.standing (c.policy files))).mergeSort Diagnostic.before := by
  simp only [run_eq, Audit.sort, SourceFile.audit_diagnostics]

theorem run_suppressed :
    let files := c.filesRead parse disk paths
    (c.run parse disk paths).suppressed =
      (files.flatMap (·.silenced (c.policy files))).mergeSort
        fun s t => s.diagnostic.before t.diagnostic := by
  simp only [run_eq, Audit.sort, SourceFile.audit_suppressed]

/-- A finding of a file is silenced by the first suppression of the file that is meant for it. -/
theorem mem_run_suppressed_iff (hlabels : (paths.map c.label).Nodup) {f : SourceFile}
    (hf : f ∈ c.filesRead parse disk paths) {d : Diagnostic}
    (hd : d ∈ f.findings (c.policy (c.filesRead parse disk paths))) {s : Suppression} :
    ⟨d, s⟩ ∈ (c.run parse disk paths).suppressed ↔ f.suppressions.find? (·.Matches d) = some s := by
  simp only [run_suppressed, List.mem_mergeSort, List.mem_flatMap, SourceFile.mem_silenced_iff]
  constructor
  · rintro ⟨g, hg, hd', hfind⟩
    have hlabel : g.label = f.label :=
      (Policy.file_of_mem_diagnose hd').symm.trans (Policy.file_of_mem_diagnose hd)
    have hnames := hlabels.sublist (c.labels_filesRead parse disk paths)
    rwa [← List.inj_on_of_nodup_map hnames hg hf hlabel]
  · intro hfind
    exact ⟨f, hf, hd, hfind⟩

/-- Sorting leaves what a file has on a line as the walk has found it. -/
theorem filter_line_mergeSort {β : Type} (place : β → Diagnostic) {found : SourceFile → List β}
    (hfound : ∀ g, ∀ b ∈ found g, (place b).file = g.label)
    (hlabels : (paths.map c.label).Nodup) {f : SourceFile} (hf : f ∈ c.filesRead parse disk paths)
    (line : Nat) :
    (((c.filesRead parse disk paths).flatMap found).mergeSort
        fun a b => (place a).before (place b)).filter
          (fun b => (place b).file = f.label ∧ (place b).line = line) =
      (found f).filter fun b => (place b).line = line := by
  have hnames := hlabels.sublist (c.labels_filesRead parse disk paths)
  rw [@filter_mergeSort _ (fun a b => (place a).before (place b))
    (fun _ _ _ => Diagnostic.before_trans _ _ _) (fun _ _ => Diagnostic.before_total _ _),
    List.filter_flatMap, flatMap_eq_of_label hnames hf]
  · refine List.filter_congr fun b hb => ?_
    simp [hfound f b hb]
  · intro g hg
    obtain ⟨b, hb⟩ := List.exists_mem_of_ne_nil _ hg
    obtain ⟨hmem, hplace⟩ := List.mem_filter.mp hb
    rw [← hfound g b hmem]
    exact (decide_eq_true_iff.mp hplace).1
  · intro a b ha hb
    simp only [decide_eq_true_eq] at ha hb
    exact Diagnostic.before_iff.mpr (.inr ⟨ha.1.trans hb.1.symm, (ha.2.trans hb.2.symm).le⟩)

/-- Every finding in the files that can be read stands or is silenced by the first comment of its
own file that is meant for it. -/
theorem run_accounts (c : Check) (parse : Php.Parser) (disk : Files.Disk) (paths : List String) :
    let files := c.filesRead parse disk paths
    let policy := c.policy files
    let audit := c.run parse disk paths
    -- every file is counted
    audit.scanned + audit.skipped.length = paths.length ∧
    -- every finding is there once
    (audit.diagnostics ++ audit.suppressed.map (·.diagnostic)).Perm
      (files.flatMap (·.findings policy)) ∧
    -- it is silenced by the first comment of its file that is meant for it, or else stands
    audit.diagnostics.Perm (files.flatMap (·.standing policy)) ∧
    audit.suppressed.Perm (files.flatMap (·.silenced policy)) ∧
    -- both are ordered by file and line
    audit.diagnostics.Pairwise (fun a b => a.file < b.file ∨ a.file = b.file ∧ a.line ≤ b.line) ∧
    audit.suppressed.Pairwise (fun s t => s.diagnostic.file < t.diagnostic.file ∨
      s.diagnostic.file = t.diagnostic.file ∧ s.diagnostic.line ≤ t.diagnostic.line) ∧
    ((paths.map c.label).Nodup → ∀ f ∈ files,
      (∀ d ∈ f.findings policy,
        ((∃ s, ⟨d, s⟩ ∈ audit.suppressed) ↔ ∃ s ∈ f.suppressions, s.Matches d) ∧
        ∀ s, ⟨d, s⟩ ∈ audit.suppressed ↔ f.suppressions.find? (·.Matches d) = some s) ∧
      -- and within a line by the walk
      ∀ line,
        audit.diagnostics.filter (fun d => d.file = f.label ∧ d.line = line) =
          (f.standing policy).filter (·.line = line) ∧
        audit.suppressed.filter (fun s => s.diagnostic.file = f.label ∧ s.diagnostic.line = line) =
          (f.silenced policy).filter (·.diagnostic.line = line)) := by
  intro files policy audit
  have hdiagnostics : audit.diagnostics.Perm (files.flatMap (·.standing policy)) := by
    simp only [audit, run_diagnostics]
    exact List.mergeSort_perm _ _
  have hsuppressed : audit.suppressed.Perm (files.flatMap (·.silenced policy)) := by
    simp only [audit, run_suppressed]
    exact List.mergeSort_perm _ _
  refine ⟨?_, ?_, hdiagnostics, hsuppressed, ?_, ?_,
    fun hlabels f hf => ⟨fun d hd => ?_, fun line => ?_⟩⟩
  · simpa [audit, run_eq, Audit.sort] using c.length_filesRead_add parse disk paths
  · refine (hdiagnostics.append (hsuppressed.map _)).trans ?_
    rw [List.map_flatMap]
    refine (List.flatMap_append_perm files _ _).trans (List.Perm.flatMap_left files fun f _ => ?_)
    exact f.standing_append_silenced_perm policy
  · simp only [audit, run_diagnostics]
    refine (List.pairwise_mergeSort Diagnostic.before_trans Diagnostic.before_total _).imp ?_
    exact Diagnostic.before_iff.mp
  · simp only [audit, run_suppressed]
    refine (@List.pairwise_mergeSort _ (fun s t : Suppressed => s.diagnostic.before t.diagnostic)
      (fun _ _ _ => Diagnostic.before_trans _ _ _)
      (fun _ _ => Diagnostic.before_total _ _) _).imp ?_
    exact Diagnostic.before_iff.mp
  · have hmem (s : Suppression) : ⟨d, s⟩ ∈ audit.suppressed ↔
        f.suppressions.find? (·.Matches d) = some s :=
      c.mem_run_suppressed_iff parse disk paths hlabels hf hd
    refine ⟨?_, hmem⟩
    simp only [hmem, ← Option.isSome_iff_exists, List.find?_isSome, decide_eq_true_eq]
  · simp only [audit, run_diagnostics, run_suppressed]
    constructor
    · exact c.filter_line_mergeSort parse disk paths id
        (fun g d hd => Policy.file_of_mem_diagnose (List.mem_of_mem_filter hd)) hlabels hf line
    · refine c.filter_line_mergeSort parse disk paths Suppressed.diagnostic (fun g s hs => ?_)
        hlabels hf line
      exact Policy.file_of_mem_diagnose (SourceFile.mem_silenced_iff.mp hs).1

/-- A check against two functions. -/
def functions : Check where
  base := "/"
  table := { symbols := [("f", ⟨⟨6, 1, 0⟩, none⟩), ("g", ⟨⟨6, 2, 0⟩, none⟩)] }
  minimum := ⟨6, 0, 0⟩

/-- A file with a comment that is meant for two of its three calls. -/
def commented : SourceFile where
  label := "a.php"
  content := Text.encode "<?php\n\n# wpcompat:ignore * - known\ng(f());\nf();"
  tree := Php.parseBytes (Text.encode "<?php\n\n# wpcompat:ignore * - known\ng(f());\nf();")

/-- Beside it stands a file whose comment does not count, since the file is no text. -/
def commentedDisk : Files.Disk where
  tree := .directory [
    ("a.php", .file commented.content),
    ("b.php", .file (Text.encode "<?php g(); # wpcompat:ignore * " ++ [0xFF]))]

/-- The diagnostic of a call of one of the functions. -/
def callOf (name : String) (since : Version) (file : String) (line : Nat) : Diagnostic :=
  ⟨.functionNotAvailable, name ++ "() is only available since WordPress version " ++
    since.toString ++ ".", file, line, name, since⟩

theorem found_commentedDisk :
    let paths := ["/a.php", "/none.php", "/b.php"]
    let files := functions.filesRead Php.parser commentedDisk paths
    let known : Suppression := ⟨"*", "known", "a.php", 3, .nextLine⟩
    commented ∈ files ∧ files.length = 2 ∧
      functions.unreadNames Php.parser commentedDisk paths = ["none.php"] ∧
      files.flatMap (·.standing (functions.policy files)) =
        [callOf "f" ⟨6, 1, 0⟩ "a.php" 5, callOf "g" ⟨6, 2, 0⟩ "b.php" 1] ∧
      files.flatMap (·.silenced (functions.policy files)) =
        [⟨callOf "g" ⟨6, 2, 0⟩ "a.php" 4, known⟩, ⟨callOf "f" ⟨6, 1, 0⟩ "a.php" 4, known⟩] := by
  decide +kernel

theorem run_accounts_commented :
    let paths := ["/a.php", "/none.php", "/b.php"]
    let audit := functions.run Php.parser commentedDisk paths
    let files := functions.filesRead Php.parser commentedDisk paths
    (paths.map functions.label).Nodup ∧ commented ∈ files ∧
      audit.diagnostics.length = 2 ∧ audit.suppressed.length = 2 ∧
      audit.scanned + audit.skipped.length = 3 ∧
      audit.suppressed.filter (fun s => s.diagnostic.file = "a.php" ∧ s.diagnostic.line = 4) =
        (commented.silenced (functions.policy files)).filter (·.diagnostic.line = 4) := by
  intro paths audit files
  have hall := run_accounts functions Php.parser commentedDisk paths
  have hnames : (paths.map functions.label).Nodup := by decide +kernel
  obtain ⟨hread, -, -, hstanding, hsilenced⟩ := found_commentedDisk
  refine ⟨hnames, hread, ?_, ?_, hall.1, ((hall.2.2.2.2.2.2 hnames commented hread).2 4).2⟩
  · rw [run_diagnostics, List.length_mergeSort, hstanding]
    rfl
  · rw [run_suppressed, List.length_mergeSort, hsilenced]
    rfl

end Check

end Availability
