import Availability.Command.Session
import Availability.Proofs.CollectedSources
import Availability.Proofs.DiskWrite
import Availability.Proofs.Encoding
import Availability.Proofs.Outcomes
import Availability.Proofs.TableText

/-!
# All or nothing

A table is written unless something is wrong: with the settings, with a directory that cannot be
looked into, with a source that cannot be read or is no program, with a version, or with two symbols
of one name. Then the disk stays as it was. What was written is loaded again as the table that was
extracted.
-/
namespace Availability

open Files

namespace FileSymbols

/-- A file fails with a version that cannot be read. -/
theorem exists_of_ofTree_eq_error {file : String} {tree : Php.Node} {e : InvalidSince}
    (h : ofTree file tree = .error e) :
    ∃ d ∈ Declaration.ofTree tree, d.isExcluded = false ∧
      ∃ value, d.outcome = .invalid value ∧ e = ⟨value, d.symbol, d.line⟩ := by
  rw [ofTree, foldlM_add] at h
  split at h
  · rename_i e' hfirst
    obtain ⟨d, hd, hfails⟩ := List.exists_of_findSome?_eq_some hfirst
    obtain ⟨hmem, hkept⟩ := List.mem_filter.mp hd
    obtain rfl := Except.error.inj h
    refine ⟨d, hmem, by simpa using hkept, ?_⟩
    cases houtcome : d.outcome with
    | invalid value =>
      rw [houtcome] at hfails
      exact ⟨value, rfl, (Option.some.inj hfails).symm⟩
    | _ => simp [houtcome, Declaration.failure?] at hfails
  · cases h

/-- One version that cannot be read is enough. -/
theorem ofTree_ne_ok {file : String} {tree : Php.Node} {d : Declaration} {value : String}
    (hd : d ∈ Declaration.ofTree tree) (hkept : d.isExcluded = false)
    (hinvalid : d.outcome = .invalid value) (s : FileSymbols) : ofTree file tree ≠ .ok s := by
  intro h
  rw [ofTree, foldlM_add] at h
  split at h
  · cases h
  · rename_i hnone
    have hfails := List.findSome?_eq_none_iff.mp hnone d (List.mem_filter.mpr ⟨hd, by simp [hkept]⟩)
    simp [hinvalid, Declaration.failure?] at hfails

end FileSymbols

namespace Extraction

section Root

variable {parse : Php.Parser} {disk : Disk} {exclusions : List String} {root : String}
  {names : List String} {files : List (List String)} {found : Extraction}
  {symbols : List FileSymbols} {e : ExtractionError}

/-- A file at or below a root from which symbols are taken. -/
structure Scanned (disk : Disk) (exclusions : List String) (root : String) (names : List String) :
    Prop where
  file : ∃ here tree sub, disk.resolve root = .ok (here, tree) ∧ tree.Leads names sub ∧
    sub.isDirectory = false
  declaring : Sources.isDeclaring exclusions root names = true

/-- What can be wrong with a file, and the error that tells of it. -/
inductive FileFlaw (parse : Php.Parser) (disk : Disk) (root : String) (names : List String) :
    ExtractionError → Prop
  | unreadable {cause : Files.Error} (hread : disk.read (Path.below root names) = .error cause) :
      FileFlaw parse disk root names (.unreadable (Path.below root names) cause)
  | unparsable {content : Text.Bytes} (hread : disk.read (Path.below root names) = .ok content)
      (hparse : parse content = none) :
      FileFlaw parse disk root names (.unparsable (Path.below root names))
  | syntaxError {content : Text.Bytes} {parsed : Php.Parsed}
      (hread : disk.read (Path.below root names) = .ok content)
      (hparse : parse content = some parsed) (hsound : parsed.sound = false) :
      FileFlaw parse disk root names (.syntaxError (Path.below root names))
  | invalidSince {content : Text.Bytes} {parsed : Php.Parsed} {d : Declaration} {value : String}
      (hread : disk.read (Path.below root names) = .ok content)
      (hparse : parse content = some parsed) (hsound : parsed.sound = true)
      (hd : d ∈ Declaration.ofTree parsed.tree) (hkept : d.isExcluded = false)
      (hinvalid : d.outcome = .invalid value) :
      FileFlaw parse disk root names
        (.invalidSince (Path.below root names) ⟨value, d.symbol, d.line⟩)

/-- What can be wrong at and below a root, and the error that tells of it. -/
inductive Flaw (parse : Php.Parser) (disk : Disk) (exclusions : List String) (root : String) :
    ExtractionError → Prop
  | unresolved {cause : Files.Error} (h : disk.resolve root = .error cause) :
      Flaw parse disk exclusions root (.walk root ⟨root, cause⟩)
  | closed {here : List String} {tree : Tree} {names : List String}
      (h : disk.resolve root = .ok (here, tree)) (hclosed : tree.Leads names (.locked true)) :
      Flaw parse disk exclusions root (.walk root ⟨Path.below root names, .denied⟩)
  | file {names : List String} {e : ExtractionError} (h : Scanned disk exclusions root names)
      (hflaw : FileFlaw parse disk root names e) : Flaw parse disk exclusions root e
  /-- Two symbols with one name, the first before the second. -/
  | duplicate {files : List (List String)} {symbols : List FileSymbols}
      {first second : String × String} (hfiles : Sources.declaring disk exclusions root = .ok files)
      (hsymbols : List.Forall₂ (fun names s => ofFile parse disk root names = .ok s) files symbols)
      (hplaces : [first, second].Sublist (places symbols)) (hname : first.1 = second.1) :
      Flaw parse disk exclusions root (.duplicate ⟨second.1, first.2, second.2⟩)

theorem fileFlaw_of_ofFile_eq_error (h : ofFile parse disk root names = .error e) :
    FileFlaw parse disk root names e := by
  simp only [ofFile, bind_eq_error_iff, mapError_eq_error_iff] at h
  unfold treeAt at h
  cases hread : disk.read (Path.below root names) with
  | error cause =>
    obtain rfl : ExtractionError.unreadable (Path.below root names) cause = e := by
      simpa [hread] using h
    exact .unreadable hread
  | ok content =>
    cases hparse : parse content with
    | none =>
      obtain rfl : ExtractionError.unparsable (Path.below root names) = e := by
        simpa [hread, hparse] using h
      exact .unparsable hread hparse
    | some parsed =>
      cases hsound : parsed.sound with
      | false =>
        obtain rfl : ExtractionError.syntaxError (Path.below root names) = e := by
          simpa [hread, hparse, hsound] using h
        exact .syntaxError hread hparse hsound
      | true =>
        obtain ⟨e', he', rfl⟩ : ∃ e',
            FileSymbols.ofTree (Path.withSlashes (Path.relative names)) parsed.tree = .error e' ∧
              ExtractionError.invalidSince (Path.below root names) e' = e := by
          simpa [hread, hparse, hsound] using h
        obtain ⟨d, hd, hkept, value, hinvalid, rfl⟩ := FileSymbols.exists_of_ofTree_eq_error he'
        exact .invalidSince hread hparse hsound hd hkept hinvalid

theorem ofFile_eq_ok_iff {s : FileSymbols} :
    ofFile parse disk root names = .ok s ↔
      ∃ tree, treeAt parse disk (Path.below root names) = .ok tree ∧
        FileSymbols.ofTree (Path.withSlashes (Path.relative names)) tree = .ok s := by
  simp only [ofFile, bind_eq_ok_iff, mapError_eq_ok_iff]

theorem FileFlaw.ne_ok (h : FileFlaw parse disk root names e) (s : FileSymbols) :
    ofFile parse disk root names ≠ .ok s := by
  intro hs
  obtain ⟨tree, htree, hsymbols⟩ := ofFile_eq_ok_iff.mp hs
  unfold treeAt at htree
  cases h with
  | unreadable hread => simp [hread] at htree
  | unparsable hread hparse => simp [hread, hparse] at htree
  | syntaxError hread hparse hsound => simp [hread, hparse, hsound] at htree
  | @invalidSince content parsed d value hread hparse hsound hd hkept hinvalid =>
    obtain rfl : parsed.tree = tree := by simpa [hread, hparse, hsound] using htree
    exact FileSymbols.ofTree_ne_ok hd hkept hinvalid s hsymbols

theorem declaring_eq_ok_iff :
    Sources.declaring disk exclusions root = .ok files ↔
      ∃ here tree met, disk.resolve root = .ok (here, tree) ∧
        Sources.filesMet root (tree.walk fun _ => true) = .ok met ∧
          met.filter (Sources.isDeclaring exclusions root) = files := by
  unfold Sources.declaring
  cases disk.resolve root with
  | error cause => simp
  | ok result => simp [bind_eq_ok_iff, Prod.ext_iff]

theorem declaring_eq_error_iff {e : WalkError} :
    Sources.declaring disk exclusions root = .error e ↔
      (∃ cause, disk.resolve root = .error cause ∧ e = ⟨root, cause⟩) ∨
        ∃ here tree, disk.resolve root = .ok (here, tree) ∧
          Sources.filesMet root (tree.walk fun _ => true) = .error e := by
  unfold Sources.declaring
  cases disk.resolve root with
  | error cause => simp [eq_comm]
  | ok result => simp [bind_eq_error_iff, Prod.ext_iff]

theorem mem_declaring_iff (h : Sources.declaring disk exclusions root = .ok files) :
    names ∈ files ↔ Scanned disk exclusions root names := by
  obtain ⟨here, tree, met, hroot, hmet, rfl⟩ := declaring_eq_ok_iff.mp h
  have hwalk : names ∈ met ↔ (names, .file) ∈ tree.walk fun _ => true := by
    simp [Sources.filesMet_eq_ok_iff.mp hmet]
  rw [List.mem_filter, hwalk, Tree.mem_walk_file_iff]
  constructor
  · rintro ⟨⟨sub, hleads, hfile, -⟩, hdeclaring⟩
    exact ⟨⟨here, tree, sub, hroot, hleads, hfile⟩, hdeclaring⟩
  · rintro ⟨⟨here', tree', sub, hroot', hleads, hfile⟩, hdeclaring⟩
    obtain ⟨rfl, rfl⟩ := Prod.mk.inj (Except.ok.inj (hroot.symm.trans hroot'))
    exact ⟨⟨sub, hleads, hfile, fun _ _ => rfl⟩, hdeclaring⟩

theorem flaw_of_declaring_eq_error {e : WalkError}
    (h : Sources.declaring disk exclusions root = .error e) :
    Flaw parse disk exclusions root (.walk root e) := by
  rcases declaring_eq_error_iff.mp h with ⟨cause, hroot, rfl⟩ | ⟨here, tree, hroot, hmet⟩
  · exact .unresolved hroot
  · obtain ⟨names, hclosed, rfl⟩ := Sources.exists_of_filesMet_eq_error hmet
    exact .closed hroot (Tree.mem_walk_closed_iff.mp hclosed).1

theorem ofRoot_eq_ok_iff :
    ofRoot parse disk exclusions root = .ok found ↔
      ∃ files symbols, Sources.declaring disk exclusions root = .ok files ∧
        List.Forall₂ (fun names s => ofFile parse disk root names = .ok s) files symbols ∧
          merge symbols = .ok found := by
  simp only [ofRoot, bind_eq_ok_iff, mapError_eq_ok_iff, mapM_eq_ok_iff, exists_and_left]

/-- An extraction fails with something that is wrong. -/
theorem flaw_of_ofRoot_eq_error (h : ofRoot parse disk exclusions root = .error e) :
    Flaw parse disk exclusions root e := by
  simp only [ofRoot, bind_eq_error_iff, mapError_eq_error_iff, mapError_eq_ok_iff] at h
  rcases h with ⟨e, hdeclaring, rfl⟩ | ⟨files, hfiles, hfile | ⟨symbols, hsymbols, e, hmerge, rfl⟩⟩
  · exact flaw_of_declaring_eq_error hdeclaring
  · obtain ⟨names, hnames, herror⟩ := exists_of_mapM_eq_error hfile
    exact .file ((mem_declaring_iff hfiles).mp hnames) (fileFlaw_of_ofFile_eq_error herror)
  · obtain ⟨before, first, second, after, hplaces, -, hfirst, rfl⟩ :=
      (@duplicate?_eq_some_iff [] _ e .nil).mp (merge_eq_error_iff.mp hmerge)
    rw [List.nil_append] at hfirst
    have hname : first.1 = second.1 := by simpa using List.find?_some hfirst
    have hsublist : [first, second].Sublist (places symbols) := by
      rw [hplaces]
      exact (List.singleton_sublist.mpr (List.mem_of_find?_eq_some hfirst)).append
        (List.singleton_sublist.mpr List.mem_cons_self)
    exact .duplicate hfiles (mapM_eq_ok_iff.mp hsymbols) hsublist hname

/-- Whatever is wrong makes an extraction fail. -/
theorem Flaw.ne_ok (h : Flaw parse disk exclusions root e) :
    ofRoot parse disk exclusions root ≠ .ok found := by
  intro hok
  obtain ⟨files, symbols, hfiles, hsymbols, hmerge⟩ := ofRoot_eq_ok_iff.mp hok
  cases h with
  | unresolved h => simp [Sources.declaring, h] at hfiles
  | @closed here tree names h hclosed =>
    obtain ⟨here', tree', met, hroot, hmet, -⟩ := declaring_eq_ok_iff.mp hfiles
    obtain ⟨rfl, rfl⟩ := Prod.mk.inj (Except.ok.inj (h.symm.trans hroot))
    refine Sources.exists_filesMet_iff.mp ⟨met, hmet⟩ names ?_
    exact Tree.mem_walk_closed_iff.mpr ⟨hclosed, fun _ _ => rfl⟩
  | @file names e h hflaw =>
    obtain ⟨s, hs⟩ := exists_mapM_eq_ok_iff.mp ⟨symbols, mapM_eq_ok_iff.mpr hsymbols⟩ names
      ((mem_declaring_iff hfiles).mpr h)
    exact hflaw.ne_ok s hs
  | @duplicate files' symbols' first second hfiles' hsymbols' hplaces hname =>
    obtain rfl : files = files' := Except.ok.inj (hfiles.symm.trans hfiles')
    obtain rfl : symbols = symbols' := Except.ok.inj
      ((mapM_eq_ok_iff.mpr hsymbols).symm.trans (mapM_eq_ok_iff.mpr hsymbols'))
    have hnodup := exists_merge_iff.mp ⟨found, hmerge⟩
    rw [← places_names] at hnodup
    have hpair := hnodup.sublist (hplaces.map (·.1))
    simp [hname] at hpair

theorem ordered_ofRoot (h : ofRoot parse disk exclusions root = .ok found) :
    found.table.Ordered := by
  obtain ⟨_, _, _, _, hmerge⟩ := ofRoot_eq_ok_iff.mp h
  exact ordered_merge hmerge

end Root

end Extraction

namespace SymbolTable

/-- A table is loaded as it was saved. -/
theorem load_of_save {table : SymbolTable} (hordered : table.Ordered) {disk written : Disk}
    {path : String} (h : table.save disk path = .ok written) : load written path = .ok table := by
  have hwrite : disk.write path (Text.encode (table.toText ++ "\n")) = .ok written :=
    mapError_eq_ok_iff.mp h
  have htext : written.readText path = .ok (table.toText ++ "\n") := by
    simp [Disk.readText, Disk.read_write hwrite, Text.decode?_encode]
  have hread : ofText (table.toText ++ "\n") = .ok table := ofText_toText_append hordered 1
  simp [load, htext, hread]

end SymbolTable

namespace Command.GenerateArguments

variable {args : GenerateArguments} {parse : Php.Parser} {disk : Disk} {found : Extraction}

/-- What can be wrong with what a command is given, and the failure that tells of it. -/
inductive Flaw (args : GenerateArguments) (parse : Php.Parser) (disk : Disk) : Failure → Prop
  | settings {failure : Failure} (h : settings disk args.config = .error failure) :
      Flaw args parse disk failure
  | extraction {config : Config} {e : ExtractionError} (h : settings disk args.config = .ok config)
      (hflaw : Extraction.Flaw parse disk
        (config.extractExclusions.getD Extraction.defaultExclusions) args.root e) :
      Flaw args parse disk (.extraction e)

theorem extract_eq_ok_iff :
    args.extract parse disk = .ok found ↔
      ∃ config, settings disk args.config = .ok config ∧
        Extraction.ofRoot parse disk (config.extractExclusions.getD Extraction.defaultExclusions)
          args.root = .ok found := by
  simp only [extract, bind_eq_ok_iff, mapError_eq_ok_iff]

theorem ordered_extract (h : args.extract parse disk = .ok found) : found.table.Ordered := by
  obtain ⟨_, _, hroot⟩ := extract_eq_ok_iff.mp h
  exact Extraction.ordered_ofRoot hroot

theorem flaw_of_extract_eq_error {failure : Failure}
    (h : args.extract parse disk = .error failure) :
    args.Flaw parse disk failure := by
  simp only [extract, bind_eq_error_iff, mapError_eq_error_iff] at h
  rcases h with hsettings | ⟨config, hsettings, e, hroot, rfl⟩
  · exact .settings hsettings
  · exact .extraction hsettings (Extraction.flaw_of_ofRoot_eq_error hroot)

theorem Flaw.ne_ok {failure : Failure} (h : args.Flaw parse disk failure) :
    args.extract parse disk ≠ .ok found := by
  intro hok
  obtain ⟨config, hconfig, hroot⟩ := extract_eq_ok_iff.mp hok
  cases h with
  | settings h => cases h.symm.trans hconfig
  | extraction h hflaw =>
    obtain rfl := Except.ok.inj (h.symm.trans hconfig)
    exact hflaw.ne_ok hroot

/-- A run fails because of what is wrong, or because the table cannot be written, and leaves the
disk; or it saves the table that was extracted. -/
theorem run_cases (args : GenerateArguments) (parse : Php.Parser) (disk : Disk) :
    (∃ failure, args.Flaw parse disk failure ∧ args.run parse disk = (.error failure, disk)) ∨
      ∃ found, args.extract parse disk = .ok found ∧
        ((∃ e, found.table.save disk args.output = .error e ∧
          args.run parse disk = (.error (.table e), disk)) ∨
        ∃ written, found.table.save disk args.output = .ok written ∧
          args.run parse disk =
            (.ok { verdict := .success, remarks := args.remarks found }, written)) := by
  cases hfound : args.extract parse disk with
  | error failure =>
    exact .inl ⟨failure, flaw_of_extract_eq_error hfound, by simp [run, hfound]⟩
  | ok found =>
    refine .inr ⟨found, rfl, ?_⟩
    cases hsave : found.table.save disk args.output with
    | error e => exact .inl ⟨e, rfl, by simp [run, hfound, hsave]⟩
    | ok written => exact .inr ⟨written, rfl, by simp [run, hfound, hsave]⟩

/-- Whatever is wrong with the settings, a directory or a source makes a run fail. A run that fails
leaves the disk as it was, and it fails for nothing else unless the table itself cannot be written.
After a run that does not fail, the table that was extracted is loaded from the file that was
named. -/
theorem run_all_or_nothing (args : GenerateArguments) (parse : Php.Parser) (disk : Disk) :
    (∀ flaw, args.Flaw parse disk flaw → ∃ failure, args.Flaw parse disk failure ∧
      args.run parse disk = (.error failure, disk)) ∧
    (∀ failure, (args.run parse disk).1 = .error failure →
      (args.run parse disk).2 = disk ∧
        (args.Flaw parse disk failure ∨ ∃ found e, args.extract parse disk = .ok found ∧
          found.table.save disk args.output = .error e ∧ failure = .table e)) ∧
    ∀ output, (args.run parse disk).1 = .ok output → output.verdict.exitCode = 0 ∧
      ∃ found table, args.extract parse disk = .ok found ∧
        SymbolTable.load (args.run parse disk).2 args.output = .ok table ∧
          table.symbols = found.table.symbols ∧ table.classes = found.table.classes := by
  rcases run_cases args parse disk with ⟨failure, hflaw, hrun⟩ |
    ⟨found, hfound, ⟨e, hsave, hrun⟩ | ⟨written, hsave, hrun⟩⟩
  · rw [hrun]
    refine ⟨fun _ _ => ⟨failure, hflaw, rfl⟩, fun other hother => ?_, fun output houtput => ?_⟩
    · obtain rfl := Except.error.inj hother
      exact ⟨rfl, .inl hflaw⟩
    · cases houtput
  · rw [hrun]
    refine ⟨fun _ hflaw => absurd hfound hflaw.ne_ok, fun other hother => ?_,
      fun output houtput => ?_⟩
    · exact ⟨rfl, .inr ⟨found, e, hfound, hsave, (Except.error.inj hother).symm⟩⟩
    · cases houtput
  · rw [hrun]
    refine ⟨fun _ hflaw => absurd hfound hflaw.ne_ok, fun other hother => ?_,
      fun output houtput => ?_⟩
    · cases hother
    · cases houtput
      have hload := SymbolTable.load_of_save (ordered_extract hfound) hsave
      exact ⟨rfl, found, found.table, hfound, hload, rfl, rfl⟩

def sources (files : List (String × Tree)) : Disk where
  tree := .directory [("src", .directory files)]

/-- A function with its version. -/
def described : String × Tree :=
  ("a.php", .file (Text.encode "<?php /** @since 4.1 */ function f()\x7b\x7d"))

/-- What may be wrong with sources. -/
def flaws : List (List (String × Tree) × ExtractionError) := [
  ([described, ("b", .locked true)], .walk "/src" ⟨"/src/b", .denied⟩),
  ([("b.php", .locked false)], .unreadable "/src/b.php" .denied),
  ([described, ("b.php", .file (Text.encode "<?php ("))], .syntaxError "/src/b.php"),
  ([("b.php", .file (Text.encode "<?php /** @since x */ function g()\x7b\x7d"))],
    .invalidSince "/src/b.php" ⟨"x", "g", 1⟩),
  ([described, ("b.php", .file (Text.encode "<?php\n/** @since 1.0 */ function f()\x7b\x7d"))],
    .duplicate ⟨"f", "a.php:1", "b.php:2"⟩)]

theorem run_all_or_nothing_described :
    let args : GenerateArguments := { root := "/src", output := "src/table.json" }
    let sound := sources [described, ("b.php", .file (Text.encode
      "<?php /** @since 2.0 */ class A extends B \x7bfunction f()\x7b\x7d\x7d"))]
    (∃ output table, (args.run Php.parser sound).1 = .ok output ∧
      SymbolTable.load (args.run Php.parser sound).2 "src/table.json" = .ok table ∧
      table.symbols = [("A::f", ⟨⟨2, 0, 0⟩, none⟩), ("f", ⟨⟨4, 1, 0⟩, none⟩)] ∧
      table.classes = [("A", ⟨some "B"⟩)]) ∧
    ∀ flaw ∈ flaws, args.run Php.parser (sources flaw.1) =
      (.error (.extraction flaw.2), sources flaw.1) := by
  intro args sound
  have hsound : (args.run Php.parser sound).1 = .ok {
        verdict := .success
        remarks := "Wrote 2 symbols from 2 files to src/table.json (0 omitted)\n" } ∧
      (args.extract Php.parser sound).map (·.table) = .ok {
        symbols := [("A::f", ⟨⟨2, 0, 0⟩, none⟩), ("f", ⟨⟨4, 1, 0⟩, none⟩)]
        classes := [("A", ⟨some "B"⟩)] } := by
    decide +kernel
  have hfailures : ∀ flaw ∈ flaws, (args.run Php.parser (sources flaw.1)).1 =
      .error (.extraction flaw.2) := by
    decide +kernel
  obtain ⟨houtput, htable⟩ := hsound
  obtain ⟨-, -, hwritten⟩ := run_all_or_nothing args Php.parser sound
  obtain ⟨-, found, table, hfound, hload, hsymbols, hclasses⟩ := hwritten _ houtput
  rw [hfound] at htable
  have hexpected : found.table = _ := Except.ok.inj htable
  rw [hexpected] at hsymbols hclasses
  refine ⟨⟨_, table, houtput, hload, hsymbols, hclasses⟩, fun flaw hflaw => ?_⟩
  obtain ⟨-, hfails, -⟩ := run_all_or_nothing args Php.parser (sources flaw.1)
  have hfailure := hfailures flaw hflaw
  exact Prod.ext hfailure (hfails _ hfailure).1

end Command.GenerateArguments

end Availability
