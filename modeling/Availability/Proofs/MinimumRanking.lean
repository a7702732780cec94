import Availability.Command.Session
import Availability.Proofs.CollectedSources
import Availability.Proofs.TableGeneration
import Availability.Proofs.TableLookup
import Mathlib.Data.List.ReduceOption

/-!
# Where the least supported version comes from

The places that can state the version have an order of rank. The first of them that is there decides
alone: what is wrong with it is an error, and the places below it are not asked.
-/
namespace Availability

open Files

/-- What the least supported version is taken from. -/
inductive MinimumOrigin where
  /-- A text that is given for the version. -/
  | stated (text : String)
  /-- The header of a file. -/
  | header (path : String)
  /-- A directory that has to be searched for such a file and cannot be. -/
  | closed (dir : String)

namespace MinimumOrigin

/-- What a text leads to: its version without the whitespace around it, or an error that names the
place of the text. -/
inductive Reads (text place : String) : Except MinimumError Version → Prop
  | version {v : Version} (h : Version.parse (Text.trim text) = .ok v) : Reads text place (.ok v)
  | malformed {e : Version.Malformed} (h : Version.parse (Text.trim text) = .error e) :
    Reads text place (.error (.invalid text place))

/-- What an origin leads to. -/
inductive Yields (disk : Disk) : MinimumOrigin → Except MinimumError Version → Prop
  | stated {text : String} {outcome : Except MinimumError Version}
      (h : Reads text "explicit setting" outcome) : Yields disk (.stated text) outcome
  | header {path text : String} {content : Text.Bytes} {outcome : Except MinimumError Version}
      (hread : disk.read path = .ok content)
      (hvalue : Header.ofBytes? Header.requiresAtLeast content = some text)
      (h : Reads text path outcome) : Yields disk (.header path) outcome
  | headless {path : String} {content : Text.Bytes} (hread : disk.read path = .ok content)
      (hvalue : Header.ofBytes? Header.requiresAtLeast content = none) :
      Yields disk (.header path) (.error (.missing path))
  | unreadable {path : String} {cause : Files.Error} (hread : disk.read path = .error cause) :
      Yields disk (.header path) (.error (.unreadable path cause))
  | closed {dir : String} {cause : Files.Error} (hlist : disk.list dir = .error cause) :
      Yields disk (.closed dir) (.error (.unreadable dir cause))

variable {disk : Disk} {text place path : String} {outcome : Except MinimumError Version}

theorem reads_iff : Reads text place outcome ↔ Minimum.parse text place = outcome := by
  unfold Minimum.parse
  cases hversion : Version.ofString? (Text.trim text) with
  | some v =>
    have hparse : Version.parse (Text.trim text) = .ok v := by rw [Version.parse, hversion]
    constructor
    · intro h
      cases h with
      | version h => rw [Except.ok.inj (h.symm.trans hparse)]
      | malformed h => simp [hparse] at h
    · rintro rfl
      exact .version hparse
  | none =>
    have hparse : Version.parse (Text.trim text) = .error ⟨Text.trim text⟩ := by
      rw [Version.parse, hversion]
    constructor
    · intro h
      cases h with
      | version h => simp [hparse] at h
      | malformed => rfl
    · rintro rfl
      exact .malformed hparse

theorem yields_stated_iff :
    Yields disk (.stated text) outcome ↔ Minimum.parse text "explicit setting" = outcome := by
  rw [← reads_iff]
  constructor
  · intro h
    cases h with
    | stated h => exact h
  · exact .stated

theorem yields_header_iff :
    Yields disk (.header path) outcome ↔ Minimum.ofManifest disk path = outcome := by
  unfold Minimum.ofManifest Minimum.header?
  constructor
  · intro h
    cases h with
    | header hread hvalue h => simpa [hread, hvalue] using reads_iff.mp h
    | headless hread hvalue => simp [hread, hvalue]
    | unreadable hread => simp [hread]
  · rintro rfl
    cases hread : disk.read path with
    | error cause => exact .unreadable hread
    | ok content =>
      simp only [map_ok]
      cases hvalue : Header.ofBytes? Header.requiresAtLeast content with
      | none => exact .headless hread hvalue
      | some text => exact .header hread hvalue (reads_iff.mpr rfl)

theorem yields_closed_iff {dir : String} {cause : Files.Error}
    (hlist : disk.list dir = .error cause) :
    Yields disk (.closed dir) outcome ↔ .error (.unreadable dir cause) = outcome := by
  constructor
  · intro h
    cases h with
    | closed hlist' => rw [Except.error.inj (hlist.symm.trans hlist')]
  · rintro rfl
    exact .closed hlist

end MinimumOrigin

namespace Minimum

/-- A file of a directory that has the header. -/
def States (entries : List (String × Tree)) (name : String) : Prop :=
  ∃ content, (name, .file content) ∈ entries ∧
    (Header.ofBytes? Header.requiresAtLeast content).isSome = true

/-- The file of a directory that states the version: the stylesheet if it has the header, else the
first source by the bytes of its name that has it. -/
inductive Elected (entries : List (String × Tree)) : String → Prop
  | stylesheet (h : States entries "style.css") : Elected entries "style.css"
  | source {name : String} (hstyle : ¬ States entries "style.css")
      (hextension : Path.HasExtension name "php") (h : States entries name)
      (hfirst : ∀ other, Path.HasExtension other "php" → States entries other →
        other = name ∨ Text.encode name < Text.encode other) : Elected entries name

variable {disk : Disk} {root name : String} {here : List String} {entries : List (String × Tree)}

/-- A file of a directory is read by its name. -/
theorem read_join_iff (h : (Tree.directory entries).Proper)
    (hroot : disk.resolve root = .ok (here, .directory entries)) (hname : IsName name)
    {content : Text.Bytes} :
    disk.read (Path.join root name) = .ok content ↔ (name, .file content) ∈ entries := by
  have hresolve (t : Tree) (there : List String) :
      disk.resolve (Path.join root name) = .ok (there, t) ↔
        there = here ++ [name] ∧ (name, t) ∈ entries := by
    have hjoin := @Disk.resolve_join_iff _ t here there [name] disk root hroot (by simp)
      (by simpa using hname)
    rw [Tree.find?_cons_iff h] at hjoin
    simpa [Path.relative] using hjoin
  rw [Disk.read_eq_ok_iff]
  constructor
  · rintro ⟨there, hfound⟩
    exact ((hresolve _ there).mp hfound).2
  · intro hmem
    exact ⟨here ++ [name], (hresolve _ _).mpr ⟨rfl, hmem⟩⟩

theorem hasHeader_eq_true_iff {path : String} : hasHeader disk path = true ↔
    ∃ content, disk.read path = .ok content ∧
      (Header.ofBytes? Header.requiresAtLeast content).isSome = true := by
  unfold hasHeader header?
  cases hread : disk.read path with
  | error cause => simp
  | ok content =>
    cases hvalue : Header.ofBytes? Header.requiresAtLeast content with
    | none => simp [hvalue]
    | some text => simp [hvalue]

theorem hasHeader_iff (h : (Tree.directory entries).Proper)
    (hroot : disk.resolve root = .ok (here, .directory entries)) (hname : IsName name) :
    hasHeader disk (Path.join root name) = true ↔ States entries name := by
  simp only [hasHeader_eq_true_iff, read_join_iff h hroot hname, States]

theorem isFile_of_hasHeader {path : String} (h : hasHeader disk path = true) :
    disk.isFile path = true := by
  obtain ⟨content, hread, -⟩ := hasHeader_eq_true_iff.mp h
  obtain ⟨there, hresolve⟩ := Disk.read_eq_ok_iff.mp hread
  simp [Disk.isFile, hresolve]

theorem not_isDirectory_of_hasHeader (h : (Tree.directory entries).Proper)
    (hroot : disk.resolve root = .ok (here, .directory entries)) {entry : String × Tree}
    (hmem : entry ∈ entries) (hheader : hasHeader disk (Path.join root entry.1) = true) :
    entry.2.isDirectory = false := by
  obtain ⟨hascending, hnames⟩ := Tree.properEntries_iff.mp h
  obtain ⟨content, hfile, -⟩ := (hasHeader_iff h hroot (hnames entry hmem).1).mp hheader
  have hentry := List.inj_on_of_nodup_map hascending.nodup_keys hmem hfile rfl
  rw [hentry]
  rfl

/-- Of the sources of a directory the first one with the header is found. -/
theorem find?_elected_iff (h : (Tree.directory entries).Proper)
    (hroot : disk.resolve root = .ok (here, .directory entries))
    (hstyle : ¬ States entries "style.css") :
    (∃ t, entries.find? (fun entry =>
      Path.isSource entry.1 && hasHeader disk (Path.join root entry.1)) = some (name, t)) ↔
      Elected entries name := by
  obtain ⟨hascending, hnames⟩ := Tree.properEntries_iff.mp h
  have htest (entry : String × Tree) (hmem : entry ∈ entries) :
      (Path.isSource entry.1 && hasHeader disk (Path.join root entry.1)) = true ↔
        Path.HasExtension entry.1 "php" ∧ States entries entry.1 := by
    rw [Bool.and_eq_true, Path.isSource_iff, hasHeader_iff h hroot (hnames entry hmem).1]
  have hfind (found : String × Tree) := @Keyed.Ascending.find?_eq_some_iff Tree entries hascending
    (fun name => Path.isSource name && hasHeader disk (Path.join root name)) found
  constructor
  · rintro ⟨t, hfound⟩
    obtain ⟨hmem, hpasses, hfirst⟩ := (hfind (name, t)).mp hfound
    obtain ⟨hextension, hstates⟩ := (htest (name, t) hmem).mp hpasses
    refine .source hstyle hextension hstates fun other hother hstates' => ?_
    obtain ⟨content, hmem', -⟩ := id hstates'
    rcases hfirst _ hmem' ((htest _ hmem').mpr ⟨hother, hstates'⟩) with heq | hlt
    · exact .inl (congrArg Prod.fst heq)
    · exact .inr (Text.encode_lt_iff.mpr hlt)
  · intro helected
    cases helected with
    | stylesheet hstates => exact absurd hstates hstyle
    | source _ hextension hstates hfirst =>
      obtain ⟨content, hmem, -⟩ := id hstates
      refine ⟨.file content, (hfind _).mpr ⟨hmem, (htest _ hmem).mpr ⟨hextension, hstates⟩,
        fun other hother hpasses => ?_⟩⟩
      obtain ⟨hextension', hstates'⟩ := (htest other hother).mp hpasses
      rcases hfirst other.1 hextension' hstates' with heq | hlt
      · exact .inl (List.inj_on_of_nodup_map hascending.nodup_keys hother hmem heq)
      · exact .inr (Text.encode_lt_iff.mp hlt)

/-- A directory is searched for the file that states the version. -/
theorem findManifest_elected (h : (Tree.directory entries).Proper)
    (hroot : disk.resolve root = .ok (here, .directory entries)) : ∃ found : Option String,
      findManifest disk root = .ok (found.map (Path.join root)) ∧
        ∀ name, found = some name ↔ Elected entries name := by
  have hname : IsName stylesheet := by decide
  by_cases hstyle : States entries "style.css"
  · refine ⟨some stylesheet, ?_, fun name => ⟨?_, fun helected => ?_⟩⟩
    · have hheader := (hasHeader_iff h hroot hname).mpr hstyle
      simp [findManifest, hheader, isFile_of_hasHeader hheader]
    · rintro ⟨⟩
      exact .stylesheet hstyle
    · cases helected with
      | stylesheet => rfl
      | source hother => exact absurd hstyle hother
  · have hheader : hasHeader disk (Path.join root stylesheet) = false := by
      rw [← Bool.not_eq_true, hasHeader_iff h hroot hname]
      exact hstyle
    have hlist : disk.list root = .ok entries := by simp [Disk.list, hroot]
    -- what has the header is no directory
    have hfilter : (entries.filter fun entry => !entry.2.isDirectory && Path.isSource entry.1).find?
        (fun entry => hasHeader disk (Path.join root entry.1)) = entries.find? fun entry =>
          Path.isSource entry.1 && hasHeader disk (Path.join root entry.1) := by
      rw [← List.head?_filter, ← List.head?_filter, List.filter_filter]
      refine congrArg List.head? (List.filter_congr fun entry hmem => ?_)
      cases hfound : hasHeader disk (Path.join root entry.1) with
      | false => simp
      | true =>
        have hfile := not_isDirectory_of_hasHeader h hroot hmem hfound
        simp [hfile]
    refine ⟨(entries.find? fun entry =>
      Path.isSource entry.1 && hasHeader disk (Path.join root entry.1)).map Prod.fst, ?_, ?_⟩
    · simp [findManifest, hheader, hlist, List.find?_map, Function.comp_def, hfilter]
    · intro name
      rw [← find?_elected_iff h hroot hstyle]
      simp

/-- Nothing is found in a directory that cannot be looked into. -/
theorem findManifest_closed (hroot : disk.resolve root = .ok (here, .locked true)) :
    disk.list root = .error .denied ∧
      findManifest disk root = .error (.unreadable root .denied) := by
  have hlist : disk.list root = .error .denied := by
    simp [Disk.list, hroot, Tree.refusal]
  have hheader : hasHeader disk (Path.join root stylesheet) = false := by
    rw [← Bool.not_eq_true, hasHeader_eq_true_iff]
    rintro ⟨content, hread, -⟩
    obtain ⟨there, hresolve⟩ := Disk.read_eq_ok_iff.mp hread
    have hname : ∀ name ∈ [stylesheet], IsName name := by decide
    have hfind := ((Disk.resolve_join_iff hroot (by simp) hname).mp hresolve).2
    simp at hfind
  exact ⟨hlist, by simp [findManifest, hheader, hlist]⟩

/-- What is found by a search has the header, so that it does not lack it when it is read. -/
theorem hasHeader_of_findManifest {path : String}
    (h : findManifest disk root = .ok (some path)) : hasHeader disk path = true := by
  unfold findManifest at h
  dsimp only at h
  split at h
  · rename_i hstyle
    obtain rfl := Option.some.inj (Except.ok.inj h)
    exact (Bool.and_eq_true _ _ ▸ hstyle).2
  · split at h
    · cases h
    · exact List.find?_some (Except.ok.inj h)

theorem parse_ne_missing (text place searched : String) :
    parse text place ≠ .error (.missing searched) := by
  unfold parse
  split <;> simp

theorem ofManifest_ne_missing {path : String} (h : hasHeader disk path = true)
    (searched : String) : ofManifest disk path ≠ .error (.missing searched) := by
  obtain ⟨content, hread, hvalue⟩ := hasHeader_eq_true_iff.mp h
  obtain ⟨text, htext⟩ := Option.isSome_iff_exists.mp hvalue
  simp [ofManifest, header?, hread, htext, parse_ne_missing]

end Minimum

theorem MinimumSource.resolve_ne_missing {source : MinimumSource} {disk : Disk} {root path : String}
    (hmanifest : source.manifest = none) (hroot : source.searchRoot = some root)
    (h : Minimum.findManifest disk root = .ok (some path)) (searched : String) :
    source.resolve disk ≠ .error (.missing searched) := by
  unfold resolve
  rw [hmanifest, hroot]
  cases source.explicit with
  | some text =>
    exact Minimum.parse_ne_missing text _ searched
  | none =>
    simp only [h]
    exact Minimum.ofManifest_ne_missing (Minimum.hasHeader_of_findManifest h) searched

namespace Config

theorem exists_excluded_of_validate {config valid : Config} (h : config.validate = .ok valid) :
    valid = config ∧ ∃ patterns, config.excluded = .ok patterns := by
  unfold validate at h
  cases hvalue : config.requiresAtLeast with
  | none =>
    simp only [hvalue, bind_eq_ok_iff] at h
    obtain ⟨patterns, hpatterns, hvalid⟩ := h
    exact ⟨(Except.ok.inj hvalid).symm, patterns, hpatterns⟩
  | some value =>
    simp only [hvalue, bind_eq_ok_iff] at h
    obtain ⟨_, -, patterns, hpatterns, hvalid⟩ := h
    exact ⟨(Except.ok.inj hvalid).symm, patterns, hpatterns⟩

/-- The patterns of settings that were loaded can be used. -/
theorem exists_excluded_of_discover {disk : Disk} {given : Option String} {dir : String}
    {config : Config} (h : discover disk given dir = .ok config) :
    ∃ patterns, config.excluded = .ok patterns := by
  unfold discover at h
  split at h
  · simp only [load, bind_eq_ok_iff] at h
    obtain ⟨text, -, hconfig⟩ := h
    split at hconfig
    · cases hconfig
    · rename_i read _
      obtain ⟨rfl, hpatterns⟩ := exists_excluded_of_validate hconfig
      exact hpatterns
  · cases h
    exact ⟨[], rfl⟩

end Config

namespace Command.CheckArguments

variable {args : CheckArguments} {config : Config} {disk : Disk}

/-- What a search of a root leads to, if it leads to anything. -/
def searched? (root : String) : Except MinimumError (Option String) → Option MinimumOrigin
  | .ok found => found.map fun name => .header (Path.join root name)
  | .error _ => some (.closed root)

/-- The places that state a version and are there, from the highest rank to the lowest. -/
def origins (args : CheckArguments) (config : Config) (disk : Disk) (root : String)
    (found : Except MinimumError (Option String)) : List MinimumOrigin :=
  List.reduceOption [
    args.requiresAtLeast.map .stated,
    config.requiresAtLeast.map .stated,
    args.pluginFile.map fun path => .header (locate disk root path),
    config.pluginFile.map fun path => .header (locate disk root path),
    searched? root found]

/-- The first origin that is there decides. -/
theorem resolve_origins {root : String} {found : Except MinimumError (Option String)}
    (hfound : Minimum.findManifest disk root = found.map (Option.map (Path.join root)))
    (hclosed : ∀ e, found = .error e →
      ∃ cause, disk.list root = .error cause ∧ e = .unreadable root cause) :
    match args.origins config disk root found with
    | [] => (args.minimumSource config disk root).resolve disk = .error (.missing root)
    | origin :: _ => ∀ outcome,
        (args.minimumSource config disk root).resolve disk = outcome ↔
          origin.Yields disk outcome := by
  unfold origins minimumSource MinimumSource.resolve
  cases args.requiresAtLeast with
  | some text => exact fun outcome => MinimumOrigin.yields_stated_iff.symm
  | none =>
    cases config.requiresAtLeast with
    | some text => exact fun outcome => MinimumOrigin.yields_stated_iff.symm
    | none =>
      cases args.pluginFile with
      | some path => exact fun outcome => MinimumOrigin.yields_header_iff.symm
      | none =>
        cases config.pluginFile with
        | some path => exact fun outcome => MinimumOrigin.yields_header_iff.symm
        | none =>
          match found with
          | .error e =>
            obtain ⟨cause, hlist, rfl⟩ := hclosed e rfl
            simp [hfound, List.reduceOption, searched?, MinimumOrigin.yields_closed_iff hlist]
          | .ok (some name) =>
            simp [hfound, List.reduceOption, searched?, MinimumOrigin.yields_header_iff]
          | .ok none => simp [hfound, List.reduceOption, searched?]

section Plan

variable {names : List String} {tree : Tree} (hconfig : settings disk args.config = .ok config)
  (hpath : disk.resolve args.path = .ok (names, tree))

include hconfig hpath

theorem minimum_of_plan {plan : Plan} (h : args.plan disk = .ok plan) :
    (args.minimumSource config disk (root names tree)).resolve disk = .ok plan.check.minimum := by
  simp only [CheckArguments.plan, hconfig, hpath, bind_eq_ok_iff, mapError_eq_ok_iff] at h
  obtain ⟨_, hconfig', _, hpath', table, -, minimum, hminimum, excluded, -, paths, -, hplan⟩ := h
  obtain rfl := Except.ok.inj hconfig'
  obtain rfl := Except.ok.inj hpath'
  obtain rfl := Except.ok.inj hplan
  exact hminimum

theorem plan_of_error {table : SymbolTable} {e : MinimumError}
    (htable : SymbolTable.load disk (args.tableFile config) = .ok table)
    (h : (args.minimumSource config disk (root names tree)).resolve disk = .error e) :
    args.plan disk = .error (.config (.minimum e)) := by
  simp [CheckArguments.plan, hconfig, hpath, htable, h]

theorem plan_of_ok (hdisk : disk.Proper) {table : SymbolTable} {version : Version}
    (htable : SymbolTable.load disk (args.tableFile config) = .ok table)
    (h : (args.minimumSource config disk (root names tree)).resolve disk = .ok version) :
    ((∀ dirs, ¬ Sources.Blocking tree dirs) →
        ∃ plan, args.plan disk = .ok plan ∧ plan.check.minimum = version) ∧
      ∀ dirs, Sources.Blocking tree dirs → ∃ e, args.plan disk = .error (.walk e) := by
  obtain ⟨patterns, hpatterns⟩ := Config.exists_excluded_of_discover (mapError_eq_ok_iff.mp hconfig)
  have hfind := Disk.find?_of_resolve hpath
  have hcollect := @Sources.exists_collect_iff (Glob.acceptsAny patterns) tree _ _ names
    (hdisk.tree.of_find? hfind).1 (Disk.resolve_ofNames hdisk hfind)
  cases hpaths : Sources.collect disk (Glob.acceptsAny patterns) (Path.ofNames names) with
  | ok paths =>
    refine ⟨fun _ => ⟨⟨⟨root names tree, table, version, config.platformName⟩, paths⟩, ?_, rfl⟩,
      fun dirs hblocking => absurd hblocking (hcollect.mp ⟨paths, hpaths⟩ dirs)⟩
    simp [CheckArguments.plan, hconfig, hpath, htable, h, hpatterns, hpaths]
  | error e =>
    refine ⟨fun hopen => ?_, fun dirs _ => ⟨e, ?_⟩⟩
    · obtain ⟨paths, hok⟩ := hcollect.mpr hopen
      cases hpaths.symm.trans hok
    · simp [CheckArguments.plan, hconfig, hpath, htable, h, hpatterns, hpaths]

end Plan

/-- The root of a check is a directory: what is checked, or the one that a file is in. Only the
former may be closed. -/
theorem resolve_root (hdisk : disk.Proper) {names : List String} {tree : Tree}
    (h : disk.tree.find? names = some tree) :
    (∃ here entries, disk.resolve (root names tree) = .ok (here, .directory entries) ∧
      (Tree.directory entries).Proper) ∨
      disk.resolve (root names tree) = .ok (names, .locked true) := by
  cases hdirectory : tree.isDirectory with
  | true =>
    have hresolve := Disk.resolve_ofNames hdisk h
    rw [root, hdirectory, if_pos rfl]
    cases tree with
    | directory entries => exact .inl ⟨names, entries, hresolve, (hdisk.tree.of_find? h).1⟩
    | locked isDirectory =>
      obtain rfl : isDirectory = true := hdirectory
      exact .inr hresolve
    | file content => cases hdirectory
  | false =>
    have hne : names ≠ [] := by
      rintro rfl
      obtain ⟨entries, htree⟩ := hdisk.directory
      obtain rfl : disk.tree = tree := by simpa using h
      simp [htree] at hdirectory
    rw [← List.dropLast_append_getLast hne, Tree.find?_append] at h
    obtain ⟨sub, hsub, hlast⟩ := Option.bind_eq_some_iff.mp h
    rw [root, hdirectory, if_neg Bool.false_ne_true]
    cases sub with
    | file other => simp at hlast
    | locked isDirectory => simp at hlast
    | directory entries =>
      exact .inl ⟨names.dropLast, entries, Disk.resolve_ofNames hdisk hsub,
        (hdisk.tree.of_find? hsub).1⟩

/-- What a search of the root leads to: the file that is elected in it, or the reason why it cannot
be looked into. -/
theorem findManifest_root (hdisk : disk.Proper) {names : List String} {tree : Tree}
    (h : disk.tree.find? names = some tree) : ∃ found : Except MinimumError (Option String),
      Minimum.findManifest disk (root names tree) =
        found.map (Option.map (Path.join (root names tree))) ∧
      (∀ entries, disk.list (root names tree) = .ok entries →
        ∃ file, found = .ok file ∧ ∀ name, file = some name ↔ Minimum.Elected entries name) ∧
      ∀ cause, disk.list (root names tree) = .error cause →
        found = .error (.unreadable (root names tree) cause) := by
  rcases resolve_root hdisk h with ⟨here, entries, hroot, hproper⟩ | hroot
  · obtain ⟨file, hfile, helected⟩ := Minimum.findManifest_elected hproper hroot
    have hlist : disk.list (root names tree) = .ok entries := by simp [Disk.list, hroot]
    refine ⟨.ok file, hfile, fun others hothers => ⟨file, rfl, ?_⟩, fun cause hcause => ?_⟩
    · rwa [← Except.ok.inj (hlist.symm.trans hothers)]
    · cases hlist.symm.trans hcause
  · obtain ⟨hlist, hfound⟩ := Minimum.findManifest_closed hroot
    refine ⟨.error _, hfound, fun entries hentries => ?_, fun cause hcause => ?_⟩
    · cases hlist.symm.trans hentries
    · rw [← Except.error.inj (hlist.symm.trans hcause)]

/-- The least supported version of a check is what the highest-ranking origin that is there says: an
argument, a setting, the header of a file that is named in an argument or in a setting, or the
header of the file that is found in the root. If that origin is not readable, lacks the header or is
malformed, the command fails, whatever ranks lower. A file that was found never lacks the header. -/
theorem plan_highest_origin {args : CheckArguments} {disk : Disk} {config : Config}
    {names : List String} {tree : Tree} (hdisk : disk.Proper)
    (hconfig : settings disk args.config = .ok config)
    (hpath : disk.resolve args.path = .ok (names, tree)) :
    let root := root names tree
    let resolved := (args.minimumSource config disk root).resolve disk
    ∃ found : Except MinimumError (Option String),
      -- the file that is found in the root, unless the root cannot be looked into
      Minimum.findManifest disk root = found.map (Option.map (Path.join root)) ∧
      (∀ entries, disk.list root = .ok entries →
        ∃ file, found = .ok file ∧ ∀ name, file = some name ↔ Minimum.Elected entries name) ∧
      (∀ cause, disk.list root = .error cause → found = .error (.unreadable root cause)) ∧
      -- the first origin that is there decides
      (∀ origin lower, args.origins config disk root found = origin :: lower →
        ∀ outcome, resolved = outcome ↔ origin.Yields disk outcome) ∧
      (args.origins config disk root found = [] → resolved = .error (.missing root)) ∧
      -- its version is used, and its error is the end of the command
      (∀ plan, args.plan disk = .ok plan → resolved = .ok plan.check.minimum) ∧
      (∀ version table, resolved = .ok version →
        SymbolTable.load disk (args.tableFile config) = .ok table →
        ((∀ dirs, ¬ Sources.Blocking tree dirs) →
          ∃ plan, args.plan disk = .ok plan ∧ plan.check.minimum = version) ∧
        ∀ dirs, Sources.Blocking tree dirs → ∃ e, args.plan disk = .error (.walk e)) ∧
      (∀ e table, resolved = .error e →
        SymbolTable.load disk (args.tableFile config) = .ok table →
        args.plan disk = .error (.config (.minimum e)) ∧
          ∀ parse colour, Format.ofName? args.format ≠ none →
            args.run parse colour disk = .error (.config (.minimum e))) ∧
      ∀ (other : Disk) (source : MinimumSource) (dir path searched : String),
        source.manifest = none → source.searchRoot = some dir →
        Minimum.findManifest other dir = .ok (some path) →
        source.resolve other ≠ .error (.missing searched) := by
  intro root resolved
  obtain ⟨found, hfound, helected, hclosed⟩ :=
    findManifest_root hdisk (Disk.find?_of_resolve hpath)
  have hcause (e : MinimumError) (he : found = .error e) :
      ∃ cause, disk.list root = .error cause ∧ e = .unreadable root cause := by
    cases hlist : disk.list root with
    | ok entries =>
      obtain ⟨file, hfile, -⟩ := helected entries hlist
      cases he.symm.trans hfile
    | error cause => exact ⟨cause, rfl, Except.error.inj (he.symm.trans (hclosed cause hlist))⟩
  have horigins := @resolve_origins args config disk root found hfound hcause
  refine ⟨found, hfound, helected, hclosed, ?_, ?_, ?_, ?_, ?_, ?_⟩
  · intro origin lower hfirst outcome
    rw [hfirst] at horigins
    exact horigins outcome
  · intro hnone
    rwa [hnone] at horigins
  · exact fun plan hplan => minimum_of_plan hconfig hpath hplan
  · exact fun version table hok htable => plan_of_ok hconfig hpath hdisk htable hok
  · intro e table herror htable
    have hplan := plan_of_error hconfig hpath htable herror
    refine ⟨hplan, fun parse colour hformat => ?_⟩
    obtain ⟨format, hformat⟩ := Option.ne_none_iff_exists'.mp hformat
    simp [CheckArguments.run, hformat, hplan]
  · intro other source dir path searched hmanifest hdir hother
    exact MinimumSource.resolve_ne_missing hmanifest hdir hother searched

/-- Four files: a source without a header, two with one, and a stylesheet whose header is empty. -/
def pluginFiles : List (String × Tree) := [
  ("a.php", .file (Text.encode "<?php // Plugin Name: A")),
  ("b.php", .file (Text.encode "<?php\n/* Requires at least: 5.9 */")),
  ("c.php", .file (Text.encode "<?php\n# Requires at least: 6.1")),
  ("style.css", .file (Text.encode "/*\nRequires at least:\n*/"))]

def pluginDisk : Disk where
  tree := .directory [("p", .directory pluginFiles),
    ("symbols.json", .file (Text.encode "\x7b\"symbols\": \x7b\x7d\x7d"))]

-- the file that is found is not used for one that is named and lacks the header
theorem plan_highest_origin_plugin :
    let args : CheckArguments := { path := "/p" }
    let named : CheckArguments := { path := "/p", pluginFile := some "a.php" }
    pluginDisk.Proper ∧ settings pluginDisk none = .ok {} ∧
    pluginDisk.resolve "/p" = .ok (["p"], .directory pluginFiles) ∧
    (∀ dirs, ¬ Sources.Blocking (.directory pluginFiles) dirs) ∧
    (∃ plan, args.plan pluginDisk = .ok plan ∧ plan.check.minimum = ⟨5, 9, 0⟩) ∧
    (∃ name, Minimum.Elected pluginFiles name ∧ Path.join "/p" name = "/p/b.php") ∧
    named.plan pluginDisk = .error (.config (.minimum (.missing "/p/a.php"))) := by
  intro args named
  have hdisk : pluginDisk.Proper := ⟨⟨_, rfl⟩, by decide +kernel⟩
  have hconfig : settings pluginDisk none = .ok {} := by decide +kernel
  have hpath : pluginDisk.resolve "/p" = .ok (["p"], .directory pluginFiles) := by rfl
  have htable : SymbolTable.load pluginDisk "symbols.json" = .ok {} := by decide +kernel
  have hlist : pluginDisk.list (root ["p"] (.directory pluginFiles)) = .ok pluginFiles := by rfl
  have hfound : Minimum.findManifest pluginDisk (root ["p"] (.directory pluginFiles)) =
      .ok (some "/p/b.php") := by decide +kernel
  have hversion : (args.minimumSource {} pluginDisk (root ["p"] (.directory pluginFiles))).resolve
      pluginDisk = .ok ⟨5, 9, 0⟩ := by decide +kernel
  have hlacks : (named.minimumSource {} pluginDisk (root ["p"] (.directory pluginFiles))).resolve
      pluginDisk = .error (.missing "/p/a.php") := by decide +kernel
  have hopen : ∀ dirs, ¬ Sources.Blocking (.directory pluginFiles) dirs :=
    Sources.not_blocking_of_walk (by decide +kernel) (by decide +kernel)
  obtain ⟨found, hfind, helected, -, -, -, -, hused, -, -⟩ :=
    @plan_highest_origin args pluginDisk {} ["p"] (.directory pluginFiles) hdisk hconfig hpath
  obtain ⟨_, -, -, -, -, -, -, -, hfatal, -⟩ :=
    @plan_highest_origin named pluginDisk {} ["p"] (.directory pluginFiles) hdisk hconfig hpath
  obtain ⟨file, rfl, hfile⟩ := helected pluginFiles hlist
  obtain ⟨name, hname, hjoin⟩ := Option.map_eq_some_iff.mp (Except.ok.inj (hfind.symm.trans hfound))
  exact ⟨hdisk, hconfig, hpath, hopen, (hused _ _ hversion htable).1 hopen,
    ⟨name, (hfile name).mp hname, hjoin⟩, (hfatal _ _ hlacks htable).1⟩

end Command.CheckArguments

end Availability
