import Availability.Glob.Pattern
import Availability.Proofs.ByteOrder
import Availability.Proofs.FilePaths
import Availability.Proofs.Steps
import Availability.Sources

/-!
# Which files are collected

The sources below a directory are collected exactly: each one once, in the order of the walk, unless
it stands below a directory that is passed over or its own path is excluded. Nothing is collected
only if the walk comes to a directory that it cannot look into.
-/
namespace Availability

open Files

namespace Files.Path

/-- The extension of a name is what follows its last point, if something stands before it. -/
def HasExtension (name extension : String) : Prop :=
  ∃ stem, stem ≠ "" ∧ name = stem ++ "." ++ extension ∧ '.' ∉ extension.toList

theorem isSource_iff {name : String} : isSource name = true ↔ HasExtension name "php" := by
  have hreverse (rest : List Char) :
      name.toList.reverse = "php.".toList ++ rest ↔
        name.toList = rest.reverse ++ ".php".toList := by
    rw [← List.reverse_inj, List.reverse_reverse, List.reverse_append]
    rfl
  constructor
  · intro h
    unfold isSource at h
    split at h
    · rename_i c rest hdrop
      have htext := (hreverse (c :: rest)).mp (Text.dropStart?_eq_some_iff.mp hdrop)
      refine ⟨String.ofList (c :: rest).reverse, by simp, ?_, by decide⟩
      apply String.toList_injective
      simpa using htext
    · simp at h
  · rintro ⟨stem, hstem, rfl, -⟩
    obtain ⟨c, rest, hrest⟩ := List.exists_cons_of_ne_nil
      (List.reverse_ne_nil_iff.mpr fun h => hstem (String.toList_eq_nil_iff.mp h))
    have hdrop : Text.dropStart? "php.".toList (stem ++ "." ++ "php").toList.reverse =
        some (c :: rest) := by
      rw [Text.dropStart?_eq_some_iff]
      simp [← hrest]
    rw [isSource, hdrop]

end Files.Path

namespace Sources

/-! ## The files that a walk met -/

section Met

variable {root : String} {met : List (List String × Encounter)} {files : List (List String)}
  {e : WalkError}

theorem filesMet_eq_ok_iff :
    filesMet root met = .ok files ↔ met = files.map fun names => (names, .file) := by
  rw [filesMet, mapM_eq_ok_iff]
  constructor
  · intro h
    induction h with
    | nil => rfl
    | @cons first names rest files hfirst _ ih =>
      obtain ⟨met, e⟩ := first
      cases e with
      | file => rw [List.map_cons, ih, Except.ok.inj hfirst]
      | closed => cases hfirst
  · rintro rfl
    rw [List.forall₂_map_left_iff, List.forall₂_same]
    exact fun _ _ => rfl

theorem exists_filesMet_iff :
    (∃ files, filesMet root met = .ok files) ↔ ∀ names, (names, .closed) ∉ met := by
  rw [filesMet, exists_mapM_eq_ok_iff]
  constructor
  · intro h names hmem
    obtain ⟨_, hnames⟩ := h _ hmem
    cases hnames
  · rintro h ⟨names, _ | _⟩ hmem
    · exact ⟨names, rfl⟩
    · exact absurd hmem (h names)

theorem exists_of_filesMet_eq_error (h : filesMet root met = .error e) :
    ∃ names, (names, .closed) ∈ met ∧ e = ⟨Path.below root names, .denied⟩ := by
  obtain ⟨⟨names, _ | _⟩, hmem, he⟩ := exists_of_mapM_eq_error h
  · cases he
  · exact ⟨names, hmem, (Except.error.inj he).symm⟩

end Met

/-! ## The sources that are checked -/

variable {excluded : String → Bool} {entries : List (String × Tree)} {tree : Tree}
  {dirs names : List String} {name root : String} {disk : Disk} {here : List String}

/-- Hidden directories and those of dependencies are passed over. -/
def PassedOver (dir : String) : Prop :=
  ['.'] <+: dir.toList ∨ dir = "vendor" ∨ dir = "node_modules"

theorem entersDirectory_iff {dir : String} : entersDirectory dir = true ↔ ¬ PassedOver dir := by
  have hdot : dir.toList.head? = some '.' ↔ ['.'] <+: dir.toList := by
    cases dir.toList <;> simp [eq_comm]
  simp [entersDirectory, PassedOver, skippedDirectories, hdot]

/-- What is asked of a file in nested directories: it is a source, none of the directories is passed
over, and the path of the file is not excluded. -/
structure Wanted (excluded : String → Bool) (dirs : List String) (name : String) : Prop where
  extension : Path.HasExtension name "php"
  directories : ∀ dir ∈ dirs, ¬ PassedOver dir
  path : excluded (String.intercalate "/" (dirs ++ [name])) = false

/-- A directory that cannot be looked into although none on the way to it is passed over. -/
structure Blocking (tree : Tree) (dirs : List String) : Prop where
  locked : tree.find? dirs = some (.locked true)
  directories : ∀ dir ∈ dirs, ¬ PassedOver dir

theorem mem_walk_closed_iff (h : tree.Proper) :
    (names, .closed) ∈ tree.walk entersDirectory ↔ Blocking tree names := by
  rw [Tree.mem_walk_closed_iff, ← Tree.find?_eq_some_iff h]
  simp only [entersDirectory_iff]
  exact ⟨fun ⟨hlocked, hdirs⟩ => ⟨hlocked, hdirs⟩, fun ⟨hlocked, hdirs⟩ => ⟨hlocked, hdirs⟩⟩

theorem not_blocking_of_walk (h : tree.Proper)
    (hmet : ∀ met ∈ tree.walk entersDirectory, met.2 = .file) : ∀ dirs, ¬ Blocking tree dirs :=
  fun _ hblocking => by simpa using hmet _ ((mem_walk_closed_iff h).mpr hblocking)

/-- The names that lead to the sources of a tree that are checked, in the order of the walk. -/
def found (excluded : String → Bool) (tree : Tree) : List (List String) :=
  ((tree.walk entersDirectory).filter fun met =>
    met.2 == .file && isChecked excluded met.1).map Prod.fst

theorem mem_found_iff (h : tree.Proper) : dirs ++ [name] ∈ found excluded tree ↔
    (∃ t, tree.find? (dirs ++ [name]) = some t ∧ t.isDirectory = false) ∧
      Wanted excluded dirs name := by
  have hsource : isChecked excluded (dirs ++ [name]) = true ↔
      Path.HasExtension name "php" ∧
        excluded (String.intercalate "/" (dirs ++ [name])) = false := by
    simp [isChecked, Path.isSource_iff, Path.relative]
  have hmem : dirs ++ [name] ∈ found excluded tree ↔
      (dirs ++ [name], .file) ∈ tree.walk entersDirectory ∧
        isChecked excluded (dirs ++ [name]) = true := by
    simp [found]
  rw [hmem, hsource, Tree.mem_walk_file_iff, List.dropLast_concat]
  simp only [entersDirectory_iff, ← Tree.find?_eq_some_iff h]
  constructor
  · rintro ⟨⟨t, hfind, hfile, hdirs⟩, hextension, hpath⟩
    exact ⟨⟨t, hfind, hfile⟩, hextension, hdirs, hpath⟩
  · rintro ⟨⟨t, hfind, hfile⟩, hextension, hdirs, hpath⟩
    exact ⟨⟨t, hfind, hfile, hdirs⟩, hextension, hpath⟩

theorem nil_notMem_found : [] ∉ found excluded tree := by
  simp [found, isChecked]

theorem pairwise_found (h : tree.Proper) :
    (found excluded tree).Pairwise (List.Lex (· < ·)) :=
  List.pairwise_map.mpr ((Tree.pairwise_walk h).sublist List.filter_sublist)

theorem nodup_found (h : tree.Proper) : (found excluded tree).Nodup := by
  refine (pairwise_found h).imp fun {names others} hlt => ?_
  rintro rfl
  exact List.lt_irrefl names hlt

/-- The paths that are collected lead to the files that were found. -/
theorem resolve_found (h : (Tree.directory entries).Proper)
    (hroot : disk.resolve root = .ok (here, .directory entries))
    (hnames : names ∈ found excluded (.directory entries)) :
    ∃ t, disk.resolve (Path.join root (String.intercalate "/" names)) = .ok (here ++ names, t) ∧
      t.isDirectory = false := by
  have hne : names ≠ [] := fun heq => nil_notMem_found (heq ▸ hnames)
  obtain ⟨dirs, name, rfl⟩ : ∃ dirs name, names = dirs ++ [name] :=
    ⟨names.dropLast, names.getLast hne, (List.dropLast_append_getLast hne).symm⟩
  obtain ⟨⟨t, hfind, hfile⟩, -⟩ := (mem_found_iff h).mp hnames
  have hproper := (h.of_find? hfind).2
  exact ⟨t, (Disk.resolve_join_iff hroot hne hproper).mpr ⟨rfl, hfind⟩, hfile⟩

/-- A walk that comes to no closed directory collects what there is to be found. -/
theorem collect_of_open (h : (Tree.directory entries).Proper)
    (hroot : disk.resolve root = .ok (here, .directory entries))
    (hopen : ∀ dirs, ¬ Blocking (.directory entries) dirs) :
    collect disk excluded root = .ok ((found excluded (.directory entries)).map
      fun names => Path.join root (String.intercalate "/" names)) := by
  have hmet : ∀ names, (names, .closed) ∉ (Tree.directory entries).walk entersDirectory :=
    fun names hmem => hopen names ((mem_walk_closed_iff h).mp hmem)
  obtain ⟨files, hfiles⟩ : ∃ files, filesMet root _ = .ok files := exists_filesMet_iff.mpr hmet
  have hwalk := filesMet_eq_ok_iff.mp hfiles
  have hfound : found excluded (.directory entries) = files.filter (isChecked excluded) := by
    rw [found, hwalk, List.filter_map, List.map_map]
    simp [Function.comp_def]
  have hbelow : ∀ names ∈ files.filter (isChecked excluded),
      Path.below root names = Path.join root (String.intercalate "/" names) := by
    intro names hnames
    have hne : names ≠ [] := fun heq => nil_notMem_found (heq ▸ hfound ▸ hnames)
    simp [Path.below, hne, Path.relative]
  simp only [collect, hroot, Tree.isDirectory, hfiles, hfound, if_true, List.map_congr_left hbelow,
    ok_bind, pure_eq_ok]

theorem collect_of_blocking (h : (Tree.directory entries).Proper)
    (hroot : disk.resolve root = .ok (here, .directory entries))
    (hblocking : Blocking (.directory entries) dirs) :
    ∃ closed, Blocking (.directory entries) closed ∧
      collect disk excluded root = .error ⟨Path.below root closed, .denied⟩ := by
  cases hfiles : filesMet root ((Tree.directory entries).walk entersDirectory) with
  | ok files =>
    have hmet := exists_filesMet_iff.mp ⟨files, hfiles⟩
    exact absurd ((mem_walk_closed_iff h).mpr hblocking) (hmet dirs)
  | error e =>
    obtain ⟨closed, hmem, rfl⟩ := exists_of_filesMet_eq_error hfiles
    refine ⟨closed, (mem_walk_closed_iff h).mp hmem, ?_⟩
    simp [collect, hroot, hfiles]

theorem exists_collect_iff (h : tree.Proper) (hroot : disk.resolve root = .ok (here, tree)) :
    (∃ paths, collect disk excluded root = .ok paths) ↔ ∀ dirs, ¬ Blocking tree dirs := by
  simp only [← mem_walk_closed_iff h]
  cases hdirectory : tree.isDirectory with
  | true =>
    rw [← @exists_filesMet_iff root]
    simp only [collect, hroot, hdirectory, if_true, bind_eq_ok_iff]
    constructor
    · rintro ⟨paths, files, hfiles, -⟩
      exact ⟨files, hfiles⟩
    · rintro ⟨files, hfiles⟩
      exact ⟨_, files, hfiles, rfl⟩
  | false =>
    have hmet : tree.walk entersDirectory = [([], .file)] := by
      cases tree <;> simp_all [Tree.walk, Tree.isDirectory]
    exact iff_of_true ⟨[root], by simp [collect, hroot, hdirectory]⟩ (by simp [hmet])

/-- The files that are collected below a directory depend on nothing but what is below it and on
what is excluded: they are the sources such that no directory on the way is passed over and their
own path is not excluded. They come in the order of the bytes of their names, each once, and so do
the paths to them. A directory that should be entered and cannot be is an error. -/
theorem collect_exact {entries : List (String × Tree)} (h : (Tree.directory entries).Proper)
    (excluded : String → Bool) : ∃ files : List (List String),
      [] ∉ files ∧
      (∀ dirs name, dirs ++ [name] ∈ files ↔
        (∃ t, (Tree.directory entries).find? (dirs ++ [name]) = some t ∧ t.isDirectory = false) ∧
          Wanted excluded dirs name) ∧
      files.Pairwise (List.Lex fun a b => Text.encode a < Text.encode b) ∧ files.Nodup ∧
      ∀ (disk : Disk) (root : String) (here : List String),
        disk.resolve root = .ok (here, .directory entries) →
        ((∀ dirs, ¬ Blocking (.directory entries) dirs) →
          ∃ paths, collect disk excluded root = .ok paths ∧
            paths = files.map (fun names => Path.join root (String.intercalate "/" names)) ∧
            paths.Nodup ∧ List.Forall₂ (fun path names =>
              ∃ t, disk.resolve path = .ok (here ++ names, t) ∧ t.isDirectory = false)
              paths files) ∧
        ∀ dirs, Blocking (.directory entries) dirs →
          ∃ closed, Blocking (.directory entries) closed ∧
            collect disk excluded root = .error ⟨Path.below root closed, .denied⟩ := by
  have horder : (fun a b : String => Text.encode a < Text.encode b) = (· < ·) := by
    funext a b
    exact propext Text.encode_lt_iff
  refine ⟨found excluded (.directory entries), nil_notMem_found, fun dirs name => mem_found_iff h,
    ?_, nodup_found h, ?_⟩
  · rw [horder]
    exact pairwise_found h
  · intro disk root here hroot
    refine ⟨fun hopen => ?_, fun dirs hblocking => collect_of_blocking h hroot hblocking⟩
    have hresolve (names : List String) (hnames : names ∈ found excluded (.directory entries)) :=
      resolve_found h hroot hnames
    refine ⟨_, collect_of_open h hroot hopen, rfl, ?_, ?_⟩
    · -- what follows the root in a path can be told from where the path leads
      refine List.Nodup.map_on (fun names hnames others hothers heq => ?_) (nodup_found h)
      obtain ⟨t, hplace, -⟩ := hresolve names hnames
      obtain ⟨t', hplace', -⟩ := hresolve others hothers
      rw [heq, hplace'] at hplace
      simp only [Except.ok.injEq, Prod.mk.injEq, List.append_cancel_left_eq] at hplace
      exact hplace.1.symm
    · rw [List.forall₂_map_left_iff, List.forall₂_same]
      exact hresolve

/-- A directory with hidden files, directories that are passed over, whether they can be looked into
or not, and names that sort between a directory and what is in it. -/
def mixed : List (String × Tree) := [
  (".hidden.php", .file []),
  (".php", .file []),
  (".tools", .directory [("a.php", .file [])]),
  ("drafts", .directory [("a.php", .file []), ("b.php", .file [])]),
  ("lib", .directory [("node_modules", .locked true), ("z.php", .locked false)]),
  ("lib-a.php", .file []),
  ("lib.PHP", .file []),
  ("lib.php", .file [])]

/-- A directory in which one cannot be looked into. -/
def sealed : List (String × Tree) := [("a.php", .file []), ("drafts", .locked true)]

-- the root may be called as directories that are passed over, and a pattern for a directory is
-- none for the files in it
theorem collect_exact_mixed :
    let disk : Disk :=
      { tree := .directory [("lib", .directory sealed), ("vendor", .directory mixed)] }
    let excluded := Glob.acceptsAny ["drafts".toList.map .literal,
      "drafts/b".toList.map .literal ++ [.star]]
    let paths := ["/vendor/.hidden.php", "/vendor/drafts/a.php", "/vendor/lib/z.php",
      "/vendor/lib-a.php", "/vendor/lib.php"]
    (Tree.directory mixed).Proper ∧
    disk.resolve "/vendor" = .ok (["vendor"], .directory mixed) ∧
    (∀ dirs, ¬ Blocking (.directory mixed) dirs) ∧
    collect disk excluded "/vendor" = .ok paths ∧ paths.Nodup ∧
    (∃ files : List (List String), [".hidden.php"] ∈ files ∧ ["drafts", "a.php"] ∈ files ∧
      List.Forall₂ (fun path names => ∃ t, disk.resolve path = .ok ("vendor" :: names, t) ∧
        t.isDirectory = false) paths files) ∧
    Blocking (.directory sealed) ["drafts"] ∧
    ∃ closed, Blocking (.directory sealed) closed ∧
      collect disk excluded "/lib" = .error ⟨Path.below "/lib" closed, .denied⟩ := by
  intro disk excluded paths
  have hproper : (Tree.directory mixed).Proper := by decide +kernel
  have hroot : disk.resolve "/vendor" = .ok (["vendor"], .directory mixed) := by rfl
  have hopen : ∀ dirs, ¬ Blocking (.directory mixed) dirs :=
    not_blocking_of_walk hproper (by decide +kernel)
  have hcollect : collect disk excluded "/vendor" = .ok paths := by decide +kernel
  obtain ⟨files, -, hfiles, -, -, hpaths⟩ := collect_exact hproper excluded
  obtain ⟨paths', hcollect', -, hnodup, hplaces⟩ :=
    (hpaths disk "/vendor" ["vendor"] hroot).1 hopen
  obtain rfl : paths' = paths := Except.ok.inj (hcollect'.symm.trans hcollect)
  have hhidden : [".hidden.php"] ∈ files := (hfiles [] ".hidden.php").mpr ⟨⟨.file [], by rfl, rfl⟩,
    Path.isSource_iff.mp (by decide +kernel), by simp, by decide +kernel⟩
  have hdraft : ["drafts", "a.php"] ∈ files := (hfiles ["drafts"] "a.php").mpr
    ⟨⟨.file [], by rfl, rfl⟩, Path.isSource_iff.mp (by decide +kernel), by simp [PassedOver],
      by decide +kernel⟩
  have hsealed : Blocking (.directory sealed) ["drafts"] := ⟨by rfl, by simp [PassedOver]⟩
  have hproper' : (Tree.directory sealed).Proper := by decide +kernel
  obtain ⟨_, -, -, -, -, hclosed⟩ := collect_exact hproper' excluded
  exact ⟨hproper, hroot, hopen, hcollect, hnodup, ⟨files, hhidden, hdraft, hplaces⟩, hsealed,
    (hclosed disk "/lib" ["lib"] (by rfl)).2 ["drafts"] hsealed⟩

end Sources

end Availability
