import Availability.Files.Disk
import Mathlib.Data.List.DropRight
import Mathlib.Tactic.Common

/-!
# What is written is read

Writing a file keeps every directory in its place, so that the path it was written to still leads
where it led, and ends at the new file.
-/
namespace Availability.Files

namespace Tree

/-- Whether a directory stands at the end of names. -/
def DirectoryAt (t : Tree) (names : List String) : Prop :=
  ∃ entries, t.find? names = some (.directory entries)

theorem find?_put_self (names : List String) (t new : Tree) :
    (t.put names new).find? names = some new := by
  induction names generalizing t with
  | nil => rfl
  | cons name rest ih => simp [put, Keyed.get?_insert_self, ih]

theorem find?_append (first more : List String) (t : Tree) :
    t.find? (first ++ more) = (t.find? first).bind (find? more) := by
  induction first generalizing t with
  | nil => rfl
  | cons name rest ih =>
    cases t with
    | file content => rfl
    | locked isDirectory => rfl
    | directory entries =>
      simp only [List.cons_append, find?, Option.bind_assoc]
      congr 1
      exact funext ih

theorem exists_of_directoryAt_cons {t : Tree} {name : String} {rest : List String}
    (h : t.DirectoryAt (name :: rest)) :
    ∃ entries sub, t = .directory entries ∧ Keyed.get? name entries = some sub ∧
      sub.DirectoryAt rest := by
  obtain ⟨below, hbelow⟩ := h
  cases t with
  | file content => cases hbelow
  | locked isDirectory => cases hbelow
  | directory entries =>
    obtain ⟨sub, hsub, hrest⟩ := Option.bind_eq_some_iff.mp hbelow
    exact ⟨entries, sub, rfl, hsub, below, hrest⟩

/-- What is put in the place of a file, or where nothing was, leaves all directories. -/
theorem directoryAt_put {t : Tree} {names : List String} (hfree : ¬ t.DirectoryAt names)
    (new : Tree) {other : List String} (h : t.DirectoryAt other) :
    (t.put names new).DirectoryAt other := by
  induction names generalizing t other with
  | nil =>
    cases other with
    | nil => exact absurd h hfree
    | cons name rest =>
      obtain ⟨entries, _, rfl, _⟩ := exists_of_directoryAt_cons h
      exact absurd ⟨entries, rfl⟩ hfree
  | cons name rest ih =>
    cases other with
    | nil => exact ⟨_, rfl⟩
    | cons first more =>
      obtain ⟨entries, sub, rfl, hsub, hmore⟩ := exists_of_directoryAt_cons h
      by_cases heq : first = name
      · subst heq
        have hfree' : ¬ sub.DirectoryAt rest := by
          simpa [DirectoryAt, hsub] using hfree
        obtain ⟨below, hbelow⟩ := ih hfree' hmore
        exact ⟨below, by simp [put, Tree.entries, Keyed.get?_insert_self, hsub, hbelow]⟩
      · obtain ⟨below, hbelow⟩ := hmore
        exact ⟨below, by simp [put, Tree.entries, Keyed.get?_insert_of_ne heq, hsub, hbelow]⟩

end Tree

namespace Disk

variable {tree tree' t : Tree} {here names : List String} {result : List String × Tree}

/-- Where a part of a path leads from a directory. -/
def enter (here : List String) : String → List String
  | "" => here
  | "." => here
  | ".." => here.dropLast
  | name => here ++ [name]

theorem enter_name (here : List String) {name : String} (h : name ≠ "") (hdot : name ≠ ".")
    (hdots : name ≠ "..") : enter here name = here ++ [name] := by
  unfold enter
  split <;> first | contradiction | rfl

theorem follow_nil_iff :
    follow tree here [] = .ok (names, t) ↔ names = here ∧ tree.find? here = some t := by
  simp only [follow]
  split <;> grind

theorem follow_cons_iff {part : String} {rest : List String} :
    follow tree here (part :: rest) = .ok result ↔
      tree.DirectoryAt here ∧ follow tree (enter here part) rest = .ok result := by
  simp only [follow, Tree.DirectoryAt]
  split
  · simp_all
  · simp only [enter]
    split <;> simp_all
  · simp_all

theorem find?_of_follow {parts : List String} (h : follow tree here parts = .ok (names, t)) :
    tree.find? names = some t := by
  induction parts generalizing here with
  | nil =>
    obtain ⟨rfl, hfind⟩ := follow_nil_iff.mp h
    exact hfind
  | cons part rest ih => exact ih (follow_cons_iff.mp h).2

/-- A path is followed part after part. -/
theorem follow_append_iff {first : List String} (h : follow tree here first = .ok (names, t))
    (more : List String) :
    follow tree here (first ++ more) = .ok result ↔ follow tree names more = .ok result := by
  induction first generalizing here with
  | nil =>
    obtain ⟨rfl, -⟩ := follow_nil_iff.mp h
    rfl
  | cons part rest ih =>
    obtain ⟨hdir, hrest⟩ := follow_cons_iff.mp h
    rw [List.cons_append, follow_cons_iff, ih hrest]
    exact and_iff_right hdir

/-- A path to a directory leads there still when all directories have stayed. -/
theorem follow_directory {parts : List String} {entries : List (String × Tree)}
    (hstay : ∀ names, tree.DirectoryAt names → tree'.DirectoryAt names)
    (h : follow tree here parts = .ok (names, .directory entries)) :
    ∃ entries', follow tree' here parts = .ok (names, .directory entries') := by
  induction parts generalizing here with
  | nil =>
    obtain ⟨rfl, hfind⟩ := follow_nil_iff.mp h
    obtain ⟨entries', hfind'⟩ := hstay names ⟨entries, hfind⟩
    exact ⟨entries', follow_nil_iff.mpr ⟨rfl, hfind'⟩⟩
  | cons part rest ih =>
    obtain ⟨hdir, hrest⟩ := follow_cons_iff.mp h
    obtain ⟨entries', hrest'⟩ := ih hrest
    exact ⟨entries', follow_cons_iff.mpr ⟨hstay here hdir, hrest'⟩⟩

/-- A path that can be written to has no empty part at its end. -/
theorem parts_of_named {parts : List String} {last : String}
    (hlast : (parts.rdropWhile (· == "")).getLast? = some last)
    (hlength : parts.length ≤ (parts.rdropWhile (· == "")).length) :
    ∃ before, parts = before ++ [last] ∧ parts.rdropWhile (· == "") = before ++ [last] ∧
      last ≠ "" := by
  have hparts := (parts.rdropWhile_prefix (· == "")).eq_of_length_le hlength
  rw [hparts] at hlast
  obtain ⟨before, rfl⟩ := List.getLast?_eq_some_iff.mp hlast
  have hne := List.rdropWhile_eq_self_iff.mp hparts (by simp)
  exact ⟨before, rfl, hparts, by simpa using hne⟩

/-- What a successful write does: the parts before the last lead to a directory, in which the last
one names no directory, and the file is put there. -/
theorem write_cases {disk written : Disk} {path : String} {content : Text.Bytes}
    (h : disk.write path content = .ok written) :
    ∃ before last here entries, Path.parts path = before ++ [last] ∧
      last ≠ "" ∧ last ≠ "." ∧ last ≠ ".." ∧
      follow disk.tree (disk.start path) before = .ok (here, .directory entries) ∧
      ¬ disk.tree.DirectoryAt (here ++ [last]) ∧
      written = { disk with tree := disk.tree.put (here ++ [last]) (.file content) } := by
  unfold write at h
  dsimp only at h
  split at h
  · cases h
  · rename_i last hlast
    split at h
    · cases h
    · rename_i here entries hfollow
      split at h
      · cases h
      · rename_i hfree
        split at h
        · cases h
        cases h
        simp only [Bool.or_eq_true, decide_eq_true_eq, beq_iff_eq, not_or, Nat.not_lt] at hfree
        obtain ⟨⟨⟨hlength, hdot⟩, hdots⟩, hentry⟩ := hfree
        obtain ⟨before, hparts, hnamed, hne⟩ := parts_of_named hlast hlength
        rw [← List.rdropWhile, hnamed, List.dropLast_concat] at hfollow
        refine ⟨before, last, here, entries, hparts, hne, hdot, hdots, hfollow, ?_, rfl⟩
        rintro ⟨below, hbelow⟩
        rw [Tree.find?_append, find?_of_follow hfollow] at hbelow
        have hget : Keyed.get? last entries = some (.directory below) := by
          simpa using hbelow
        simp [hget] at hentry
    · cases h

theorem read_write {disk written : Disk} {path : String} {content : Text.Bytes}
    (h : disk.write path content = .ok written) : written.read path = .ok content := by
  obtain ⟨before, last, here, entries, hparts, hne, hdot, hdots, hfollow, hfree, rfl⟩ :=
    write_cases h
  have hstay := fun names => @Tree.directoryAt_put disk.tree _ hfree (.file content) names
  obtain ⟨entries', hbefore⟩ := follow_directory hstay hfollow
  have hlast : follow (disk.tree.put (here ++ [last]) (.file content)) here [last] =
      .ok (here ++ [last], .file content) := by
    rw [follow_cons_iff, enter_name here hne hdot hdots, follow_nil_iff]
    exact ⟨⟨entries', find?_of_follow hbefore⟩, rfl, Tree.find?_put_self _ _ _⟩
  have hpath : path.isEmpty = false := by
    by_contra hempty
    obtain rfl : path = "" := by simpa using hempty
    have hlastEmpty : [""] = before ++ [last] := hparts
    exact hne (by simpa using (congrArg List.getLast? hlastEmpty).symm)
  have hresolve := (follow_append_iff hbefore [last]).mpr hlast
  rw [← hparts] at hresolve
  simp only [read, resolve, hpath, start] at hresolve ⊢
  simp [hresolve]

end Disk

end Availability.Files
