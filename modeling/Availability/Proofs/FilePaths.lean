import Availability.Proofs.DiskWrite
import Availability.Proofs.Collation
import Availability.Proofs.VersionGrammar

/-!
# The files of a tree and the paths to them

In a directory every entry has a name of its own, and the names are in order. What a walk meets in
such a tree is what names lead to, it comes in the order of these names, and a path that is put
together from names leads along them.
-/
namespace Availability.Files

open Text

/-- What an entry of a directory may be called. -/
structure IsName (name : String) : Prop where
  ne_empty : name ≠ ""
  ne_here : name ≠ "."
  ne_above : name ≠ ".."
  slash_notMem : '/' ∉ name.toList

theorem isName_iff {name : String} :
    IsName name ↔ (name ≠ "" ∧ name ≠ "." ∧ name ≠ "..") ∧ '/' ∉ name.toList :=
  ⟨fun h => ⟨⟨h.ne_empty, h.ne_here, h.ne_above⟩, h.slash_notMem⟩,
    fun ⟨⟨hempty, hhere, habove⟩, hslash⟩ => ⟨hempty, hhere, habove, hslash⟩⟩

instance (name : String) : Decidable (IsName name) :=
  decidable_of_iff _ isName_iff.symm

/-- The directories that are entered, or should be, on the way to what a walk meets. -/
def Encounter.way : Encounter → List String → List String
  | .file, names => names.dropLast
  | .closed, names => names

@[simp] theorem Encounter.way_nil (e : Encounter) : e.way [] = [] := by
  cases e <;> rfl

namespace Tree

mutual

/-- All names can be names, and the entries of every directory are in the order of their names. -/
def Proper : Tree → Prop
  | .file _ => True
  | .directory entries => ProperEntries entries
  | .locked _ => True

def ProperEntries : List (String × Tree) → Prop
  | [] => True
  | (name, t) :: rest =>
    IsName name ∧ t.Proper ∧ (∀ entry ∈ rest, name < entry.1) ∧ ProperEntries rest

end

mutual

def decidableProper : (t : Tree) → Decidable t.Proper
  | .file _ => isTrue trivial
  | .directory entries => decidableProperEntries entries
  | .locked _ => isTrue trivial

def decidableProperEntries : (entries : List (String × Tree)) → Decidable (ProperEntries entries)
  | [] => isTrue trivial
  | (name, t) :: rest =>
    haveI := decidableProper t
    haveI := decidableProperEntries rest
    inferInstanceAs (Decidable
      (IsName name ∧ t.Proper ∧ (∀ entry ∈ rest, name < entry.1) ∧ ProperEntries rest))

end

instance (t : Tree) : Decidable t.Proper := decidableProper t

variable {entries : List (String × Tree)} {t sub : Tree} {name : String} {names : List String}

theorem properEntries_iff : ProperEntries entries ↔
    Keyed.Ascending entries ∧ ∀ entry ∈ entries, IsName entry.1 ∧ entry.2.Proper := by
  induction entries with
  | nil => simp [ProperEntries, Keyed.Ascending]
  | cons entry rest ih =>
    obtain ⟨name, t⟩ := entry
    simp only [ProperEntries, ih, Keyed.Ascending, List.pairwise_cons, List.forall_mem_cons]
    tauto

/-- A name leads to the entry that it stands for. -/
theorem find?_cons_iff (h : (Tree.directory entries).Proper) :
    (Tree.directory entries).find? (name :: names) = some sub ↔
      ∃ t, (name, t) ∈ entries ∧ t.find? names = some sub := by
  have hkeys := (properEntries_iff.mp h).1.nodup_keys
  simp only [find?, Option.bind_eq_some_iff, Keyed.get?_eq_some_iff hkeys]

theorem Proper.of_mem (h : (Tree.directory entries).Proper) (hmem : (name, t) ∈ entries) :
    IsName name ∧ t.Proper :=
  (properEntries_iff.mp h).2 (name, t) hmem

theorem Proper.of_find? (h : t.Proper) (hfind : t.find? names = some sub) :
    sub.Proper ∧ ∀ name ∈ names, IsName name := by
  induction names generalizing t with
  | nil =>
    obtain rfl : t = sub := by simpa using hfind
    exact ⟨h, by simp⟩
  | cons name names ih =>
    cases t with
    | file content => simp at hfind
    | locked isDirectory => simp at hfind
    | directory entries =>
      obtain ⟨t, hmem, hrest⟩ := (find?_cons_iff h).mp hfind
      obtain ⟨hname, ht⟩ := h.of_mem hmem
      obtain ⟨hsub, hnames⟩ := ih ht hrest
      exact ⟨hsub, List.forall_mem_cons.mpr ⟨hname, hnames⟩⟩

/-- Names lead to a tree through directories that can be looked into. -/
inductive Leads : Tree → List String → Tree → Prop
  | here (t : Tree) : Leads t [] t
  | into {entries : List (String × Tree)} {name : String} {names : List String} {t sub : Tree}
      (hentry : (name, t) ∈ entries) (hbelow : Leads t names sub) :
      Leads (.directory entries) (name :: names) sub

@[simp] theorem leads_nil_iff : t.Leads [] sub ↔ sub = t := by
  constructor
  · intro h
    cases h
    rfl
  · rintro rfl
    exact .here sub

@[simp] theorem leads_cons_iff : (Tree.directory entries).Leads (name :: names) sub ↔
    ∃ t, (name, t) ∈ entries ∧ t.Leads names sub := by
  constructor
  · intro h
    cases h with
    | into hentry hbelow => exact ⟨_, hentry, hbelow⟩
  · rintro ⟨t, hentry, hbelow⟩
    exact .into hentry hbelow

theorem Leads.isDirectory (h : t.Leads (name :: names) sub) : t.isDirectory = true := by
  cases h
  rfl

theorem find?_eq_some_iff (h : t.Proper) : t.find? names = some sub ↔ t.Leads names sub := by
  induction names generalizing t with
  | nil => simp [eq_comm]
  | cons name names ih =>
    cases t with
    | file content =>
      exact iff_of_false (by simp) fun hleads => by cases hleads
    | locked isDirectory =>
      exact iff_of_false (by simp) fun hleads => by cases hleads
    | directory entries =>
      rw [find?_cons_iff h, leads_cons_iff]
      exact exists_congr fun t => and_congr_right fun hmem => ih (h.of_mem hmem).2

/-! ## What a walk meets -/

variable {enter : String → Bool} {e : Encounter}

/-- What a tree is to a walk, unless the walk goes on in it. -/
def encounter? : Tree → Option Encounter
  | .file _ => some .file
  | .directory _ => none
  | .locked isDirectory => some (if isDirectory then .closed else .file)

theorem encounter?_eq_file_iff : t.encounter? = some .file ↔ t.isDirectory = false := by
  cases t <;> simp [encounter?]

theorem encounter?_eq_closed_iff : t.encounter? = some .closed ↔ t = .locked true := by
  cases t <;> simp [encounter?]

theorem forall_way_cons_iff (h : t.Leads names sub) (he : sub.encounter? = some e) :
    (∀ dir ∈ e.way (name :: names), enter dir = true) ↔
      (t.isDirectory = true → enter name = true) ∧ ∀ dir ∈ e.way names, enter dir = true := by
  cases names with
  | nil =>
    obtain rfl : sub = t := leads_nil_iff.mp h
    cases e with
    | file => simp [Encounter.way, encounter?_eq_file_iff.mp he]
    | closed => simp [Encounter.way, encounter?_eq_closed_iff.mp he]
  | cons next names =>
    have hdirectory := h.isDirectory
    cases e <;> simp [Encounter.way, hdirectory]

theorem walkAll_eq_flatMap : walkAll enter entries = entries.flatMap fun entry =>
    if entry.2.isDirectory && !enter entry.1 then []
    else (entry.2.walk enter).map fun (names, e) => (entry.1 :: names, e) := by
  induction entries with
  | nil => simp [walkAll]
  | cons entry rest ih => rw [walkAll, ih, List.flatMap_cons]

theorem mem_walkAll_iff : (name :: names, e) ∈ walkAll enter entries ↔
    ∃ t, (name, t) ∈ entries ∧ (t.isDirectory = true → enter name = true) ∧
      (names, e) ∈ t.walk enter := by
  rw [walkAll_eq_flatMap, List.mem_flatMap]
  constructor
  · rintro ⟨⟨entered, t⟩, hmem, hmet⟩
    split at hmet
    · simp at hmet
    · rename_i hopen
      obtain ⟨⟨below, e'⟩, hbelow, heq⟩ := List.mem_map.mp hmet
      simp only [Prod.mk.injEq, List.cons.injEq] at heq
      obtain ⟨⟨rfl, rfl⟩, rfl⟩ := heq
      exact ⟨t, hmem, by simpa using hopen, hbelow⟩
  · rintro ⟨t, hmem, hopen, hbelow⟩
    refine ⟨(name, t), hmem, ?_⟩
    have hentered : ¬ (t.isDirectory && !enter name) = true := by simpa using hopen
    rw [if_neg hentered]
    exact List.mem_map.mpr ⟨(names, e), hbelow, rfl⟩

theorem nil_notMem_walkAll : ([], e) ∉ walkAll enter entries := by
  rw [walkAll_eq_flatMap, List.mem_flatMap]
  rintro ⟨entry, -, hmet⟩
  split at hmet
  · simp at hmet
  · simp at hmet

/-- A walk meets what names lead to through directories that are entered. -/
theorem mem_walk_iff : (names, e) ∈ t.walk enter ↔
    ∃ sub, t.Leads names sub ∧ sub.encounter? = some e ∧
      ∀ dir ∈ e.way names, enter dir = true := by
  induction names generalizing t with
  | nil =>
    cases t with
    | file content => cases e <;> simp [walk, encounter?]
    | locked isDirectory => cases e <;> cases isDirectory <;> simp [walk, encounter?]
    | directory entries => simp [walk, encounter?, nil_notMem_walkAll]
  | cons name names ih =>
    cases t with
    | file content =>
      refine iff_of_false (by simp [walk]) ?_
      rintro ⟨_, hleads, -⟩
      cases hleads
    | locked isDirectory =>
      refine iff_of_false (by simp [walk]) ?_
      rintro ⟨_, hleads, -⟩
      cases hleads
    | directory entries =>
      simp only [walk, mem_walkAll_iff, ih, leads_cons_iff]
      constructor
      · rintro ⟨t, hmem, hopen, sub, hleads, he, hway⟩
        exact ⟨sub, ⟨t, hmem, hleads⟩, he, (forall_way_cons_iff hleads he).mpr ⟨hopen, hway⟩⟩
      · rintro ⟨sub, ⟨t, hmem, hleads⟩, he, hway⟩
        obtain ⟨hopen, hway⟩ := (forall_way_cons_iff hleads he).mp hway
        exact ⟨t, hmem, hopen, sub, hleads, he, hway⟩

theorem mem_walk_file_iff : (names, .file) ∈ t.walk enter ↔
    ∃ sub, t.Leads names sub ∧ sub.isDirectory = false ∧
      ∀ dir ∈ names.dropLast, enter dir = true := by
  simp only [mem_walk_iff, encounter?_eq_file_iff, Encounter.way]

theorem mem_walk_closed_iff : (names, .closed) ∈ t.walk enter ↔
    t.Leads names (.locked true) ∧ ∀ dir ∈ names, enter dir = true := by
  simp [mem_walk_iff, encounter?_eq_closed_iff, Encounter.way]

mutual

/-- What is met comes in the order of the names, from the first name on. -/
theorem pairwise_walk : ∀ {t : Tree}, t.Proper →
    (t.walk enter).Pairwise fun a b => List.Lex (· < ·) a.1 b.1
  | .file _, _ => List.pairwise_singleton _ _
  | .locked _, _ => List.pairwise_singleton _ _
  | .directory _, h => pairwise_walkAll h

theorem pairwise_walkAll : ∀ {entries : List (String × Tree)}, ProperEntries entries →
    (walkAll enter entries).Pairwise fun a b => List.Lex (· < ·) a.1 b.1
  | [], _ => List.Pairwise.nil
  | (name, t) :: rest, ⟨_, ht, hlater, hrest⟩ => by
    rw [walkAll, List.pairwise_append]
    refine ⟨?_, pairwise_walkAll hrest, fun a ha b hb => ?_⟩
    · split
      · exact List.Pairwise.nil
      · exact List.pairwise_map.mpr ((pairwise_walk ht).imp .cons)
    · obtain ⟨names, e⟩ := b
      cases names with
      | nil => exact absurd hb nil_notMem_walkAll
      | cons other names =>
        obtain ⟨sub, hsub, -⟩ := mem_walkAll_iff.mp hb
        split at ha
        · simp at ha
        · obtain ⟨below, -, rfl⟩ := List.mem_map.mp ha
          exact .rel (hlater (other, sub) hsub)

end

end Tree

/-! ## Paths to the files of a tree -/

namespace Path

theorem parts_relative {names : List String} (hne : names ≠ [])
    (hnames : ∀ name ∈ names, IsName name) : parts (relative names) = names := by
  have hsplit : split '/' (relative names).toList = names.map String.toList := by
    rw [relative, String.toList_intercalate]
    refine split_intercalate (by simpa using hne) fun piece hpiece => ?_
    obtain ⟨name, hname, rfl⟩ := List.mem_map.mp hpiece
    exact (hnames name hname).slash_notMem
  rw [parts, hsplit]
  simp

/-- A path that is taken from a directory has the parts of both, apart from an empty part at the
end of the first. -/
theorem parts_join {root relative : String} (hroot : root ≠ "")
    (hrelative : isAbsolute relative = false) :
    ∃ front, (parts root = front ∨ parts root = front ++ [""]) ∧
      parts (join root relative) = front ++ parts relative := by
  have hempty : root.isEmpty = false := by simpa using hroot
  rw [join, hrelative, hempty, Bool.or_self, if_neg Bool.false_ne_true]
  split
  · rename_i hlast
    obtain ⟨front, hfront⟩ := List.getLast?_eq_some_iff.mp (beq_iff_eq.mp hlast)
    refine ⟨(split '/' front).map String.ofList, .inr ?_, ?_⟩
    · rw [parts, hfront, split_concat, List.map_append]
      rfl
    · rw [parts, String.toList_append, hfront, List.append_assoc, List.singleton_append,
        split_concat, List.map_append, parts]
  · refine ⟨parts root, .inl rfl, ?_⟩
    have htext : (root ++ "/" ++ relative).toList = root.toList ++ '/' :: relative.toList := by
      simp
    rw [parts, htext, split_concat, List.map_append, parts, parts]

theorem exists_join_eq {root relative : String} (hroot : root ≠ "")
    (hrelative : isAbsolute relative = false) : ∃ more, join root relative = root ++ more := by
  have hempty : root.isEmpty = false := by simpa using hroot
  rw [join, hrelative, hempty, Bool.or_self, if_neg Bool.false_ne_true]
  split
  · exact ⟨relative, rfl⟩
  · exact ⟨"/" ++ relative, String.append_assoc⟩

theorem isAbsolute_relative {names : List String} (hne : names ≠ [])
    (hnames : ∀ name ∈ names, IsName name) : isAbsolute (relative names) = false := by
  by_contra habsolute
  have hhead : (relative names).toList.head? = some '/' := by
    simpa [isAbsolute] using habsolute
  obtain ⟨more, hmore⟩ := List.head?_eq_some_iff.mp hhead
  have hparts := parts_relative hne hnames
  rw [parts, hmore] at hparts
  have hempty : "" ∈ names := by
    rw [← hparts]
    simp [split]
  exact (hnames "" hempty).ne_empty rfl

end Path

namespace Disk

variable {tree t : Tree} {here there names : List String} {disk : Disk} {root : String}

/-- Names are followed one after another. -/
theorem follow_names_iff (hnames : ∀ name ∈ names, IsName name) :
    follow tree here names = .ok (there, t) ↔
      there = here ++ names ∧ tree.find? (here ++ names) = some t := by
  induction names generalizing here with
  | nil => simp [follow_nil_iff]
  | cons name names ih =>
    obtain ⟨hname, hrest⟩ := List.forall_mem_cons.mp hnames
    rw [follow_cons_iff, enter_name here hname.ne_empty hname.ne_here hname.ne_above, ih hrest,
      List.append_assoc, List.singleton_append]
    refine and_iff_right_of_imp fun ⟨_, hfind⟩ => ?_
    rw [Tree.find?_append] at hfind
    obtain ⟨sub, hsub, hbelow⟩ := Option.bind_eq_some_iff.mp hfind
    cases sub with
    | file content => simp at hbelow
    | locked isDirectory => simp at hbelow
    | directory entries => exact ⟨entries, hsub⟩

theorem find?_of_resolve {path : String} (h : disk.resolve path = .ok (names, t)) :
    disk.tree.find? names = some t := by
  unfold resolve at h
  split at h
  · cases h
  · exact find?_of_follow h

theorem read_eq_ok_iff {path : String} {content : Bytes} :
    disk.read path = .ok content ↔ ∃ there, disk.resolve path = .ok (there, .file content) := by
  unfold read
  split <;> rename_i hresolve <;> simp [hresolve]

theorem exists_follow_of_append {first more : List String} {result : List String × Tree}
    (h : follow tree here (first ++ more) = .ok result) :
    ∃ mid sub, follow tree here first = .ok (mid, sub) := by
  induction first generalizing here with
  | nil =>
    cases more with
    | nil => exact ⟨_, _, h⟩
    | cons part rest =>
      obtain ⟨⟨entries, hfind⟩, -⟩ := follow_cons_iff.mp h
      exact ⟨here, _, follow_nil_iff.mpr ⟨rfl, hfind⟩⟩
  | cons part rest ih =>
    obtain ⟨hdir, hmore⟩ := follow_cons_iff.mp h
    obtain ⟨mid, sub, hrest⟩ := ih hmore
    exact ⟨mid, sub, follow_cons_iff.mpr ⟨hdir, hrest⟩⟩

/-- Where names lead from what a path leads to if they are written after it. -/
theorem resolve_join_iff (hroot : disk.resolve root = .ok (here, tree))
    (hne : names ≠ []) (hnames : ∀ name ∈ names, IsName name) :
    disk.resolve (Path.join root (Path.relative names)) = .ok (there, t) ↔
      there = here ++ names ∧ tree.find? names = some t := by
  have hroot' : root ≠ "" := by
    rintro rfl
    simp [resolve] at hroot
  have hempty : root.isEmpty = false := by simpa using hroot'
  simp only [resolve, hempty] at hroot
  have hrelative := Path.isAbsolute_relative hne hnames
  obtain ⟨front, hfront, hparts⟩ := Path.parts_join hroot' hrelative
  rw [Path.parts_relative hne hnames] at hparts
  have hfollow : follow disk.tree (disk.start root) front = .ok (here, tree) := by
    rcases hfront with hfront | hfront
    · rwa [hfront] at hroot
    · rw [hfront] at hroot
      obtain ⟨mid, sub, hmid⟩ := exists_follow_of_append hroot
      have hlast := (follow_append_iff hmid [""]).mp hroot
      obtain rfl : here = mid := (follow_nil_iff.mp (follow_cons_iff.mp hlast).2).1
      have hfind := find?_of_follow hmid
      rw [find?_of_follow hroot, Option.some.injEq] at hfind
      rwa [← hfind] at hmid
  obtain ⟨more, hjoin⟩ := Path.exists_join_eq hroot' hrelative
  have hstart : disk.start (root ++ more) = disk.start root := by
    have hne : root.toList ≠ [] := fun h => hroot' (String.toList_eq_nil_iff.mp h)
    obtain ⟨c, cs, hcs⟩ := List.exists_cons_of_ne_nil hne
    simp [start, Path.isAbsolute, hcs]
  have hjoined : (root ++ more).isEmpty = false := by simp [hroot']
  rw [hjoin] at hparts ⊢
  rw [resolve, hjoined, if_neg Bool.false_ne_true, hparts, hstart, follow_append_iff hfollow,
    follow_names_iff hnames, Tree.find?_append, find?_of_follow hfollow, Option.bind_some]

/-- The root is a directory, and all directories are as they can be. -/
structure Proper (disk : Disk) : Prop where
  directory : ∃ entries, disk.tree = .directory entries
  tree : disk.tree.Proper

/-- The path that has the names of something leads to it. -/
theorem resolve_ofNames (hdisk : disk.Proper) (h : disk.tree.find? names = some t) :
    disk.resolve (Path.ofNames names) = .ok (names, t) := by
  obtain ⟨entries, htree⟩ := hdisk.directory
  have htop : disk.resolve "/" = .ok ([], .directory entries) := by
    change follow disk.tree [] ["", ""] = _
    simp [follow, htree]
  cases names with
  | nil =>
    obtain rfl : disk.tree = t := by simpa using h
    rw [htree]
    exact htop
  | cons name rest =>
    have hnames := (hdisk.tree.of_find? h).2
    have hjoin : Path.join "/" (Path.relative (name :: rest)) =
        Path.ofNames (name :: rest) := by
      simp [Path.join, Path.isAbsolute_relative (List.cons_ne_nil name rest) hnames,
        Path.ofNames]
    rw [← hjoin]
    exact (resolve_join_iff htop (List.cons_ne_nil name rest) hnames).mpr ⟨rfl, htree ▸ h⟩

end Disk

end Availability.Files
