import Availability.Proofs.Evaluation

/-!
# Bodies of functions are isolated

The body of a function can be replaced by any other without a change to what is reported outside of
it. The function has to stand where the grammar has functions: it is not itself the argument list of
a call or the parameter list of a function, and it is not part of a type, for what is in those is
read by others than the walk.
-/
namespace Availability

open Php

namespace Php.Node

/-- The tree with another node at a path. -/
def replaceAt (replacement : Node) : Path → Node → Node
  | [], _ => replacement
  | i :: path, mk kind role line text children =>
    mk kind role line text (children.modify i (replaceAt replacement path))

/-- The roles of the nodes on the way to a path, both ends included. -/
def rolesAlong (n : Node) : Path → List Role
  | [] => [n.role]
  | i :: path => n.role :: (n.children[i]?.map fun c => c.rolesAlong path).getD []

variable {n f replacement : Node} {i : Nat} {path : Path}

theorem ownBody_of_at? (hf : n.at? path = some f) (howner : f.IsOwner)
    (htype : .type ∉ n.rolesAlong path) (hbody : f.place? .body = some i) :
    OwnBody n (path ++ [i]) := by
  induction path generalizing n with
  | nil =>
    obtain rfl : n = f := by simpa [at?] using hf
    have hrole : n.role ≠ .type := fun h => htype (by simp [rolesAlong, h])
    exact .here howner hrole hbody
  | cons j path ih =>
    obtain ⟨c, hc, hbelow⟩ := Option.bind_eq_some_iff.mp hf
    rw [rolesAlong, hc, Option.map_some, Option.getD_some, List.mem_cons, not_or] at htype
    exact .inside (Ne.symm htype.1) hc (ih hbelow htype.2)

theorem getElem?_replaceAt_cons (j : Nat) :
    (replaceAt replacement (i :: path) n).children[j]? =
      if j = i then n.children[j]?.map (replaceAt replacement path) else n.children[j]? := by
  obtain ⟨kind, role, line, text, children⟩ := n
  change (children.modify i (replaceAt replacement path))[j]? = _
  rw [List.getElem?_modify]
  by_cases h : i = j
  · subst h
    simp only [if_true]
    rfl
  · simp only [h, Ne.symm h, if_false]
    exact Option.map_id'

theorem sameHead_replaceAt_cons :
    SameHead .exact n (replaceAt replacement (i :: path) n) := by
  obtain ⟨kind, role, line, text, children⟩ := n
  exact ⟨rfl, rfl, rfl, rfl, fun _ => rfl⟩

theorem place?_replaceAt {role : Role} (hplace : n.place? role = some i)
    (hrole : replacement.role = role) :
    (replaceAt replacement [i] n).place? role = some i := by
  have hroles : (replaceAt replacement [i] n).children.map Node.role =
      n.children.map Node.role := by
    obtain ⟨c, hc, hcrole⟩ := role_of_place? hplace
    apply List.ext_getElem?
    intro j
    rw [List.getElem?_map, List.getElem?_map, getElem?_replaceAt_cons]
    split
    · rename_i hj
      rw [hj, hc]
      simp [replaceAt, hrole, hcrole]
    · rfl
  have hmap (m : Node) : m.place? role = (m.children.map Node.role).findIdx? (· == role) := by
    rw [List.findIdx?_map]
    rfl
  rw [hmap, hroles, ← hmap, hplace]

theorem ownBody_replaceAt (h : OwnBody n path) (hrole : replacement.role = .body) :
    OwnBody (replaceAt replacement path n) path := by
  induction h with
  | @here n i howner htype hbody =>
    have hhead : SameHead .exact n (replaceAt replacement [i] n) := sameHead_replaceAt_cons
    refine .here ?_ (by rw [hhead.role]; exact htype) (place?_replaceAt hbody hrole)
    unfold IsOwner
    rw [hhead.kind, hhead.role]
    exact howner
  | @inside n c i path htype hc h ih =>
    have hhead : SameHead .exact n (replaceAt replacement (i :: path) n) := sameHead_replaceAt_cons
    refine .inside (by rw [hhead.role]; exact htype) ?_ ih
    rw [getElem?_replaceAt_cons, if_pos rfl, hc]
    rfl

/-- Away from the replaced node the trees have the same nodes. -/
theorem heads_replaceAt {q : Path} (hq : ¬path <+: q) :
    Option.Rel (SameHead .exact) (n.at? q) ((replaceAt replacement path n).at? q) := by
  induction path generalizing n q with
  | nil => exact absurd (List.nil_prefix) hq
  | cons i path ih =>
    cases q with
    | nil => exact .some sameHead_replaceAt_cons
    | cons j q =>
      rw [at?, at?, getElem?_replaceAt_cons]
      cases hc : n.children[j]? with
      | none =>
        split <;> exact .none
      | some c =>
        split
        · rename_i hj
          exact ih fun hprefix => hq (by rw [hj]; exact (List.prefix_cons_inj i).mpr hprefix)
        · exact rel_refl (SameHead.refl .exact) _

theorem alike_replaceAt (h : OwnBody n path) (hrole : replacement.role = .body) :
    Alike .exact (some path) n (replaceAt replacement path n) where
  heads q hq := heads_replaceAt fun hprefix => hq ⟨path, rfl, hprefix⟩
  hole p hp := by
    obtain rfl : path = p := by simpa using hp
    exact ⟨h, ownBody_replaceAt h hrole⟩

end Php.Node

section Exact

variable {n n' : Node}

theorem Spelling.eq_of_map_exact {a b : Option String}
    (h : a.map Spelling.exact.norm = b.map Spelling.exact.norm) : a = b := by
  simpa [Spelling.exact] using h

/-- Where every letter counts, so do those of the names of methods. -/
theorem Near.keepsMethods (h : Near .exact n n') : KeepsMethods n n' := by
  constructor
  · intro _
    unfold Candidate.methodName?
    rcases rel_cases (h.child? .name) with
      ⟨hnone, hnone'⟩ | ⟨c, c', hc, hc', -, hrel⟩
    · rw [hnone, hnone']
    · rw [hc, hc']
      simp only [hrel.head.kind, Spelling.eq_of_map_exact hrel.head.text]
  · intro _
    have hcallee := Spelling.eq_of_map_exact <| rel_bind_map
      (h.child? .callee) fun _ _ hc => hc.2.head.literalName?
    have hmember := Spelling.eq_of_map_exact <| rel_bind_map
      (rel_getElem? h.callArguments 1) fun _ _ hc => hc.head.literalString?
    unfold Node.testedMember?
    rw [hcallee, hmember]

theorem Alike.near_at {S : Spelling} {hole : Option Path} {path : Path} {m m' : Node}
    (h : Alike S hole n n') (hpath : ¬Within hole path) (hm : n.at? path = some m)
    (hm' : n'.at? path = some m') : Near S m m' := by
  induction path generalizing n n' hole with
  | nil =>
    obtain rfl : n = m := by simpa using hm
    obtain rfl : n' = m' := by simpa using hm'
    exact ⟨hole, h⟩
  | cons i path ih =>
    obtain ⟨c, hc, hm⟩ := Option.bind_eq_some_iff.mp hm
    obtain ⟨c', hc', hm'⟩ := Option.bind_eq_some_iff.mp hm'
    have hi : hole ≠ some [i] := by
      rintro rfl
      exact hpath ⟨[i], rfl, by simp⟩
    exact ih (h.child hi hc hc') (fun hwithin => hpath (h.within_holeBelow.mp hwithin)) hm hm'

end Exact

namespace Policy

/-- The diagnostics of a file, each with the place of its call, in the order of the walk. -/
def located (p : Policy) (file : String) (tree : Node) : List (Path × Diagnostic) :=
  (visits tree).filterMap fun v => (p.report file v).map fun d => (v.path, d)

/-- The diagnostics of the calls that are not at or below a path, in the order of the walk. -/
def diagnoseOutside (p : Policy) (file : String) (path : Path) (tree : Node) : List Diagnostic :=
  ((visits tree).filter (outside (some path) ·.path)).filterMap (p.report file)

variable (p : Policy) (file : String) (tree : Node)

theorem diagnose_eq_located : p.diagnose file tree = (p.located file tree).map Prod.snd := by
  simp [diagnose_eq, located, List.map_filterMap, Function.comp_def]

theorem diagnoseOutside_eq_located (path : Path) : p.diagnoseOutside file path tree =
    ((p.located file tree).filter fun d => !path.isPrefixOf d.1).map Prod.snd := by
  rw [diagnoseOutside, located, List.filterMap_filter, List.filter_filterMap, List.map_filterMap]
  refine List.filterMap_congr fun v _ => ?_
  cases p.report file v with
  | none => simp
  | some d =>
    rw [Option.map_some, Option.filter_some, outside, Option.any_some]
    cases path.isPrefixOf v.path <;> rfl

/-- What stands at the place of a diagnostic is on its line. -/
theorem at?_of_mem_located {d : Path × Diagnostic} (h : d ∈ p.located file tree) :
    ∃ call, tree.at? d.1 = some call ∧ call.line = d.2.line := by
  obtain ⟨v, hv, hd⟩ := List.mem_filterMap.mp h
  obtain ⟨reported, hreported, rfl⟩ := Option.map_eq_some_iff.mp hd
  obtain ⟨finding, -, rfl⟩ := Option.map_eq_some_iff.mp hreported
  exact ⟨v.node, at?_of_mem_visits hv, rfl⟩

variable {tree}

/-- The body of a function, method or closure has no influence on what is reported outside of it:
the diagnostics of the file at places that are not in the body are the same with any other body. -/
theorem diagnoseOutside_replace_body {f : Node} {path : Path}
    {i : Nat} (hf : tree.at? path = some f) (hkind : f.kind.isFunction = true)
    (hrole : f.role ≠ .arguments ∧ f.role ≠ .parameters) (htype : .type ∉ tree.rolesAlong path)
    (hbody : f.place? .body = some i) (body : Node) :
    p.diagnoseOutside file (path ++ [i])
        (Node.replaceAt (body.withRole .body) (path ++ [i]) tree) =
      p.diagnoseOutside file (path ++ [i]) tree ∧
    ∀ t : Node, p.diagnose file t = (p.located file t).map Prod.snd ∧
      p.diagnoseOutside file (path ++ [i]) t =
        ((p.located file t).filter fun d => !(path ++ [i]).isPrefixOf d.1).map Prod.snd ∧
      ∀ d ∈ p.located file t, ∃ call, t.at? d.1 = some call ∧ call.line = d.2.line := by
  have hown := Node.ownBody_of_at? hf ⟨hkind, hrole⟩ htype hbody
  have halike := Node.alike_replaceAt hown (Node.role_withRole .body body)
  have hvisits := visits_simulated halike fun q m m' hq hm hm' =>
    (halike.near_at hq hm hm').keepsMethods
  have hfind (a b : String) (hab : Spelling.exact.norm a = Spelling.exact.norm b) :
      p.table.find? a = p.table.find? b := congrArg p.table.find? hab
  exact ⟨(filterMap_report_related hfind file hvisits).symm, fun t => ⟨p.diagnose_eq_located file t,
    p.diagnoseOutside_eq_located file t _, fun _ => p.at?_of_mem_located file t⟩⟩

end Policy

/-- A call of a method of `$x`, after a function that has an `$x` of another class. -/
def callAfterFunction : Node :=
  let x (role : Role) : Node := .mk .variable role 1 (some "$x") []
  let create (name : String) : Node :=
    .mk .assignment .none 1 none
      [x .left, .mk .objectCreation .right 1 none [.mk .name .none 1 (some name) []]]
  .mk .program .none 1 none [
    create "Client",
    .mk .function .none 2 none
      [.mk .name .name 2 (some "boot") [], .mk .other .body 2 none [create "Other"]],
    .mk .methodCall .none 3 none
      [x .receiver, .mk .name .name 3 (some "send") [], .mk .arguments .arguments 3 none []]]

def clientPolicy : Policy where
  table := { symbols := [("Client::send", ⟨⟨6, 1, 0⟩, none⟩)] }
  minimum := ⟨6, 0, 0⟩
  classes := {}

theorem Policy.diagnoseOutside_replace_body_callAfterFunction :
    let replaced := Node.replaceAt ((Node.mk .other .none 2 none []).withRole .body) ([1] ++ [1])
      callAfterFunction
    let d : Diagnostic := ⟨.methodNotAvailable,
      "Client::send() is only available since WordPress version 6.1.0.", "a.php", 3, "Client::send",
      ⟨6, 1, 0⟩⟩
    ∃ f, callAfterFunction.at? [1] = some f ∧ f.kind.isFunction = true ∧
      (f.role ≠ .arguments ∧ f.role ≠ .parameters) ∧
      .type ∉ callAfterFunction.rolesAlong [1] ∧ f.place? .body = some 1 ∧
      clientPolicy.located "a.php" callAfterFunction = [([2], d)] ∧
      clientPolicy.diagnose "a.php" callAfterFunction = [d] ∧
      clientPolicy.diagnoseOutside "a.php" ([1] ++ [1]) callAfterFunction = [d] ∧
      clientPolicy.diagnoseOutside "a.php" ([1] ++ [1]) replaced = [d] := by
  intro replaced d
  have hlocated : clientPolicy.located "a.php" callAfterFunction = [([2], d)] := by
    decide +kernel
  obtain ⟨hsame, hplaces⟩ := @diagnoseOutside_replace_body clientPolicy "a.php" callAfterFunction _
    [1] 1 rfl rfl (by decide) (by decide) rfl (.mk .other .none 2 none [])
  obtain ⟨hall, houtside, -⟩ := hplaces callAfterFunction
  rw [hlocated] at hall houtside
  exact ⟨_, rfl, rfl, by decide, by decide, rfl, hlocated, hall, houtside, hsame.trans houtside⟩

end Availability
