import Availability.Proofs.Evaluation

/-!
# The case of letters does not count

The names of functions and classes may be written in any case, in calls, in tests and in
declarations alike: what is reported stays the same, letter by letter. The names of variables and of
methods are told apart by case, so they are left as they are.
-/
namespace Availability

open Php

namespace SymbolTable

/-- No two symbols of the table differ in the case of letters only. -/
def DistinctLetters (table : SymbolTable) : Prop :=
  (table.symbols.map fun entry => Text.lower entry.1).Nodup

instance (table : SymbolTable) : Decidable table.DistinctLetters :=
  inferInstanceAs (Decidable (List.Nodup _))

theorem find?_of_mem {symbols : List (String × SymbolEntry)}
    (h : (symbols.map fun entry => Text.lower entry.1).Nodup) {found : String × SymbolEntry}
    (hfound : found ∈ symbols) :
    symbols.find? (fun entry => Text.sameLetters entry.1 found.1) = some found := by
  induction symbols with
  | nil => cases hfound
  | cons entry rest ih =>
    rw [List.map_cons, List.nodup_cons] at h
    rcases List.mem_cons.mp hfound with rfl | hrest
    · rw [List.find?_cons_of_pos]
      simp
    · have hne : Text.lower entry.1 ≠ Text.lower found.1 := by
        intro heq
        exact h.1 (heq ▸ List.mem_map_of_mem hrest)
      rw [List.find?_cons_of_neg (by simpa using hne)]
      exact ih h.2 hrest

/-- Where no two symbols differ in case only, an exact match is the only match. -/
theorem find?_eq {table : SymbolTable} (h : table.DistinctLetters) (name : String) :
    table.find? name = table.symbols.find? fun entry => Text.sameLetters entry.1 name := by
  rw [find?_eq_first, Keyed.get?]
  cases hexact : table.symbols.find? (·.1 == name) with
  | none => rfl
  | some found =>
    have hname : found.1 = name := by simpa using List.find?_some hexact
    have hmem := List.mem_of_find?_eq_some hexact
    rw [← hname, find?_of_mem h hmem]
    rfl

theorem find?_congr {table : SymbolTable} (h : table.DistinctLetters) {a b : String}
    (hab : Text.lower a = Text.lower b) : table.find? a = table.find? b := by
  rw [find?_eq h, find?_eq h]
  simp only [Text.sameLetters, hab]

end SymbolTable

/-- Trees of the same shape whose texts differ in the case of letters only, and not in the names of
variables and methods. -/
def Respelled (tree tree' : Node) : Prop :=
  ∀ path, Option.Rel (fun n n' => SameHead .anyCase n n' ∧ KeepsMethods n n')
    (tree.at? path) (tree'.at? path)

theorem Respelled.alike {tree tree' : Node} (h : Respelled tree tree') :
    Alike .anyCase none tree tree' where
  heads path _ := rel_imp (h path) fun _ _ hrel => hrel.1
  hole := nofun

theorem Respelled.keepsMethods {tree tree' : Node} (h : Respelled tree tree') :
    KeepsMethodsOutside none tree tree' := by
  intro path n n' _ hn hn'
  have hpath := h path
  rw [hn, hn'] at hpath
  cases hpath with
  | some hrel => exact hrel.2

theorem Respelled.refl (tree : Node) : Respelled tree tree := fun path =>
  rel_refl (fun n => ⟨.refl .anyCase n, .refl n⟩) (tree.at? path)

/-- Nodes are respelled if they themselves and their children are. -/
theorem Respelled.of_children {n n' : Node} (hhead : SameHead .anyCase n n')
    (hmethods : KeepsMethods n n') (h : List.Forall₂ Respelled n.children n'.children) :
    Respelled n n' := by
  intro path
  cases path with
  | nil => exact .some ⟨hhead, hmethods⟩
  | cons i path =>
    rw [Node.at?, Node.at?]
    rcases rel_cases (rel_getElem? h i) with ⟨hnone, hnone'⟩ | ⟨c, c', hc, hc', hrel⟩
    · rw [hnone, hnone']
      exact .none
    · rw [hc, hc']
      exact hrel path

/-- A policy says the same about a source in whatever case its functions and classes are written. -/
theorem Policy.diagnose_respelled (p : Policy) (hsymbols : p.table.DistinctLetters) (file : String)
    {tree tree' : Node} (h : Respelled tree tree') :
    p.diagnose file tree = p.diagnose file tree' := by
  have hvisits := visits_simulated h.alike h.keepsMethods
  have hall (t : Node) : (visits t).filter (outside none ·.path) = visits t :=
    List.filter_eq_self.mpr fun _ _ => rfl
  rw [hall, hall] at hvisits
  rw [diagnose_eq, diagnose_eq]
  exact filterMap_report_related (fun a b hab => SymbolTable.find?_congr hsymbols hab) file hvisits

/-- A call of a method of a new object of a class. -/
def callOfNew (className : String) : Node :=
  .mk .program .none 1 none [
    .mk .methodCall .none 1 none [
      .mk .parenthesized .receiver 1 none [
        .mk .objectCreation .none 1 none [.mk .name .none 1 (some className) []]],
      .mk .name .name 1 (some "send") [],
      .mk .arguments .arguments 1 none []]]

theorem callOfNew_respelled {name name' : String} (h : Text.lower name = Text.lower name') :
    Respelled (callOfNew name) (callOfNew name') := by
  have hname : Respelled (.mk .name .none 1 (some name) []) (.mk .name .none 1 (some name') []) :=
    .of_children ⟨rfl, rfl, rfl, congrArg some h, nofun⟩ (.of_not_isCall rfl) .nil
  have hobject : Respelled (.mk .objectCreation .none 1 none [.mk .name .none 1 (some name) []])
      (.mk .objectCreation .none 1 none [.mk .name .none 1 (some name') []]) :=
    .of_children ⟨rfl, rfl, rfl, rfl, nofun⟩ (.of_not_isCall rfl) (.cons hname .nil)
  refine .of_children ⟨rfl, rfl, rfl, rfl, nofun⟩ (.of_not_isCall rfl) (.cons ?_ .nil)
  refine .of_children ⟨rfl, rfl, rfl, rfl, nofun⟩ ⟨fun _ => rfl, nofun⟩
    (.cons ?_ (.cons (.refl _) (.cons (.refl _) .nil)))
  exact .of_children ⟨rfl, rfl, rfl, rfl, nofun⟩ (.of_not_isCall rfl) (.cons hobject .nil)

theorem Policy.diagnose_respelled_callOfNew :
    let p : Policy :=
      { table := { symbols := [("Client::send", ⟨⟨6, 1, 0⟩, none⟩)] }, minimum := ⟨6, 0, 0⟩,
        classes := {} }
    p.table.DistinctLetters ∧ Respelled (callOfNew "Client") (callOfNew "CLIENT") ∧
      (p.diagnose "a.php" (callOfNew "Client")).length = 1 ∧
      p.diagnose "a.php" (callOfNew "Client") = p.diagnose "a.php" (callOfNew "CLIENT") :=
  ⟨by decide, callOfNew_respelled (by decide), by decide +kernel,
    Policy.diagnose_respelled _ (by decide) "a.php" (callOfNew_respelled (by decide))⟩

end Availability
