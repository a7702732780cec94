import Availability.Php.Program
import Availability.Proofs.QuotedExtents

/-!
# The grammar keeps nodes in place

All rules of the grammar read a source in order. Most are put together from combinators that do; a
rule that decides by the nodes so far or by the position is taken apart here. A source is then read
into a tree whose nodes all stand for parts of it, on the lines on which these parts start.
-/
namespace Availability.Php

namespace Grammar

open Rule

variable {s : Source}

section Names

variable (ends : Bool)

instance : Passes s (nameParts ends) := by
  unfold nameParts
  infer_instance

instance : Reads s [] (typeReference ends) := by
  unfold typeReference
  infer_instance

instance : Reads s [] (anyName ends) := by
  unfold anyName
  infer_instance

instance : Reads s [] (namespaceName ends) := by
  unfold namespaceName
  infer_instance

instance : Reads s [] (typeName ends) := by
  unfold typeName
  infer_instance

instance : Reads s [] (type ends) := by
  unfold type typeGroup
  infer_instance

instance : Reads s [] (returnType ends) := by
  unfold returnType
  infer_instance

end Names

variable (r : Rules) [hr : ∀ goal, Reads s [] (r goal)]

instance (ends : Bool) : Reads s [] (r.anyLevel ends) := hr _

instance : Reads s [] r.final := hr _

instance : Reads s [] r.statement := hr _

section Functions

variable (ends : Bool) (before : List Node)

instance : Reads s [] referenceMark := by
  unfold referenceMark
  infer_instance

instance {item : Rule} [Reads s [] item] : Reads s [] (braced item) := by
  unfold braced
  infer_instance

instance : Reads s [] (body r) := by
  unfold body block
  infer_instance

instance : Reads s [] (unpacked r) := by
  unfold unpacked
  infer_instance

instance : Reads s [] (arguments r) := by
  unfold arguments argument argumentValue
  infer_instance

instance : Reads s [] (attributes r) := by
  unfold attributes
  infer_instance

instance : Reads s [] visibility := by
  unfold visibility
  infer_instance

instance : Reads s [] modifiers := by
  unfold modifiers
  infer_instance

instance : Reads s [] (defaultValue r ends) := by
  unfold defaultValue
  infer_instance

instance : Reads s [] (byReference r) := by
  unfold byReference
  infer_instance

instance : Reads s [] (hooks r) := by
  unfold hooks hook
  infer_instance

instance : Reads s before (plainParameter r before) := by
  unfold plainParameter typeBeforeName
  infer_instance

instance : Reads s before (promotedParameter r before) := by
  unfold promotedParameter
  infer_instance

instance : Reads s [] (parameters r) := by
  unfold parameters parameter
  infer_instance

instance : Reads s [] (functionHeader r ends) := by
  unfold functionHeader
  infer_instance

instance : Reads s before (functionExpression r ends before) := by
  unfold functionExpression captures capture
  infer_instance

end Functions

section Declarations

variable (ends : Bool) (before : List Node)

instance : Reads s [] (names ends) := by
  unfold names
  infer_instance

instance : Reads s [] baseClause := by
  unfold baseClause
  infer_instance

instance : Reads s [] interfaces := by
  unfold interfaces
  infer_instance

instance : Reads s before (constants r before) := by
  unfold constants
  infer_instance

instance : Reads s [] (traitUse r) := by
  unfold traitUse traitRule
  infer_instance

instance : Reads s before (method r before) := by
  unfold method
  infer_instance

instance : Reads s before (property r before) := by
  unfold property
  infer_instance

instance : Reads s [] (members r) := by
  unfold members member
  infer_instance

instance : Reads s [] (enumMember r) := by
  unfold enumMember
  infer_instance

instance : Reads s [] (anonymousClass r) := by
  unfold anonymousClass
  infer_instance

instance : Reads s before (classDeclaration r before) := by
  unfold classDeclaration
  infer_instance

instance : Reads s before (declaration r before) := by
  unfold declaration interfaceDeclaration traitDeclaration enumDeclaration functionDeclaration
  infer_instance

end Declarations

section Operands

variable (ends brackets lists : Bool) (nodes : List Node)

instance : Reads s [] (parenthesized r) := by
  unfold parenthesized
  infer_instance

instance : Reads s [] (condition r) := by
  unfold condition
  infer_instance

instance : Reads s [] (anyVariable r) := by
  unfold anyVariable inBraces
  infer_instance

instance : Reads s [] (elementValue r brackets lists) := by
  unfold elementValue
  infer_instance

instance : Reads s [] (element r brackets lists) := by
  unfold element
  infer_instance

instance {close : String} {item : Rule} [Reads s [] item] : Reads s [] (slotted close item) := by
  unfold slotted
  infer_instance

instance : Reads s [] (bracketed r) := by
  have hkind (nodes : List Node) : Reads s nodes
      (match bracketedKind? (slots nodes) with
      | none => fail
      | some kind => given (wrap kind nodes)) := by
    split <;> infer_instance
  unfold bracketed
  infer_instance

instance : Reads s [] (listPattern r) := by
  unfold listPattern
  infer_instance

instance : Reads s [] (wordedArray r) := by
  unfold wordedArray
  infer_instance

instance : Reads s [] (matchExpression r) := by
  unfold matchExpression matchArm
  infer_instance

instance : Reads s [] (memberName r) := by
  unfold memberName
  infer_instance

instance : Reads s [] (index r) := by
  unfold index
  infer_instance

instance : Reads s nodes (extend (classVariableNext r ends) nodes) := by
  refine reads_extend fun nodes p rule h => ?_
  unfold classVariableNext at h
  split_ifs at h <;> cases h <;> infer_instance

instance : Reads s [] (classReference r ends) := by
  unfold classReference
  infer_instance

instance : Reads s [] (objectCreation r ends) := by
  unfold objectCreation
  infer_instance

instance (start : Nat) : Reads s [] (singleQuoted start) := by
  refine @reads_choose _ _ _ fun p => ?_
  split <;> infer_instance

instance : Reads s [] number := by
  unfold number
  infer_instance

instance : Reads s [] (leading r ends) := by
  unfold leading
  infer_instance

instance : Reads s [] (literal r) := by
  unfold literal
  infer_instance

instance : Reads s [] (storableOperand r ends) := by
  unfold storableOperand scopeWord
  infer_instance

instance (reach : Reach) : Reads s [] (operand r reach ends) := by
  unfold operand
  infer_instance

instance : Reads s nodes (memberAccess r ends nodes) where
  leads hp hnodes h := Reads.leads (r := andThen (seq [given (mark .receiver nodes), _, _]) _)
    hp hnodes h

instance : Reads s nodes (scopeAccess r ends nodes) where
  leads hp hnodes h := Reads.leads (r := andThen (seq [given (mark .scope nodes), _, _]) _)
    hp hnodes h

instance : Reads s nodes (applications r ends nodes) := by
  refine reads_extend fun nodes p rule h => ?_
  unfold applied at h
  dsimp only at h
  split_ifs at h <;> cases h <;> infer_instance

instance : Reads s nodes (updated ends nodes) := by
  unfold updated
  infer_instance

instance {value : Rule} [Reads s [] value] : Reads s [] (cast value) := by
  unfold cast
  infer_instance

instance : Reads s [] (storable r ends) := by
  unfold storable
  infer_instance

instance : Reads s [] (traitMethod r) := by
  unfold traitMethod
  infer_instance

end Operands

section Expressions

variable (ends : Bool) (place : Place) (nodes : List Node)

instance : Reads s nodes (combined r place nodes) := by
  refine reads_extend fun nodes p rule h => ?_
  unfold combinedNext conditionalRest at h
  split at h
  · cases h
  · split at h
    · split at h
      · cases h
        infer_instance
      · cases h
    · split at h
      · cases h
      · split at h
        · cases h
          infer_instance
        · cases h

instance : Reads s nodes (tested r place nodes) := by
  unfold tested
  infer_instance

theorem reads_assignment? {rule : Rule} {p : Position}
    (h : assignment? r place nodes p = some rule) : Reads s nodes rule := by
  unfold assignment? at h
  dsimp only at h
  split_ifs at h <;> cases h
  · exact inferInstanceAs (Reads s nodes (following _ (mark _ nodes) (seq [_, _, _])))
  · exact inferInstanceAs (Reads s nodes (following _ (mark _ nodes) (seq [_, _])))
  · exact inferInstanceAs (Reads s nodes (following _ (mark _ nodes) (seq [_, _])))

instance : Reads s nodes (afterOperand r place nodes) := by
  refine @reads_choose _ _ _ fun p => ?_
  split
  · have := reads_assignment? (s := s) r place nodes ‹_›
    infer_instance
  · infer_instance

instance : Reads s [] (yieldExpression r ends) := by
  unfold yieldExpression
  infer_instance

instance : Reads s [] (counted r ends) := by
  unfold counted
  infer_instance

instance : Reads s [] (primary r ends) := by
  unfold primary
  infer_instance

instance : Reads s [] (suppressed r ends) := by
  unfold suppressed
  infer_instance

instance (reach : Reach) : Reads s [] (unaryOperand r reach ends) := by
  unfold unaryOperand signed castValue cloned
  infer_instance

instance : Reads s [] (unary r ends) := by
  unfold unary
  infer_instance

instance : Reads s [] (expression r place) := by
  unfold expression
  infer_instance

instance (brackets lists : Bool) : Reads s [] (expressionOrPattern r brackets lists) := by
  unfold expressionOrPattern
  infer_instance

end Expressions

section Statements

instance (words : List String) : Reads s [] (statementsUntil r words) := by
  unfold statementsUntil
  infer_instance

instance (words : List String) : Reads s [] (colonBlock r words) := by
  unfold colonBlock
  infer_instance

instance (words : List String) (close : String) : Reads s [] (bodyOrColon r words close) := by
  unfold bodyOrColon
  infer_instance

instance (words : List String) (close : String) : Reads s [] (bodyOrEnd r words close) := by
  unfold bodyOrEnd
  infer_instance

instance {body : Rule} [Reads s [] body] : Reads s [] (otherwise body) := by
  unfold otherwise
  infer_instance

/-- An `elseif` that has been read ahead is kept with its nodes. -/
instance : Reads s [] (elseIfHead r) where
  leads {p _ _ _ _ b} hp hbefore h := by
    rw [elseIfHead] at h
    split at h
    · cases h
      obtain ⟨k, hle, hc, hnodes⟩ := hp.branch _ _ _ ‹_›
      obtain ⟨b', hb', hafter⟩ := Position.after_at hc _
      have hab := hp.gap.le
      exact ⟨k, b', hafter, by omega, by omega, hnodes.weaken hbefore.le le_rfl⟩
    · exact Reads.leads (r := seq _) hp hbefore h

instance : Passes s (elseIfHead r) where
  past hp h := by
    rw [elseIfHead] at h
    split at h
    · cases h
      obtain ⟨k, hle, hc, -⟩ := hp.branch _ _ _ ‹_›
      obtain ⟨b', -, hafter⟩ := Position.after_at hc _
      exact ⟨k, b', hafter, hle⟩
    · exact Passes.past (r := seq _) hp h

/-- What has been read of a branch that belongs to an outer `if` stays with the position. -/
theorem leads_plainBranches {p p' : Position} {nodes : List Node} {a b : Nat} (hp : p.At s a b)
    (h : plainBranches r p = some (nodes, p')) : Leads s a a b nodes p' := by
  fun_induction plainBranches r p generalizing a b nodes p' with
  | case1 => cases h
  | case2 p hword head next hhead hcolon =>
    cases h
    obtain ⟨a', b', hnext, -, -, hnodes⟩ := Reads.leads_nil hp hhead
    obtain ⟨a'', b'', hnext', hle⟩ := Passes.past hp hhead
    obtain rfl := hnext.last.unique hnext'.last
    refine .refl ⟨hp.last, hp.next, hp.gap, fun _ _ _ hbranch => ?_⟩ (.nil le_rfl)
    cases hbranch
    exact ⟨a', hle, hnext.last, hnodes⟩
  | case3 => cases h
  | case4 p hword head next hhead hcolon clause rest hclause hleft ih =>
    obtain ⟨⟨more, last⟩, hmore, hmap⟩ := Option.map_eq_some_iff.mp h
    cases hmap
    obtain ⟨a', b', hnext, ha, hb, hnodes⟩ := Reads.leads_nil hp hhead
    have hclause := (Reads.leads hnext hnodes hclause).weaken le_rfl ha hb
    exact hclause.append fun a'' b'' hrest => ih hrest hmore
  | case5 => cases h
  | case6 => exact Reads.leads_nil hp h
  | case7 =>
    cases h
    exact .refl ⟨hp.last, hp.next, hp.gap, hp.branch⟩ (.nil le_rfl)

instance : Reads s [] (plainBranches r) where
  leads hp hbefore h := (leads_plainBranches r hp h).weaken hbefore.le le_rfl le_rfl

instance : Reads s [] (ifStatement r) := by
  unfold ifStatement colonBranches
  infer_instance

instance : Reads s [] (switchStatement r) := by
  unfold switchStatement cases caseClause
  infer_instance

instance : Reads s [] (loopValue r) := by
  unfold loopValue
  infer_instance

instance : Reads s [] (foreachStatement r) := by
  unfold foreachStatement
  infer_instance

instance : Reads s [] (tryStatement r) := by
  unfold tryStatement catchClause caughtTypes
  infer_instance

instance : Reads s [] (declareStatement r) := by
  unfold declareStatement
  infer_instance

instance : Reads s [] (namespaceStatement r) := by
  unfold namespaceStatement
  infer_instance

instance : Reads s [] importKind := by
  unfold importKind
  infer_instance

instance (ends : Bool) : Reads s [] (importAlias ends) := by
  unfold importAlias
  infer_instance

instance : Reads s [] importGroup := by
  unfold importGroup
  infer_instance

instance : Reads s [] importStatement := by
  unfold importStatement
  infer_instance

instance : Reads s [] (attributed r) := by
  unfold attributed
  infer_instance

instance : Reads s [] (forStatement r) := by
  unfold forStatement expressionsUntil
  infer_instance

instance : Reads s [] (doStatement r) := by
  unfold doStatement
  infer_instance

instance : Reads s [] (exitStatement r) := by
  unfold exitStatement
  infer_instance

instance : Reads s [] (whileStatement r) := by
  unfold whileStatement
  infer_instance

instance : Reads s [] (jump r) := by
  unfold jump
  infer_instance

instance : Reads s [] (echoStatement r) := by
  unfold echoStatement
  infer_instance

instance : Reads s [] (unsetStatement r) := by
  unfold unsetStatement
  infer_instance

instance : Reads s [] (globalStatement r) := by
  unfold globalStatement
  infer_instance

instance : Reads s [] (staticStatement r) := by
  unfold staticStatement
  infer_instance

instance : Reads s [] (expressionStatement r) := by
  unfold expressionStatement
  infer_instance

instance : Reads s [] (statement r) := by
  unfold statement block gotoStatement
  infer_instance

end Statements

instance (goal : Goal) : Reads s [] (rule r goal) := by
  unfold rule
  split <;> infer_instance

instance (depth : Nat) (goal : Goal) : Reads s [] (rules depth goal) := by
  induction depth generalizing goal with
  | zero => exact inferInstanceAs (Reads s [] Rule.fail)
  | succ depth ih => exact inferInstanceAs (Reads s [] (rule (rules depth) goal))

theorem program_spans {p p' : Position} {nodes : List Node} {a b : Nat} (hp : p.At s a b)
    (h : program r p = some (nodes, p')) : SpanAll s nodes a s.length := by
  obtain ⟨read, mid, hread, hnext⟩ := andThen_eq_some h
  obtain ⟨a', b', hmid, -, -, hnodes⟩ := Reads.leads_nil hp hread
  split at hnext
  · cases hnext
    exact hnodes.append (hmid.gap.weaken le_rfl hmid.next.le_length)
  · cases hnext

end Grammar

/-- The nodes below the root of a tree stand for parts of its source. -/
theorem parse?_spans {s : Source} {tree : Node} (h : parse? s = some tree) :
    SpanAll s tree.children 0 s.length := by
  have hstart : Cursor.At ⟨s, s.length, 1⟩ s 0 := ⟨Nat.zero_le _, rfl, rfl, rfl⟩
  rw [parse?] at h
  dsimp only at h
  split at h
  · split at h
    · cases h
      exact .nil (Nat.zero_le _)
    · cases h
  · obtain ⟨⟨nodes, p⟩, hprogram, hmap⟩ := Option.map_eq_some_iff.mp h
    cases hmap
    obtain ⟨b, -, hafter⟩ := Position.after_at ((hstart.advance _).advance _) 0
    exact (Grammar.program_spans _ hafter hprogram).weaken (Nat.zero_le _) le_rfl

end Availability.Php
