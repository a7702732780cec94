/-!
# Trees of PHP sources

A node keeps all of its children in source order: keywords and punctuation as nodes of kind `token`,
comments where they stand, and the parts that the language gives meaning to. `namedChildren` leaves
the tokens out. `Kind` tells apart what the analysis tells apart; statements, expressions and
clauses without a kind of their own have kind `other`.
-/
namespace Availability.Php

inductive Kind where
  /-- A keyword, an operator or punctuation. -/
  | token
  | comment
  /-- The end of a PHP section with the text up to the next one. -/
  | interpolation
  | program
  | name
  /-- A name with a `\`. -/
  | qualifiedName
  /-- `self`, `parent` or `static` before `::`. -/
  | relativeScope
  | variable
  | singleQuoted
  | doubleQuoted
  /-- A here-document, with or without embedded expressions. -/
  | hereDocument
  /-- What a value can be stored in besides a variable: an element, a property, a variable whose
  name is computed. -/
  | place
  /-- A cast of what a value can be stored in, which counts as such. -/
  | castPlace
  | array
  /-- What is written in brackets and can be an array or a pattern for one. -/
  | arrayOrPattern
  /-- What is written in brackets and can only be a pattern for an array. -/
  | arrayPattern
  | listPattern
  /-- An element of an array with its key. -/
  | element
  | functionCall
  | methodCall
  | nullsafeCall
  | staticCall
  | arguments
  | argument
  /-- The `...` of a first-class callable. -/
  | placeholder
  | objectCreation
  | anonymousClass
  | classConstant
  | parenthesized
  | clone
  | assignment
  | referenceAssignment
  | ifStatement
  | elseIfClause
  | catchClause
  | function
  | method
  | closure
  | arrowFunction
  | classDeclaration
  | interfaceDeclaration
  | traitDeclaration
  | enumDeclaration
  | baseClause
  | visibility
  /-- A modifier of a declaration other than its visibility. -/
  | modifier
  | parameter
  /-- A parameter that declares a property. -/
  | promotedParameter
  /-- The `use` clause of a closure. -/
  | captures
  | byReference
  | primitiveType
  | other
  deriving DecidableEq, Repr

/-- What a child is to its parent, for the children that are looked up by it. -/
inductive Role where
  | none
  | name
  | callee
  | arguments
  | receiver
  | scope
  | condition
  | body
  | alternative
  | parameters
  | left
  | right
  | type
  deriving DecidableEq, Repr

/-- `text` is the source text of a node that is read as a text; it is missing where the bytes are no
UTF-8, and for nodes that are only read through their children. Lines count from 1. -/
inductive Node where
  | mk (kind : Kind) (role : Role) (line : Nat) (text : Option String) (children : List Node)
  deriving Repr

namespace Node

mutual

def decEq : (a b : Node) → Decidable (a = b)
  | .mk kind role line text children, .mk kind' role' line' text' children' =>
    match decEqAll children children' with
    | isTrue hchildren =>
      if h : kind = kind' ∧ role = role' ∧ line = line' ∧ text = text' then
        isTrue (by obtain ⟨rfl, rfl, rfl, rfl⟩ := h; rw [hchildren])
      else isFalse fun heq => h (by cases heq; exact ⟨rfl, rfl, rfl, rfl⟩)
    | isFalse hchildren => isFalse fun heq => hchildren (by cases heq; rfl)

def decEqAll : (as bs : List Node) → Decidable (as = bs)
  | [], [] => isTrue rfl
  | [], _ :: _ => isFalse (by simp)
  | _ :: _, [] => isFalse (by simp)
  | a :: as, b :: bs =>
    match decEq a b with
    | isTrue hhead =>
      match decEqAll as bs with
      | isTrue htail => isTrue (by rw [hhead, htail])
      | isFalse htail => isFalse fun heq => htail (by cases heq; rfl)
    | isFalse hhead => isFalse fun heq => hhead (by cases heq; rfl)

end

instance : DecidableEq Node := decEq

def kind : Node → Kind
  | mk kind _ _ _ _ => kind

def role : Node → Role
  | mk _ role _ _ _ => role

def line : Node → Nat
  | mk _ _ line _ _ => line

def text? : Node → Option String
  | mk _ _ _ text _ => text

def children : Node → List Node
  | mk _ _ _ _ children => children

def withRole (role : Role) : Node → Node
  | mk kind _ line text children => mk kind role line text children

/-- The text of the node, empty where the source is not readable. -/
def text (n : Node) : String :=
  n.text?.getD ""

def isNamed (n : Node) : Bool :=
  n.kind != .token

/-- Whether the node can stand between any two tokens. -/
def isExtra (n : Node) : Bool :=
  n.kind == .comment || n.kind == .interpolation

def isCall (n : Node) : Bool :=
  n.kind == .functionCall || n.kind == .methodCall || n.kind == .nullsafeCall ||
    n.kind == .staticCall

def namedChildren (n : Node) : List Node :=
  n.children.filter isNamed

/-- The first child with a role. -/
def child? (n : Node) (role : Role) : Option Node :=
  n.children.find? (·.role == role)

/-- The first named child of a kind. -/
def childOfKind? (n : Node) (kind : Kind) : Option Node :=
  n.namedChildren.find? (·.kind == kind)

@[simp] theorem kind_withRole (role : Role) (n : Node) : (n.withRole role).kind = n.kind := by
  cases n; rfl

@[simp] theorem role_withRole (role : Role) (n : Node) : (n.withRole role).role = role := by
  cases n; rfl

@[simp] theorem children_withRole (role : Role) (n : Node) :
    (n.withRole role).children = n.children := by
  cases n; rfl

theorem sizeOf_lt_of_mem_children {n c : Node} (h : c ∈ n.children) : sizeOf c < sizeOf n := by
  cases n with
  | mk kind role line text children =>
    have := List.sizeOf_lt_of_mem (show c ∈ children from h)
    simp only [mk.sizeOf_spec]
    omega

theorem mem_children_of_mem_namedChildren {n c : Node} (h : c ∈ n.namedChildren) :
    c ∈ n.children :=
  (List.mem_filter.mp h).1

mutual

/-- The node and all named nodes below it, a node before its children. -/
def preorder : Node → List Node
  | mk kind role line text children =>
    mk kind role line text children :: preorderAll children

/-- The named nodes of a list and below it. -/
def preorderAll : List Node → List Node
  | [] => []
  | n :: rest => (if n.isNamed then preorder n else []) ++ preorderAll rest

end

end Node

end Availability.Php
