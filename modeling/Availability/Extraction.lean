import Availability.Classes
import Availability.DocTags
import Availability.Php.Literal

/-!
# Symbols from sources

Functions and methods of a source with the versions that their doc comments give. A method without a
version of its own takes the version of its class. Private methods and methods of classes without a
name cannot be called from elsewhere and are left out.
-/
namespace Availability

open Php

/-- Why a symbol is left out of the table. -/
inductive Omission where
  | missingDocComment
  | missingSince
  deriving DecidableEq

structure Note where
  omission : Omission
  symbol : String
  file : String
  line : Nat
  deriving DecidableEq

/-- Where something stands. -/
def location (file : String) (line : Nat) : String :=
  file ++ ":" ++ Version.decimal line

def Note.message (n : Note) : String :=
  let place := " for " ++ n.symbol ++ "() in " ++ location n.file n.line
  match n.omission with
  | .missingDocComment => "Doc comment missing" ++ place
  | .missingSince => "@since tag missing" ++ place

/-- A function or method that can be called by name. -/
structure Declaration where
  symbol : String
  line : Nat
  doc : Option String
  /-- The doc comment of the class of a method. -/
  classDoc : Option String
  deriving DecidableEq

structure DeclaredClass where
  name : String
  parent : Option String
  line : Nat
  deriving DecidableEq

namespace Declaration

/-- The doc comment that stands directly before a node: `before` has the siblings before it, nearest
first. Other comments may stand between. -/
def docComment? : List Node → Option String
  | [] => none
  | n :: rest =>
    if n.kind = .comment then
      match n.text? with
      | none => none
      | some text =>
        if Text.startsWith ['/', '*', '*'] text.toList then some text else docComment? rest
    else none

/-- The class around a declaration. -/
structure Owner where
  name : Option String
  doc : Option String

def isPrivate (method : Node) : Bool :=
  method.children.any fun n => n.kind == .visibility && Text.sameLetters n.text "private"

def isClassLike (kind : Kind) : Bool :=
  kind == .classDeclaration || kind == .interfaceDeclaration || kind == .traitDeclaration ||
    kind == .enumDeclaration

def name? (n : Node) : Option String :=
  match n.child? .name with
  | none => none
  | some name => if name.kind == .name then some name.text else none

/-- The declaration that a node is, if it is one. -/
def ofNode? (owner : Option Owner) (doc : Option String) (n : Node) : Option Declaration :=
  match n.kind, name? n with
  | .function, some name => some ⟨name, n.line, doc, none⟩
  | .method, some name =>
    if isPrivate n then none
    else
      match owner with
      | some ⟨some ownerName, ownerDoc⟩ => some ⟨ownerName ++ "::" ++ name, n.line, doc, ownerDoc⟩
      | _ => none
  | _, _ => none

/-- The owner of what is below a node. -/
def ownerBelow (owner : Option Owner) (doc : Option String) (n : Node) : Option Owner :=
  if isClassLike n.kind then some ⟨(n.child? .name).bind Node.literalName?, doc⟩
  else if n.kind = .anonymousClass ∨ n.kind = .objectCreation then none
  else owner

mutual

/-- The declarations at and below a node. -/
def within (owner : Option Owner) (doc : Option String) : Node → List Declaration
  | .mk kind role line text children =>
    let n := Node.mk kind role line text children
    (ofNode? owner doc n).toList ++ withinAll (ownerBelow owner doc n) [] children

/-- The declarations at and below siblings; `before` has the siblings before them. -/
def withinAll (owner : Option Owner) (before : List Node) : List Node → List Declaration
  | [] => []
  | n :: rest => within owner (docComment? before) n ++ withinAll owner (n :: before) rest

end

/-- The declarations of a source, in its order. -/
def ofTree (tree : Node) : List Declaration :=
  within none none tree

/-- Symbols that are not looked up on their own. -/
def excludedSymbols : List String := ["wp_handle_upload_error"]

def excludedStarts : List String := ["WP_Internal_Pointers::pointer_wp"]

def isExcluded (d : Declaration) : Bool :=
  excludedSymbols.contains d.symbol ||
    excludedStarts.any fun start => Text.startsWith start.toList d.symbol.toList

/-- What becomes of a declaration. -/
inductive Outcome where
  | entry (e : SymbolEntry)
  | omitted (why : Omission)
  /-- Deprecated symbols without a valid version are left out without a note. -/
  | dropped
  | invalid (value : String)
  deriving DecidableEq

def outcome (d : Declaration) : Outcome :=
  let own := (d.doc.map DocTags.ofComment).getD {}
  let inherited := (d.classDoc.map DocTags.ofComment).getD {}
  let deprecated := own.deprecated || inherited.deprecated
  match own.since.or inherited.since with
  | none =>
    if deprecated then .dropped
    else if d.doc.isNone && d.classDoc.isNone then .omitted .missingDocComment
    else .omitted .missingSince
  | some value =>
    match Version.ofTag? value with
    | none => if deprecated then .dropped else .invalid value
    | some since =>
      .entry ⟨since, (own.deprecatedValue.or inherited.deprecatedValue).bind Version.ofString?⟩

end Declaration

/-- The classes that a source declares, in its order. -/
def DeclaredClass.ofTree (tree : Node) : List DeclaredClass :=
  (tree.preorder.filter (·.kind == .classDeclaration)).filterMap fun n =>
    ((n.child? .name).bind Node.literalName?).map fun name => ⟨name, n.baseClass?, n.line⟩

def DeclaredClass.record (c : DeclaredClass) : ClassRecord :=
  ⟨c.name, c.parent⟩

structure ExtractedSymbol where
  name : String
  entry : SymbolEntry
  line : Nat
  deriving DecidableEq

/-- What is extracted from one file. -/
structure FileSymbols where
  file : String
  symbols : List ExtractedSymbol := []
  classes : List DeclaredClass := []
  notes : List Note := []
  deriving DecidableEq

/-- A version tag that is no version. -/
structure InvalidSince where
  value : String
  symbol : String
  line : Nat
  deriving DecidableEq

def InvalidSince.message (e : InvalidSince) (path : String) : String :=
  "invalid @since value of " ++ Text.quote e.value ++ " for " ++ e.symbol ++ "() in " ++
    location path e.line

namespace FileSymbols

def add (s : FileSymbols) (d : Declaration) : Except InvalidSince FileSymbols :=
  match d.outcome with
  | .entry e => .ok { s with symbols := s.symbols ++ [⟨d.symbol, e, d.line⟩] }
  | .omitted why => .ok { s with notes := s.notes ++ [⟨why, d.symbol, s.file, d.line⟩] }
  | .dropped => .ok s
  | .invalid value => .error ⟨value, d.symbol, d.line⟩

/-- Extracts from the tree of a file; the first invalid version ends it. -/
def ofTree (file : String) (tree : Node) : Except InvalidSince FileSymbols :=
  ((Declaration.ofTree tree).filter fun d => !d.isExcluded).foldlM add
    { file, classes := DeclaredClass.ofTree tree }

end FileSymbols

/-- A symbol that is declared twice, with both places. -/
structure DuplicateSymbol where
  symbol : String
  first : String
  second : String
  deriving DecidableEq

def DuplicateSymbol.message (e : DuplicateSymbol) : String :=
  "duplicate symbol " ++ e.symbol ++ "(): declared in " ++ e.first ++ " and " ++ e.second

/-- What is extracted from several files. -/
structure Extraction where
  table : SymbolTable := {}
  notes : List Note := []
  filesScanned : Nat := 0

namespace Extraction

def addClass (classes : List (String × ClassEntry)) (c : DeclaredClass) :
    List (String × ClassEntry) :=
  Keyed.insertNew c.name ⟨c.parent⟩ classes

/-- What the files so far have given; every symbol has its place. -/
structure Draft where
  symbols : List (String × SymbolEntry) := []
  places : List (String × String) := []
  classes : List (String × ClassEntry) := []
  notes : List Note := []

namespace Draft

def addSymbol (file : String) (d : Draft) (s : ExtractedSymbol) :
    Except DuplicateSymbol Draft :=
  let place := location file s.line
  match Keyed.get? s.name d.places with
  | some first => .error ⟨s.name, first, place⟩
  | none =>
    .ok { d with
      symbols := Keyed.insert s.name s.entry d.symbols
      places := Keyed.insert s.name place d.places }

def addFile (d : Draft) (f : FileSymbols) : Except DuplicateSymbol Draft := do
  let d ← f.symbols.foldlM (addSymbol f.file) d
  return { d with classes := f.classes.foldl addClass d.classes, notes := d.notes ++ f.notes }

end Draft

/-- Joins files in order. A symbol may be declared once; of several classes with one name the first
stays. -/
def merge (files : List FileSymbols) : Except DuplicateSymbol Extraction := do
  let d ← files.foldlM Draft.addFile {}
  return {
    table := { symbols := d.symbols, classes := d.classes }
    notes := d.notes
    filesScanned := files.length }

end Extraction

end Availability
