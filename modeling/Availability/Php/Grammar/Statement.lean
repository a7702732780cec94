import Availability.Php.Grammar.Expression

/-!
# Statements

A word that starts a statement of its own is never a name there. A word that closes a list of
statements is one only in lists of that kind.
-/
namespace Availability.Php.Grammar

open Rule

variable (r : Rules)

/-- Statements up to a closing word. -/
def statementsUntil (words : List String) : Rule :=
  repeatWhile (fun p => !(Ahead.anyKeyword words p || p.atEnd)) r.statement

def colonBlock (words : List String) : Rule :=
  node .other (seq [symbol ":", statementsUntil r words])

/-- Words of which each closes the statements of a `while`, a `foreach` and an `else`. -/
def closingWords : List String := ["endif", "endwhile", "endforeach"]

/-- A body that is one statement, or a colon and statements up to one of the words, which has to be
the right one. -/
def bodyOrColon (words : List String) (close : String) : Rule :=
  firstOf [(Ahead.symbol ":", seq [field .body (colonBlock r words), keyword close, semicolon])]
    (field .body r.statement)

/-- A body that the end of a section may take the place of. -/
def bodyOrEnd (words : List String) (close : String) : Rule :=
  firstOf [(Ahead.sectionEnd, nothing)] (bodyOrColon r words close)

/-- An `elseif` with its condition, unless they have been read ahead. -/
def elseIfHead : Rule := fun p =>
  match p.branch with
  | some (nodes, c, closedTexts) => some (nodes, .after c closedTexts)
  | none => seq [keyword "elseif", condition r] p

def otherwise (body : Rule) : Rule :=
  field .alternative (node .other (seq [keyword "else", field .body body]))

/-- The branches after the body of an `if` without a colon. Branches with a colon belong to an `if`
around it; what has been read of them is kept. -/
def plainBranches (p : Position) : Option (List Node × Position) :=
  if Ahead.keyword "elseif" p then
    match elseIfHead r p with
    | none => none
    | some (head, next) =>
      if Ahead.symbol ":" next then
        some ([], { p with
          openBranch := true, branch := some (head, next.last, next.closedTexts) })
      else
        match field .alternative (following .elseIfClause head (field .body r.statement)) next with
        | none => none
        | some (clause, rest) =>
          if rest.left < p.left then
            (plainBranches rest).map fun (more, rest) => (clause ++ more, rest)
          else none
  else if Ahead.keyword "else" p && !Ahead.second (Ahead.symbol ":") p then
    otherwise r.statement p
  else some ([], { p with openBranch := true })
termination_by p.left

def branchWords : List String := ["endif", "else", "elseif"]

/-- The branches after the body of an `if` with a colon. -/
def colonBranches : Rule :=
  let block := colonBlock r branchWords
  seq [
    repeatWhile (Ahead.keyword "elseif") <| field .alternative <|
      andThen (elseIfHead r) fun head => following .elseIfClause head (field .body block),
    when (Ahead.keyword "else") (otherwise (colonBlock r closingWords)),
    keyword "endif", semicolon]

def ifStatement : Rule :=
  node .ifStatement <| seq [
    keyword "if", condition r,
    firstOf [(Ahead.symbol ":",
        seq [field .body (colonBlock r branchWords), colonBranches r])]
      (seq [field .body r.statement, plainBranches r])]

def caseClause : Rule :=
  node .other <| seq [
    firstOf [(Ahead.keyword "case", seq [keyword "case", r.whole])] (keyword "default"),
    firstOf [(Ahead.symbol ":", symbol ":")] (symbol ";"),
    repeatWhile
      (fun p => !(Ahead.anyKeyword ["case", "default", "endswitch"] p || Ahead.symbol "\x7d" p ||
        p.atEnd)) r.statement]

def cases : Rule :=
  repeatWhile (Ahead.anyKeyword ["case", "default"]) (caseClause r)

def switchStatement : Rule :=
  node .other <| seq [
    keyword "switch", condition r,
    firstOf [(Ahead.symbol ":",
        node .other (seq [symbol ":", cases r, keyword "endswitch", semicolon]))] <|
      field .body (node .other (seq [symbol "\x7b", cases r, symbol "\x7d"]))]

def whileStatement : Rule :=
  node .other (seq [keyword "while", condition r, bodyOrColon r closingWords "endwhile"])

def doStatement : Rule :=
  node .other <| seq [
    keyword "do", field .body r.statement, keyword "while", condition r, semicolon]

def expressionsUntil (close : String) : Rule :=
  when (Ahead.not (Ahead.symbol close)) (commaSeparated false r.whole)

def forStatement : Rule :=
  node .other <| seq [
    keyword "for", symbol "(", expressionsUntil r ";", symbol ";", expressionsUntil r ";",
    symbol ";", expressionsUntil r ")", symbol ")", bodyOrEnd r ["endfor"] "endfor"]

/-- What takes an element in a loop: a variable, a reference, a pattern. -/
def loopValue : Rule :=
  firstOf [(Ahead.symbol "&", byReference r)] (r (.expressionOrPattern true true))

def isKey (nodes : List Node) : Bool :=
  nodes.getLast?.all fun n =>
    n.kind != .byReference && n.kind != .arrayPattern && n.kind != .listPattern

def foreachStatement : Rule :=
  node .other <| seq [
    keyword "foreach", symbol "(", r.whole, keyword "as",
    andThen (loopValue r) fun nodes =>
      firstOf [(Ahead.symbol "=>",
          if isKey nodes then following .other nodes (seq [symbol "=>", loopValue r]) else fail)]
        (given nodes),
    symbol ")", bodyOrEnd r closingWords "endforeach"]

/-- A word, optionally an expression, and a semicolon. -/
def jump : Rule :=
  node .other <| seq [
    takeAs .token,
    when (fun p => !(Ahead.symbol ";" p || Ahead.sectionEnd p)) r.final, semicolon]

def gotoStatement : Rule :=
  node .other (seq [keyword "goto", name, semicolon])

def caughtTypes : Rule :=
  field .type <| node .other <| seq [
    node .other (typeReference false),
    repeatWhile (Ahead.symbol "|") (seq [symbol "|", node .other (typeReference false)])]

def catchClause : Rule :=
  node .catchClause <| seq [
    keyword "catch", symbol "(", caughtTypes,
    when (Ahead.symbol "$") (field .name variableName), symbol ")", body r]

def tryStatement : Rule :=
  let handlerAhead := Ahead.anyKeyword ["catch", "finally"]
  node .other <| seq [
    keyword "try", body r, only handlerAhead nothing,
    repeatWhile handlerAhead <|
      firstOf [(Ahead.keyword "catch", catchClause r)]
        (node .other (seq [keyword "finally", body r]))]

def directiveAhead (p : Position) : Bool :=
  ["ticks", "encoding", "strict_types"].contains p.word

def declareStatement : Rule :=
  node .other <| seq [
    keyword "declare", symbol "(",
    node .other (seq [only directiveAhead (takeAs .token), symbol "=", literal r]), symbol ")",
    firstOf [
        (Ahead.sectionEnd, nothing),
        (Ahead.symbol ";", symbol ";"),
        (Ahead.symbol ":",
          seq [symbol ":", statementsUntil r ["enddeclare"], keyword "enddeclare", semicolon])]
      r.statement]

def echoStatement : Rule :=
  node .other (seq [keyword "echo", commaSeparated true r.final, semicolon])

def exitStatement : Rule :=
  node .other <| seq [
    keyword "exit",
    when (Ahead.both (Ahead.goesOn true) (Ahead.symbol "("))
      (seq [symbol "(", when (Ahead.not (Ahead.symbol ")")) r.whole, symbol ")"]),
    semicolon]

def unsetStatement : Rule :=
  node .other <| seq [
    keyword "unset", symbol "(", someUntil ")" (r (.variable false)), symbol ")", semicolon]

def globalStatement : Rule :=
  node .other (seq [keyword "global", commaSeparated true (anyVariable r), semicolon])

def staticStatement : Rule :=
  node .other <| seq [
    keyword "static",
    commaSeparated true (node .other (seq [variableName, defaultValue r true])), semicolon]

def namespaceStatement : Rule :=
  node .other <| seq [
    keyword "namespace",
    firstOf [(Ahead.symbol "\x7b", body r)] <| seq [
      namespaceName true,
      firstOf [(Ahead.both (Ahead.goesOn true) (Ahead.symbol "\x7b"), body r)] semicolon]]

def importKind : Rule :=
  when (Ahead.anyKeyword ["function", "const"]) (takeAs .token)

def importAlias (ends : Bool) : Rule :=
  when (Ahead.both (Ahead.goesOn ends) (Ahead.keyword "as")) (seq [keyword "as", name])

def importGroup : Rule :=
  let clause := node .other (seq [importKind, namespaceName false, importAlias false])
  node .other (seq [symbol "\x7b", commaSeparated false clause, symbol "\x7d"])

/-- Imported names, or a group of names that start alike. -/
def importStatement : Rule :=
  let goesOnWith (s : String) := Ahead.both (Ahead.goesOn true) (Ahead.symbol s)
  let clause := node .other (seq [importKind, anyName true, importAlias true])
  let clauses (first : List Node) := seq [
    following .other first (importAlias true),
    repeatWhile (goesOnWith ",") (seq [symbol ",", clause])]
  node .other <| seq [
    keyword "use",
    andThen importKind fun kind =>
      firstOf [(scopeWordAhead, andThen name fun first => clauses (kind ++ first))] <|
        andThen (typeReference true) fun first =>
          firstOf [(goesOnWith "\\", seq [given (kind ++ first), symbol "\\", importGroup])]
            (clauses (kind ++ first)),
    semicolon]

def expressionStatement : Rule :=
  node .other (seq [r.final, semicolon])

/-- A declaration or an expression after attributes. -/
def attributed : Rule :=
  andThen (attributes r) fun before =>
    firstOf [(declarationAhead, declaration r before)] <|
      node .other <| seq [
        andThen (functionExpression r true before) (afterOperand r ⟨0, true⟩), semicolon]

/-- Words that start an expression and cannot be a label. -/
def operandWords : List String :=
  ["yield", "clone", "print", "new", "throw", "match", "function", "fn", "array", "list", "true",
    "false", "null"] ++ includeWords

def labelAhead (p : Position) : Bool :=
  Ahead.name p && !Ahead.anyKeyword operandWords p && !scopeWordAhead p &&
    p.next.rest.numberLength == 0 &&
    Ahead.second (Ahead.both (Ahead.goesOn true) (Ahead.symbol ":")) p

def statement : Rule :=
  firstOf [
      (fun p => p.openBranch && Ahead.anyKeyword ["else", "elseif"] p, fail),
      (Ahead.symbol ";", node .other (symbol ";")),
      (Ahead.symbol "\x7b", block r),
      (Ahead.symbol "#[", attributed r),
      (declarationAhead, declaration r []),
      (Ahead.keyword "if", ifStatement r),
      (Ahead.keyword "switch", switchStatement r),
      (Ahead.keyword "while", whileStatement r),
      (Ahead.keyword "do", doStatement r),
      (Ahead.keyword "for", forStatement r),
      (Ahead.keyword "foreach", foreachStatement r),
      (Ahead.anyKeyword ["continue", "break", "return"], jump r),
      (Ahead.keyword "goto", gotoStatement),
      (Ahead.keyword "try", tryStatement r),
      (Ahead.keyword "declare", declareStatement r),
      (Ahead.keyword "echo", echoStatement r),
      (Ahead.keyword "exit", exitStatement r),
      (Ahead.exactly "unset", unsetStatement r),
      (Ahead.keyword "global", globalStatement r),
      (Ahead.both (Ahead.keyword "static") (Ahead.second (Ahead.symbol "$")), staticStatement r),
      (Ahead.keyword "namespace", namespaceStatement r),
      (Ahead.keyword "use", importStatement),
      (labelAhead, node .other (seq [name, symbol ":"]))]
    (expressionStatement r)

end Availability.Php.Grammar
