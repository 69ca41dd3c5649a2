import PklAnalysis.Grammar.Object
import PklAnalysis.Token.Lexer

/-!
Whole modules:

Module = Header? Import* Member* Header = (Annotation* Modifier* 'module' Name)?
(('amends' | 'extends') StringLiteral)? Import = ('import' | 'import*')
StringLiteral ('as' Name)?

Every text whose string literals can be read has a tree that holds all its
tokens; what does not follow the grammar is reported and set aside.
-/

namespace PklAnalysis.Grammar

open PklAnalysis.Parser

def Rule.parse (call : Call) : Call
  | .type => do
      typeRule call
      return none
  | .expression power => expressionRule call power
  | .stringLiteral => stringLiteralRule call
  | .objectBody => do
      objectBodyRule call
      return none
  | .member => do
      memberRule call
      return none

/-- Parses by a rule with calls nested at most `depth` deep. -/
def parseRule : Nat → Call
  | 0 => fun _ => return none
  | depth + 1 => Rule.parse (parseRule depth)

variable (call : Call)

def moduleUri : Parser Unit :=
  node .moduleUri do
    if ← at? .stringStart then
      stringLiteral call
    else
      report .expectedModuleUri

def extendsAmendsClause : Parser Unit :=
  node .extendsAmendsClause do
    take
    moduleUri call

def importClause : Parser Unit :=
  node .importClause do
    take
    moduleUri call
    if ← accept .asKw then
      let _ ← expect .identifier

/-- The module header. Annotations and modifiers without `module` after them
belong to the first member instead, unless an `amends` or `extends` clause
follows. -/
def moduleHeader : Parser Unit := do
  let start ← mark
  let before := (← get).tokens.length
  annotations call
  modifiers
  let prelude := (← get).tokens.length ≠ before
  let named ← at? .moduleKw
  if named then
    nodeAt start .moduleDecl do
      take
      qualifiedName
  let derived ← atAny? [.amendsKw, .extendsKw]
  if derived then
    extendsAmendsClause call
  if named || derived then
    nodeAt start .moduleHeader (return ())
  else if prelude then
    memberRest call start

/-- The import clauses. An `import` before an opening parenthesis is an
expression. -/
def imports : Parser Unit :=
  repeatWhile do
    if (← atAny? [.importKw, .importStarKw]) &&
      (← peek? 1) != some .leftParen then
      importClause call
      return true
    else
      return false

/-- The next member of a module, unless the text ends; tells whether there was
one. -/
def nextMember : Parser Bool := do
  if ← atEnd? then
    return false
  else
    member call
    return true

def moduleContents : Parser Unit := do
  moduleHeader call
  imports call
  repeatWhile (nextMember call)

/-- A module. The trivia around what is in it belong to it. -/
def moduleRule : Parser Unit :=
  enclose .root do
    moduleContents call
    skipTrivia

/-- How deep calls of rules can nest: between two nested calls at most one takes
no token. -/
def callDepth (tokens : List Token) : Nat :=
  2 * tokens.length + 2

/-- The tree of a text, and the errors in the order in which they were found. -/
structure Parse where
  tree : Tree
  errors : List SyntaxError

def finalState (tokens : List Token) (stop : Nat) : State :=
  ((moduleRule (parseRule (callDepth tokens))).run (.ofTokens tokens stop)).2

/-- Parses the tokens of a text that ends at `stop`. The calls of the grammar
are in order, so there is a tree. -/
def parseTokens (tokens : List Token) (stop : Nat) : Parse :=
  let state := finalState tokens stop
  { tree := state.builder.result?.getD (.node .root [])
    errors := state.errors.reverse }

def parse (text : String) : Except Token.Literal.Unreadable Parse :=
  return parseTokens (← Token.tokenize text) text.utf8ByteSize

end PklAnalysis.Grammar
