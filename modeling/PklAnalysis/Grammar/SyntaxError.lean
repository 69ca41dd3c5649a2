import PklAnalysis.Text.Range
import PklAnalysis.Token.Kind

/-!
What can be wrong with a text as the grammar sees it.
-/

namespace PklAnalysis

/-- Why a text does not follow the grammar. -/
inductive SyntaxError.Cause
  | expectedToken (kind : Token.Kind)
  | expectedExpression
  | expectedType
  | expectedAnnotationType
  | expectedMember
  | expectedObjectMember
  | expectedPropertyOrMethod
  | expectedParameterList
  | expectedObjectBody
  | expectedValueOrBody
  | expectedModuleUri
  | unexpectedToken
  | unterminatedString
deriving DecidableEq, Repr

structure SyntaxError where
  cause : SyntaxError.Cause
  range : Range
deriving DecidableEq, Repr

namespace SyntaxError

/-- How messages call a token: identifiers and some spellings have a form of
their own. -/
def tokenText : Token.Kind → String
  | .identifier => "identifier"
  | .leftBrace => "'\x7b'"
  | .rightBrace => "'\x7d'"
  | .leftBracket => "'['"
  | .rightBracket => "']'"
  | .leftParen => "'('"
  | .rightParen => "')'"
  | .comma => "','"
  | .dot => "'.'"
  | .equal => "'='"
  | .greater => "'>'"
  | .arrow => "'->'"
  | .elseKw => "'else'"
  | .inKw => "'in'"
  | other => other.name

def Cause.message : Cause → String
  | .expectedToken kind => "expected " ++ tokenText kind
  | .expectedExpression => "expected expression"
  | .expectedType => "expected type"
  | .expectedAnnotationType => "expected annotation type"
  | .expectedMember => "expected member"
  | .expectedObjectMember => "expected object member"
  | .expectedPropertyOrMethod => "expected property or method"
  | .expectedParameterList => "expected parameter list"
  | .expectedObjectBody => "expected object body"
  | .expectedValueOrBody => "expected '=' or object body"
  | .expectedModuleUri => "expected module uri"
  | .unexpectedToken => "unexpected token"
  | .unterminatedString => "unterminated string literal"

def message (error : SyntaxError) : String :=
  error.cause.message

end SyntaxError

end PklAnalysis
