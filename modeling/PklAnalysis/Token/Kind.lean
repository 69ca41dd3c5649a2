/-!
Kinds of tokens: trivia, literals, punctuation, keywords, and `error` for text
that is no token.
-/

namespace PklAnalysis.Token

inductive Kind
  -- trivia
  | whitespace | lineComment | docComment | blockComment | shebang
  -- literals
  | identifier | intNumber | floatNumber | stringStart | stringEnd | stringChars
  | interpolationStart
  -- punctuation
  | leftBrace | rightBrace | leftBracket | rightBracket | leftParen | rightParen
  | comma | dot | questionDot | spread | questionSpread | colon | arrow | equal
  | equalEqual | bangEqual | less | greater | lessEqual | greaterEqual | plus
  | minus | star | starStar | slash | tildeSlash | percent | bang | bangBang
  | ampAmp | pipePipe | pipeGreater | pipe | question | questionQuestion
  | atSign | underscore
  -- keywords
  | abstractKw | amendsKw | asKw | classKw | constKw | elseKw | extendsKw
  | externalKw | falseKw | fixedKw | forKw | functionKw | hiddenKw | ifKw
  | importKw | importStarKw | inKw | isKw | letKw | localKw | moduleKw | newKw
  | nothingKw | nullKw | openKw | outKw | outerKw | readKw | readOrNullKw
  | readStarKw | superKw | thisKw | throwKw | traceKw | trueKw | typealiasKw
  | unknownKw | whenKw
  -- text that no pattern matches
  | error
deriving DecidableEq, Repr, Inhabited

namespace Kind

/-- Every kind but `error`; the position of a kind in this list is its code. -/
def all : List Kind :=
  [.whitespace, .lineComment, .docComment, .blockComment, .shebang, .identifier,
   .intNumber, .floatNumber, .stringStart, .stringEnd, .stringChars,
   .interpolationStart, .leftBrace, .rightBrace, .leftBracket, .rightBracket,
   .leftParen, .rightParen, .comma, .dot, .questionDot, .spread,
   .questionSpread, .colon, .arrow, .equal, .equalEqual, .bangEqual, .less,
   .greater, .lessEqual, .greaterEqual, .plus, .minus, .star, .starStar, .slash,
   .tildeSlash, .percent, .bang, .bangBang, .ampAmp, .pipePipe, .pipeGreater,
   .pipe, .question, .questionQuestion, .atSign, .underscore, .abstractKw,
   .amendsKw, .asKw, .classKw, .constKw, .elseKw, .extendsKw, .externalKw,
   .falseKw, .fixedKw, .forKw, .functionKw, .hiddenKw, .ifKw, .importKw,
   .importStarKw, .inKw, .isKw, .letKw, .localKw, .moduleKw, .newKw, .nothingKw,
   .nullKw, .openKw, .outKw, .outerKw, .readKw, .readOrNullKw, .readStarKw,
   .superKw, .thisKw, .throwKw, .traceKw, .trueKw, .typealiasKw, .unknownKw,
   .whenKw]

def name : Kind → String
  | .whitespace => "WHITESPACE"
  | .lineComment => "LINE_COMMENT"
  | .docComment => "DOC_COMMENT"
  | .blockComment => "BLOCK_COMMENT"
  | .shebang => "SHEBANG"
  | .identifier => "IDENT"
  | .intNumber => "INT_NUMBER"
  | .floatNumber => "FLOAT_NUMBER"
  | .stringStart => "STRING_START"
  | .stringEnd => "STRING_END"
  | .stringChars => "STRING_CHARS"
  | .interpolationStart => "INTERPOLATION_START"
  | .leftBrace => "L_BRACE"
  | .rightBrace => "R_BRACE"
  | .leftBracket => "L_BRACKET"
  | .rightBracket => "R_BRACKET"
  | .leftParen => "L_PAREN"
  | .rightParen => "R_PAREN"
  | .comma => "COMMA"
  | .dot => "DOT"
  | .questionDot => "QUESTION_DOT"
  | .spread => "SPREAD"
  | .questionSpread => "QUESTION_SPREAD"
  | .colon => "COLON"
  | .arrow => "ARROW"
  | .equal => "EQ"
  | .equalEqual => "EQ_EQ"
  | .bangEqual => "BANG_EQ"
  | .less => "LT"
  | .greater => "GT"
  | .lessEqual => "LT_EQ"
  | .greaterEqual => "GT_EQ"
  | .plus => "PLUS"
  | .minus => "MINUS"
  | .star => "STAR"
  | .starStar => "STAR_STAR"
  | .slash => "SLASH"
  | .tildeSlash => "TILDE_SLASH"
  | .percent => "PERCENT"
  | .bang => "BANG"
  | .bangBang => "BANG_BANG"
  | .ampAmp => "AMP_AMP"
  | .pipePipe => "PIPE_PIPE"
  | .pipeGreater => "PIPE_GT"
  | .pipe => "PIPE"
  | .question => "QUESTION"
  | .questionQuestion => "QUESTION_QUESTION"
  | .atSign => "AT"
  | .underscore => "UNDERSCORE"
  | .abstractKw => "ABSTRACT_KW"
  | .amendsKw => "AMENDS_KW"
  | .asKw => "AS_KW"
  | .classKw => "CLASS_KW"
  | .constKw => "CONST_KW"
  | .elseKw => "ELSE_KW"
  | .extendsKw => "EXTENDS_KW"
  | .externalKw => "EXTERNAL_KW"
  | .falseKw => "FALSE_KW"
  | .fixedKw => "FIXED_KW"
  | .forKw => "FOR_KW"
  | .functionKw => "FUNCTION_KW"
  | .hiddenKw => "HIDDEN_KW"
  | .ifKw => "IF_KW"
  | .importKw => "IMPORT_KW"
  | .importStarKw => "IMPORT_STAR_KW"
  | .inKw => "IN_KW"
  | .isKw => "IS_KW"
  | .letKw => "LET_KW"
  | .localKw => "LOCAL_KW"
  | .moduleKw => "MODULE_KW"
  | .newKw => "NEW_KW"
  | .nothingKw => "NOTHING_KW"
  | .nullKw => "NULL_KW"
  | .openKw => "OPEN_KW"
  | .outKw => "OUT_KW"
  | .outerKw => "OUTER_KW"
  | .readKw => "READ_KW"
  | .readOrNullKw => "READ_OR_NULL_KW"
  | .readStarKw => "READ_STAR_KW"
  | .superKw => "SUPER_KW"
  | .thisKw => "THIS_KW"
  | .throwKw => "THROW_KW"
  | .traceKw => "TRACE_KW"
  | .trueKw => "TRUE_KW"
  | .typealiasKw => "TYPEALIAS_KW"
  | .unknownKw => "UNKNOWN_KW"
  | .whenKw => "WHEN_KW"
  | .error => "ERROR"

/-- The spelling of a punctuation mark or keyword. Other kinds have no fixed
spelling. -/
def spelling? : Kind → Option String
  | .leftBrace => some "\x7b"
  | .rightBrace => some "\x7d"
  | .leftBracket => some "["
  | .rightBracket => some "]"
  | .leftParen => some "("
  | .rightParen => some ")"
  | .comma => some ","
  | .dot => some "."
  | .questionDot => some "?."
  | .spread => some "..."
  | .questionSpread => some "...?"
  | .colon => some ":"
  | .arrow => some "->"
  | .equal => some "="
  | .equalEqual => some "=="
  | .bangEqual => some "!="
  | .less => some "<"
  | .greater => some ">"
  | .lessEqual => some "<="
  | .greaterEqual => some ">="
  | .plus => some "+"
  | .minus => some "-"
  | .star => some "*"
  | .starStar => some "**"
  | .slash => some "/"
  | .tildeSlash => some "~/"
  | .percent => some "%"
  | .bang => some "!"
  | .bangBang => some "!!"
  | .ampAmp => some "&&"
  | .pipePipe => some "||"
  | .pipeGreater => some "|>"
  | .pipe => some "|"
  | .question => some "?"
  | .questionQuestion => some "??"
  | .atSign => some "@"
  | .underscore => some "_"
  | .abstractKw => some "abstract"
  | .amendsKw => some "amends"
  | .asKw => some "as"
  | .classKw => some "class"
  | .constKw => some "const"
  | .elseKw => some "else"
  | .extendsKw => some "extends"
  | .externalKw => some "external"
  | .falseKw => some "false"
  | .fixedKw => some "fixed"
  | .forKw => some "for"
  | .functionKw => some "function"
  | .hiddenKw => some "hidden"
  | .ifKw => some "if"
  | .importKw => some "import"
  | .importStarKw => some "import*"
  | .inKw => some "in"
  | .isKw => some "is"
  | .letKw => some "let"
  | .localKw => some "local"
  | .moduleKw => some "module"
  | .newKw => some "new"
  | .nothingKw => some "nothing"
  | .nullKw => some "null"
  | .openKw => some "open"
  | .outKw => some "out"
  | .outerKw => some "outer"
  | .readKw => some "read"
  | .readOrNullKw => some "read?"
  | .readStarKw => some "read*"
  | .superKw => some "super"
  | .thisKw => some "this"
  | .throwKw => some "throw"
  | .traceKw => some "trace"
  | .trueKw => some "true"
  | .typealiasKw => some "typealias"
  | .unknownKw => some "unknown"
  | .whenKw => some "when"
  | _ => none

/-- Blanks and comments are kept in the tree and invisible to the grammar. -/
def isTrivia : Kind → Bool
  | .whitespace | .lineComment | .docComment | .blockComment | .shebang => true
  | _ => false

/-- A keyword has a fixed spelling that starts with a letter. -/
def isKeyword (kind : Kind) : Bool :=
  kind.spelling?.any fun text => text.toList.head?.any Char.isAlpha

/-- A punctuation mark has a fixed spelling and is no keyword. -/
def isPunctuation (kind : Kind) : Bool :=
  kind.spelling?.isSome && !kind.isKeyword

/-- Keywords that may stand before a member. -/
def isModifier : Kind → Bool
  | .abstractKw | .openKw | .externalKw | .localKw | .hiddenKw | .fixedKw
  | .constKw => true
  | _ => false

end Kind

end PklAnalysis.Token
