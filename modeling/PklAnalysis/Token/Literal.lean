/-!
String literals. A literal is a body between delimiters; the body may hold
interpolated code `\( … )`, whose strings are literals again. A literal is read
in two passes: the first finds where it ends, the second cuts what the first has
found into pieces.
-/

namespace PklAnalysis.Token.Literal

def delimiter (multiline : Bool) : List Char :=
  if multiline then ['"', '"', '"'] else ['"']

def opening? (chars : List Char) : Option Bool :=
  if (delimiter true).isPrefixOf chars then some true
  else if (delimiter false).isPrefixOf chars then some false
  else none

/-- What the scan is inside of: the body of a literal, or interpolated code with
a number of open parentheses. -/
inductive Frame
  | body (multiline : Bool)
  | code (depth : Nat)
deriving DecidableEq, Repr

/-- Characters beyond ASCII cannot stand in the body of a literal, unless
escaped. -/
structure Unreadable where
  char : Char
deriving DecidableEq, Repr

/-- What the scan does at a character: it takes the character and `more` after
it and goes on inside `frames`, it stops before the character, or it fails. -/
inductive Move
  | take (more : Nat) (frames : List Frame)
  | stop
  | fail
deriving DecidableEq, Repr

/-- The move in a body. An escape takes the character after the backslash; an
open single-line literal stops at the line break, which inside interpolated code
is then part of that code. -/
def bodyMove (multiline : Bool) (outer : List Frame) (c : Char)
    (rest : List Char) : Move :=
  let stay := Frame.body multiline :: outer
  if c = '\\' && !rest.isEmpty then
    .take 1 (if rest.head? = some '(' then .code 0 :: stay else stay)
  else if c = '\n' && !multiline then
    if outer.isEmpty then .stop else .take 0 outer
  else if (delimiter multiline).isPrefixOf (c :: rest) then
    .take ((delimiter multiline).length - 1) outer
  else if c.toNat < 128 then
    .take 0 stay
  else
    .fail

/-- The move in interpolated code: parentheses are counted and literals
entered. -/
def codeMove (depth : Nat) (outer : List Frame) (c : Char) (rest : List Char) :
    Move :=
  if c = '(' then
    .take 0 (.code (depth + 1) :: outer)
  else if c = ')' then
    match depth with
    | 0 => .take 0 outer
    | depth + 1 => .take 0 (.code depth :: outer)
  else
    match opening? (c :: rest) with
    | some multiline =>
        .take ((delimiter multiline).length - 1)
          (.body multiline :: .code depth :: outer)
    | none => .take 0 (.code depth :: outer)

def move (frame : Frame) (outer : List Frame) (c : Char) (rest : List Char) :
    Move :=
  match frame with
  | .body multiline => bodyMove multiline outer c rest
  | .code depth => codeMove depth outer c rest

/-- The outcome of a scan: the characters that it took, the text after them, and
whether the scan ended where all that it was inside of is closed. -/
structure Scan where
  taken : List Char
  rest : List Char
  closed : Bool
deriving DecidableEq, Repr

def Scan.push (c : Char) (scan : Scan) : Scan :=
  { scan with taken := c :: scan.taken }

theorem Scan.exists_of_push {c : Char} {result : Except Unreadable Scan}
    {scan : Scan} (hscan : result.map (push c) = .ok scan) :
    ∃ inner, result = .ok inner ∧ scan = inner.push c := by
  cases result with
  | error reason => cases hscan
  | ok inner =>
      cases hscan
      exact ⟨inner, rfl, rfl⟩

/-- Scans inside `frames`; the next `pending` characters are taken already. -/
def scanFrom (pending : Nat) (frames : List Frame) :
    List Char → Except Unreadable Scan
  | [] => .ok ⟨[], [], pending = 0 && frames.isEmpty⟩
  | c :: rest =>
      match pending, frames with
      | pending + 1, frames => (scanFrom pending frames rest).map (Scan.push c)
      | 0, [] => .ok ⟨[], c :: rest, true⟩
      | 0, frame :: outer =>
          match move frame outer c rest with
          | .take more frames => (scanFrom more frames rest).map (Scan.push c)
          | .stop => .ok ⟨[], c :: rest, false⟩
          | .fail => .error ⟨c⟩

/-- Scans a literal from the character after its opening delimiter. -/
def scan (multiline : Bool) (chars : List Char) : Except Unreadable Scan :=
  scanFrom 0 [.body multiline] chars

/-- Scans interpolated code from the character after `\(`. The parenthesis that
closes it is taken too. -/
def scanCode (chars : List Char) : Except Unreadable Scan :=
  scanFrom 0 [.code 0] chars

theorem scanFrom_append {pending : Nat} {frames : List Frame}
    {chars : List Char} {scan : Scan}
    (hscan : scanFrom pending frames chars = .ok scan) :
    chars = scan.taken ++ scan.rest := by
  fun_induction scanFrom pending frames chars generalizing scan with
  | case1 | case3 | case5 =>
      cases hscan
      rfl
  | case2 frames c rest pending ih =>
      obtain ⟨inner, hinner, rfl⟩ := Scan.exists_of_push hscan
      simp [Scan.push, ← ih hinner]
  | case4 c rest frame outer more frames hmove ih =>
      obtain ⟨inner, hinner, rfl⟩ := Scan.exists_of_push hscan
      simp [Scan.push, ← ih hinner]
  | case6 => cases hscan

/-- What a piece is to its literal: text of the body, `\(`, interpolated code,
the `)` after the code, or the closing delimiter. -/
inductive Role
  | chars | opener | code | closer | delimiter
deriving DecidableEq, Repr

/-- A run of characters in one role. -/
structure Piece where
  role : Role
  chars : List Char
deriving DecidableEq, Repr

/-- The text gathered so far, latest character first, as a piece; there is none
without text. -/
def gathered (chunk : List Char) : List Piece :=
  if chunk.isEmpty then [] else [⟨.chars, chunk.reverse⟩]

def codePieces (scan : Scan) : List Piece :=
  if scan.closed then [⟨.code, scan.taken.dropLast⟩, ⟨.closer, [')']⟩]
  else [⟨.code, scan.taken⟩]

/-- Cuts a body into pieces, where `chunk` is the text since the last piece.
Line breaks do not matter any more. -/
def splitFrom (multiline : Bool) (chunk : List Char) :
    List Char → Except Unreadable (List Piece)
  | [] => .ok (gathered chunk)
  | '\\' :: '(' :: rest =>
      match h : scanCode rest with
      | .error reason => .error reason
      | .ok scan =>
          (splitFrom multiline [] scan.rest).map fun further =>
            gathered chunk ++ ⟨.opener, ['\\', '(']⟩ ::
              codePieces scan ++ further
  | '\\' :: c :: rest => splitFrom multiline (c :: '\\' :: chunk) rest
  | c :: rest =>
      if (delimiter multiline).isPrefixOf (c :: rest) then
        .ok (gathered chunk ++ [⟨.delimiter, delimiter multiline⟩])
      else if c.toNat < 128 then
        splitFrom multiline (c :: chunk) rest
      else
        .error ⟨c⟩
termination_by chars => chars.length
decreasing_by
  all_goals simp only [List.length_cons]
  · have hlength := congrArg List.length (scanFrom_append h)
    simp only [List.length_append] at hlength
    omega
  all_goals omega

def split (multiline : Bool) (body : List Char) :
    Except Unreadable (List Piece) :=
  splitFrom multiline [] body

end PklAnalysis.Token.Literal
