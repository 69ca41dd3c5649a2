import PklAnalysis.Text.Number

/-!
Message catalogs: texts by key, with numbered places for arguments.
-/

namespace PklAnalysis

/-- Templates by key. Of several templates with one key the last counts. -/
structure Messages where
  entries : List (String × String)
deriving Repr

namespace Messages

/-- The entry on a line: a key and a template around the first equal sign or
colon. Blank lines and comments, which start with a number sign or an
exclamation mark, hold none. -/
def entry? (line : List Char) : Option (String × String) :=
  let line := Text.trim line
  match line with
  | [] => none
  | c :: _ =>
      if c = '#' || c = '!' then none
      else
        let isSeparator := fun c => c = '=' || c = ':'
        match line.dropWhile (!isSeparator ·) with
        | [] => none
        | _ :: value =>
            some (String.ofList (Text.trim (line.takeWhile (!isSeparator ·))),
              String.ofList (Text.trim value))

def ofText (text : String) : Messages :=
  { entries := (Text.lines text.toList).filterMap entry? }

def get? (messages : Messages) (key : String) : Option String :=
  (messages.entries.reverse.find? fun entry => entry.1 = key).map Prod.snd

def maxIndex : Nat := 0xFFFFFFFFFFFFFFFF

/-- What a template from an opening brace on stands for: the argument whose
number stands between the braces, and the rest of the template. -/
def argument? (args : List String) (chars : List Char) :
    Option (String × List Char) := do
  match chars.dropWhile (· != '\x7d') with
  | [] => none
  | _ :: rest =>
      let index ← Text.unsigned? 10 maxIndex (chars.takeWhile (· != '\x7d'))
      let value ← args[index]?
      return (value, rest)

/-- A template of at most `limit` characters with its places filled in. A place
without an argument is left as written; arguments are not looked into. -/
def fillUpTo (args : List String) : Nat → List Char → List Char
  | 0, _ => []
  | _ + 1, [] => []
  | limit + 1, c :: rest =>
      if c = '\x7b' then
        match argument? args rest with
        | some (value, rest) => value.toList ++ fillUpTo args limit rest
        | none => c :: fillUpTo args limit rest
      else
        c :: fillUpTo args limit rest

def fill (args : List String) (template : String) : String :=
  String.ofList (fillUpTo args template.length template.toList)

/-- The message of a key. An unknown key is its own message. -/
def format (messages : Messages) (key : String) (args : List String) : String :=
  match messages.get? key with
  | some template => fill args template
  | none => key

def bundled : Messages :=
  { entries :=
      [("annotationHasNoName", "Annotation must name a class"),
       ("cannotFindType", "Cannot find type `\x7b0\x7d`"),
       ("typeIsAbstract",
         "Type `\x7b0\x7d` is abstract and cannot be instantiated"),
       ("notAnnotation", "Type `\x7b0\x7d` is not a subclass of `Annotation`"),
       ("missingDelimiter", "Missing `\x7b0\x7d`"),
       ("missingComma", "Missing `,` between arguments"),
       ("syntaxError", "Syntax error: \x7b0\x7d")] }

end Messages

end PklAnalysis
