import PklAnalysis.Text.Blank

/-!
Uris of modules: references relative to a module, and uris of files.
-/

namespace PklAnalysis.Uri

/-- The text before the first character that satisfies `stops`, and the text
from it on. -/
def breakAt (stops : Char → Bool) (chars : List Char) : List Char × List Char :=
  (chars.takeWhile (!stops ·), chars.dropWhile (!stops ·))

def isSchemeChar (c : Char) : Bool :=
  c.isAlphanum || c = '+' || c = '-' || c = '.'

/-- Whether a uri starts with a scheme: at least two scheme characters before
the first colon. A single letter is a drive. -/
def hasScheme (uri : List Char) : Bool :=
  let (scheme, rest) := breakAt (· = ':') uri
  !rest.isEmpty && 1 < scheme.length && scheme.all isSchemeChar

def splitAtAuthority? : List Char → Option (List Char × List Char)
  | [] => none
  | c :: rest =>
      if [':', '/', '/'].isPrefixOf (c :: rest) then
        some ([':', '/', '/'], rest.drop 2)
      else
        (splitAtAuthority? rest).map fun (before, after) => (c :: before, after)

/-- A uri as `scheme://authority` or `scheme:`, and a path. -/
def split (uri : List Char) : List Char × List Char :=
  match splitAtAuthority? uri with
  | some (scheme, rest) =>
      let (authority, path) := breakAt (· = '/') rest
      (scheme ++ authority, path)
  | none =>
      if hasScheme uri then
        let (scheme, rest) := breakAt (· = ':') uri
        (scheme ++ rest.take 1, rest.drop 1)
      else
        ([], uri)

/-- Goes on from a directory, given as path segments, by one segment. The first
segment, which is empty for absolute paths, is never left. -/
def step (segments : List (List Char)) (segment : List Char) :
    List (List Char) :=
  if segment = ['.'] then segments
  else if segment = ['.', '.'] then
    if 1 < segments.length then segments.dropLast else segments
  else if segment.isEmpty && !segments.isEmpty then segments
  else segments ++ [segment]

def joinSegments (segments : List (List Char)) : List Char :=
  List.intercalate ['/'] segments

/-- The uri that a reference in a module stands for. A reference with a scheme
stands for itself; any other replaces the last segment of the module's path, or
the whole path if it starts with a slash. -/
def resolve (base reference : List Char) : List Char :=
  if hasScheme reference then reference
  else
    let (authority, path) := split base
    let directory :=
      if reference.head? = some '/' then [] else
        (Text.splitAt (· = '/') path).dropLast
    let joined :=
      joinSegments ((Text.splitAt (· = '/') reference).foldl step directory)
    let rooted :=
      if joined.head? != some '/' && path.head? = some '/' then '/' :: joined
        else joined
    authority ++ rooted

def join (base reference : String) : String :=
  String.ofList (resolve base.toList reference.toList)

/-- The uri of a file. Backslashes in paths count as slashes. -/
def ofPath (path : String) : String :=
  let slashed := path.toList.map fun c => if c = '\\' then '/' else c
  let root := if slashed.head? = some '/' then "file://" else "file:///"
  root ++ String.ofList slashed

end PklAnalysis.Uri
