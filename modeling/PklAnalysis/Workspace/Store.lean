import PklAnalysis.Workspace.Config
import PklAnalysis.Workspace.Table

/-!
The open documents of a workspace. Every accepted update makes a new document
with a token of its own, and cancels the token of the document it replaces;
questions hold a child of the token of the document they are about.
-/

namespace PklAnalysis

/-- What tells a question that it is no longer wanted. A child is cancelled with
its parent. -/
inductive CancellationToken
  /-- The token of a document, which is told apart by its revision. -/
  | root (revision : Nat)
  | child (parent : CancellationToken)
deriving DecidableEq, Repr

namespace CancellationToken

/-- Whether a token is cancelled, given those on which that was asked for. -/
def isCancelled (cancelled : List CancellationToken) : CancellationToken → Bool
  | .root revision => cancelled.contains (.root revision)
  | .child parent =>
      cancelled.contains (.child parent) || parent.isCancelled cancelled

end CancellationToken

structure OpenDocument where
  document : Document
  cancel : CancellationToken
deriving DecidableEq

/-- Open documents, and what all questions about them share. -/
structure Store where
  config : Config
  base : Base
  opened : Table OpenDocument
  /-- The documents that questions see, by uri. -/
  modules : Table Document
  files : Table FileId
  nextFile : UInt32
  /-- How many documents were made. -/
  revision : Nat
  cancelled : List CancellationToken

/-- A document as it was, and the token and the context for questions about
it. -/
structure Snapshot where
  document : Document
  token : CancellationToken
  context : Context

namespace Store

/-- The base module has the first file number, so that the others start after
it. -/
def empty (config : Config) (base : Base) : Store :=
  { config
    base
    opened := .empty
    modules := .empty
    files := .empty
    nextFile := UInt32.ofNat FileId.base.number + 1
    revision := 0
    cancelled := [] }

def document? (store : Store) (uri : String) : Option Document :=
  (store.opened.get? uri).map OpenDocument.document

def size (store : Store) : Nat :=
  store.opened.size

def uris (store : Store) : List String :=
  store.opened.keys.mergeSort fun left right => left ≤ right

def isCancelled (store : Store) (token : CancellationToken) : Bool :=
  token.isCancelled store.cancelled

/-- The file of a uri: the one that it has, or the next. -/
def fileOf (store : Store) (uri : String) : FileId :=
  (store.files.get? uri).getD ⟨store.nextFile.toNat⟩

def withFile (store : Store) (uri : String) : Store :=
  match store.files.get? uri with
  | some _ => store
  | none =>
      { store with
        files := store.files.insert uri (store.fileOf uri),
          nextFile := store.nextFile + 1 }

/-- The cancelled tokens together with that of the open document of a uri. -/
def cancelledWith (store : Store) (uri : String) : List CancellationToken :=
  match store.opened.get? uri with
  | some previous => previous.cancel :: store.cancelled
  | none => store.cancelled

def put (store : Store) (uri : String) (document : Document) : Store :=
  let revision := store.revision + 1
  { store with
    opened := store.opened.insert uri { document, cancel := .root revision }
    modules := store.modules.insert uri document
    revision
    cancelled := store.cancelledWith uri }

/-- The result of an update: the store, the document that is open now, and the
messages sent. -/
structure Update where
  store : Store
  document : Document
  messages : List Log.Message

/-- The result of an update that comes too late: nothing changes. -/
def ignored (store : Store) (uri : String) (version : Int)
    (current : Document) : Update :=
  { store
    document := current
    messages := store.config.logger.send .warning
      s!"ignoring stale update of {uri} (version {version}, open {current.version})" }

def sourceOf (store : Store) (uri : String) (version : Int) (text : String) :
    Source :=
  { file := store.fileOf uri,
    revision := store.revision + 1, uri, version, text }

def accept (store : Store) (uri : String) (version : Int) (text : String) :
    Except Token.Literal.Unreadable Update := do
  let document ← Document.ofSource (store.sourceOf uri version text)
  return {
    store := (store.withFile uri).put uri document
    document
    messages :=
      store.config.logger.send .log s!"updated {uri} to version {version}" }

/-- Opens a document or replaces the open one, unless that has a larger
version. -/
def update (store : Store) (uri : String) (version : Int) (text : String) :
    Except Token.Literal.Unreadable Update :=
  match store.document? uri with
  | some current =>
      if version < current.version then .ok (store.ignored uri version current)
      else store.accept uri version text
  | none => store.accept uri version text

def remove (store : Store) (uri : String) : Store :=
  { store with
    opened := store.opened.remove uri
    modules := store.modules.remove uri
    cancelled := store.cancelledWith uri }

def close (store : Store) (uri : String) : Store :=
  match store.opened.get? uri with
  | none => store
  | some _ => store.remove uri

def snapshotOf (store : Store) (entry : OpenDocument) : Snapshot :=
  let token := entry.cancel.child
  { document := entry.document
    token
    context :=
      { base := store.base
        modules := store.modules.entries
        cancelled := store.isCancelled token
        maxDepth := store.config.maxDepth } }

def snapshot (store : Store) (uri : String) : Except Failure Snapshot :=
  match store.opened.get? uri with
  | none => .error (.unknownDocument uri)
  | some entry => .ok (store.snapshotOf entry)

/-- The context of a snapshot as it is now: cancelled once its token is. -/
def contextOf (store : Store) (snapshot : Snapshot) : Context :=
  { snapshot.context with cancelled := store.isCancelled snapshot.token }

def analyze (store : Store) (uri : String) : Except Failure Report := do
  let snapshot ← store.snapshot uri
  Analyzer.run store.config.analyzers snapshot.context snapshot.document.root

/-- The messages sent about a report: one for each subtree that was left out. -/
def complaints (store : Store) (uri : String) :
    Except Failure Report → List Log.Message
  | .ok report =>
      report.malformed.flatMap fun missing =>
        store.config.logger.send .error s!"{uri}: {missing.message}"
  | .error _ => []

def analyzeAll (store : Store) : List (String × Except Failure Report) :=
  store.uris.map fun uri => (uri, store.analyze uri)

def describe (store : Store) : String :=
  s!"Project \x7b config: {settings}, documents: {store.size} \x7d"
where
  settings : String := store.config.describe

end Store

end PklAnalysis
