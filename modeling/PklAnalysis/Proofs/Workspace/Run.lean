import PklAnalysis.Proofs.Workspace.Table
import PklAnalysis.Workspace.Store

/-!
Stores over whole runs: sequences of calls that open, update and close documents
and take snapshots of them.
-/

namespace PklAnalysis

namespace Store

inductive Call
  | openFile (uri : String) (version : Int) (text : String)
  | update (uri : String) (version : Int) (text : String)
  | close (uri : String)
  | snapshot (uri : String)
deriving DecidableEq, Repr

namespace Call

def uri : Call → String
  | openFile uri _ _ | update uri _ _ | close uri | snapshot uri => uri

def contents? : Call → Option (Int × String)
  | openFile _ version text | update _ version text => some (version, text)
  | close _ | snapshot _ => none

end Call

/-- A text that cannot be read leaves nothing behind but the file of its uri,
which is found before the text is read. -/
def performUpdate (store : Store) (uri : String) (version : Int)
    (text : String) : Store :=
  match store.update uri version text with
  | .ok result => result.store
  | .error _ => store.withFile uri

def perform (store : Store) : Call → Store
  | .openFile uri version text | .update uri version text =>
      store.performUpdate uri version text
  | .close uri => store.close uri
  | .snapshot _ => store

def run (store : Store) (calls : List Call) : Store :=
  calls.foldl perform store

def isStale (store : Store) (uri : String) (version : Int) : Bool :=
  (store.document? uri).any fun current => version < current.version

def isReadable (text : String) : Bool :=
  (Token.tokenize text).toBool

/-- Whether a call changes what is open: an update that does not come too late
and whose text can be read, or closing an open document. -/
def accepts (store : Store) : Call → Bool
  | .openFile uri version text | .update uri version text =>
      !store.isStale uri version && isReadable text
  | .close uri => (store.document? uri).isSome
  | .snapshot _ => false

def accepted (store : Store) : List Call → List Call
  | [] => []
  | call :: rest =>
      if store.accepts call then call :: accepted (store.perform call) rest
      else accepted (store.perform call) rest

variable {store : Store} {uri : String} {version : Int} {text : String}
  {call : Call}

theorem run_append (store : Store) (before after : List Call) :
    store.run (before ++ after) = (store.run before).run after :=
  List.foldl_append

@[simp] theorem opened_withFile :
    (store.withFile uri).opened = store.opened := by
  rw [withFile]
  split <;> rfl

@[simp] theorem modules_withFile :
    (store.withFile uri).modules = store.modules := by
  rw [withFile]
  split <;> rfl

@[simp] theorem revision_withFile :
    (store.withFile uri).revision = store.revision := by
  rw [withFile]
  split <;> rfl

@[simp] theorem cancelled_withFile :
    (store.withFile uri).cancelled = store.cancelled := by
  rw [withFile]
  split <;> rfl

/-- Everything that a call can do: nothing, or nothing but to find the file of
its uri, if it is not accepted; otherwise it puts a document where it asks for
one, or removes one. -/
inductive Outcome (store : Store) (call : Call) : Store → Prop
  | rejected (haccepts : store.accepts call = false) : Outcome store call store
  | unreadable (haccepts : store.accepts call = false) :
      Outcome store call (store.withFile call.uri)
  | opened {version : Int} {text : String} {document : Document}
      (haccepts : store.accepts call = true)
      (hcontents : call.contents? = some (version, text))
      (hfresh : store.isStale call.uri version = false)
      (hsource : document.source = store.sourceOf call.uri version text) :
      Outcome store call ((store.withFile call.uri).put call.uri document)
  | closed {entry : OpenDocument} (haccepts : store.accepts call = true)
      (hcall : call = .close call.uri)
      (hentry : store.opened.get? call.uri = some entry) :
      Outcome store call (store.remove call.uri)

theorem exists_of_snapshot {snapshot : Snapshot}
    (hsnapshot : store.snapshot uri = .ok snapshot) :
    ∃ entry,
      store.opened.get? uri = some entry ∧
        store.snapshotOf entry = snapshot := by
  rw [Store.snapshot] at hsnapshot
  split at hsnapshot
  case h_1 => cases hsnapshot
  case h_2 entry hentry => exact ⟨entry, hentry, Except.ok.inj hsnapshot⟩

theorem isStale_eq_false : store.isStale uri version = false ↔
    ∀ current, store.document? uri = some current →
    current.version ≤ version := by
  simp [isStale, Option.any_eq_false]

theorem update_of_stale {current : Document}
    (hcurrent : store.document? uri = some current)
    (hstale : version < current.version) :
    store.update uri version text =
      .ok (store.ignored uri version current) := by
  simp only [update, hcurrent, if_pos hstale]

theorem update_of_not_isStale (hstale : store.isStale uri version = false) :
    store.update uri version text = store.accept uri version text := by
  rw [update]
  split
  case h_1 current hcurrent =>
      rw [if_neg (Int.not_lt.mpr (isStale_eq_false.mp hstale current hcurrent))]
  case h_2 => rfl

theorem isReadable_cases (source : Source) :
    (isReadable source.text = false ∧ ∃ reason,
      Document.ofSource source = .error reason) ∨
      (isReadable source.text = true ∧
        ∃ document, Document.ofSource source = .ok document ∧
          document.source = source) := by
  rw [Document.ofSource]
  split
  case h_1 reason hparse =>
      refine .inl ⟨?_, reason, rfl⟩
      rw [isReadable]
      cases htokens : Token.tokenize source.text with
      | error _ => rfl
      | ok tokens =>
          rw [Grammar.parse, htokens] at hparse
          cases hparse
  case h_2 parse hparse =>
      refine .inr ⟨?_, _, rfl, rfl⟩
      rw [isReadable]
      cases htokens : Token.tokenize source.text with
      | error _ =>
          rw [Grammar.parse, htokens] at hparse
          cases hparse
      | ok _ => rfl

theorem update_cases (hfresh : store.isStale uri version = false) :
    (isReadable text = false ∧ ∃ reason,
      store.update uri version text = .error reason) ∨
      (isReadable text = true ∧
        ∃ (document : Document) (messages : List Log.Message),
        document.source = store.sourceOf uri version text ∧
          store.update uri version text = .ok
            { store := (store.withFile uri).put uri document
              document
              messages }) := by
  rw [update_of_not_isStale hfresh, accept]
  rcases isReadable_cases (store.sourceOf uri version text) with
    ⟨hread, reason, hofSource⟩ | ⟨hread, document, hofSource, hsource⟩
  · exact .inl ⟨hread, reason, by rw [hofSource]; rfl⟩
  · exact .inr ⟨hread, document, _, hsource, by rw [hofSource]; rfl⟩

theorem outcome_performUpdate (haccepts : store.accepts call =
      (!store.isStale call.uri version && isReadable text))
    (hcontents : call.contents? = some (version, text)) :
    Outcome store call (store.performUpdate call.uri version text) := by
  rw [performUpdate]
  cases hstale : store.isStale call.uri version with
  | true =>
      obtain ⟨current, hcurrent, hversion⟩ := (Option.any_eq_true _ _).mp hstale
      rw [update_of_stale hcurrent (of_decide_eq_true hversion)]
      exact .rejected (by rw [haccepts, hstale]; rfl)
  | false =>
      rcases update_cases hstale with
        ⟨hread, reason, hupdate⟩ | ⟨hread, document, _, hsource, hupdate⟩
      · rw [hupdate]
        exact .unreadable (by rw [haccepts, hread, Bool.and_false])
      · rw [hupdate]
        exact .opened (by rw [haccepts, hstale, hread]; rfl) hcontents
          hstale hsource

theorem outcome_perform (store : Store) (call : Call) :
    Outcome store call (store.perform call) := by
  cases call with
  | openFile uri version text | update uri version text =>
      exact outcome_performUpdate rfl rfl
  | close uri =>
      rw [perform, close]
      split
      case h_1 hnone => exact .rejected (by simp [accepts, document?, hnone])
      case h_2 entry hentry =>
          exact .closed (by simp [accepts, document?, hentry]) rfl hentry
  | snapshot uri => exact .rejected rfl

/-- What each of the calls of a run keeps, the run keeps. -/
theorem run_induction {motive : Store → Prop} {calls : List Call}
    (hstart : motive store)
    (hstep : ∀ before after, ∀ call ∈ calls, Outcome before call after →
      motive before → motive after) :
    motive (store.run calls) := by
  induction calls generalizing store with
  | nil => exact hstart
  | cons call rest ih =>
      refine ih (hstep _ _ call List.mem_cons_self (outcome_perform store call)
        hstart) ?_
      exact fun before after other hother =>
        hstep before after other (List.mem_cons_of_mem _ hother)

end Store

end PklAnalysis
