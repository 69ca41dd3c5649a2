import Mathlib.Data.List.Dedup
import Mathlib.Order.Basic
import PklAnalysis.Proofs.Lookup.TypeName
import PklAnalysis.Proofs.Node.Contents
import PklAnalysis.Proofs.Workspace.Run

/-!
The tables of a store stay in step over whole runs. Questions see exactly the
open documents, each with what the last accepted call for its uri asked for, and
a uri keeps its file for ever.
-/

namespace PklAnalysis

namespace Store

variable {store after : Store} {uri other : String} {file : FileId}
  {call : Call} {document : Document}

/-! What changes leave of the tables. -/

theorem document?_put : (store.put uri document).document? other =
    if other = uri then some document else store.document? other := by
  rw [document?, put, Table.get?_insert]
  split <;> rfl

theorem document?_remove :
    (store.remove uri).document? other = if other = uri then none else
      store.document? other := by
  rw [document?, remove, Table.get?_remove]
  split <;> rfl

theorem document?_put_cases {current : Document}
    (hopen : (store.put uri document).document? other = some current) :
    (other = uri ∧ document = current) ∨
      store.document? other = some current := by
  rw [document?_put] at hopen
  split at hopen
  case isTrue hsame => exact .inl ⟨hsame, Option.some.inj hopen⟩
  case isFalse => exact .inr hopen

theorem document?_of_remove {current : Document}
    (hopen : (store.remove uri).document? other = some current) :
    store.document? other = some current := by
  rw [document?_remove] at hopen
  split at hopen
  case isTrue => cases hopen
  case isFalse => exact hopen

@[simp] theorem document?_withFile :
    (store.withFile uri).document? other = store.document? other := by
  rw [document?, opened_withFile, ← document?]

theorem get?_files_withFile_self :
    (store.withFile uri).files.get? uri = some (store.fileOf uri) := by
  rw [withFile]
  split
  case h_1 file hfile => rw [hfile, fileOf, hfile, Option.getD_some]
  case h_2 => exact Table.get?_insert_self

theorem get?_files_withFile (hfile : store.files.get? uri = some file) :
    (store.withFile other).files.get? uri = some file := by
  rw [withFile]
  split
  case h_1 => exact hfile
  case h_2 hnone =>
      have hne : uri ≠ other := by
        rintro rfl
        rw [hnone] at hfile
        cases hfile
      exact (Table.get?_insert_of_ne hne).trans hfile

theorem Outcome.get?_files (houtcome : Outcome store call after)
    (hfile : store.files.get? uri = some file) :
    after.files.get? uri = some file := by
  cases houtcome with
  | rejected => exact hfile
  | unreadable | opened => exact get?_files_withFile hfile
  | closed => exact hfile

theorem get?_files_run (calls : List Call)
    (hfile : store.files.get? uri = some file) :
    (store.run calls).files.get? uri = some file :=
  run_induction (motive := fun store => store.files.get? uri = some file) hfile
    fun _ _ _ _ houtcome hfile => houtcome.get?_files hfile

structure Coherent (store : Store) : Prop where
  modules : ∀ uri, store.modules.get? uri = store.document? uri
  uri : ∀ {uri document}, store.document? uri = some document →
    document.uri = uri
  file : ∀ {uri document}, store.document? uri = some document →
    store.files.get? uri = some document.file

theorem coherent_empty (config : Config) (base : Base) :
    (empty config base).Coherent where
  modules _ := rfl
  uri := nofun
  file := nofun

namespace Coherent

variable (hcoherent : store.Coherent)
include hcoherent

theorem withFile (uri : String) : (store.withFile uri).Coherent where
  modules other := by
    rw [modules_withFile, document?_withFile, hcoherent.modules]
  uri hopen := hcoherent.uri (document?_withFile ▸ hopen)
  file hopen :=
    get?_files_withFile (hcoherent.file (document?_withFile ▸ hopen))

theorem put (huri : document.uri = uri)
    (hfile : store.files.get? uri = some document.file) :
    (store.put uri document).Coherent where
  modules other := by
    rw [document?_put, Store.put, Table.get?_insert, hcoherent.modules]
  uri hopen := by
    rcases document?_put_cases hopen with ⟨rfl, rfl⟩ | hopen
    · exact huri
    · exact hcoherent.uri hopen
  file hopen := by
    rcases document?_put_cases hopen with ⟨rfl, rfl⟩ | hopen
    · exact hfile
    · exact hcoherent.file hopen

theorem remove (uri : String) : (store.remove uri).Coherent where
  modules other := by
    rw [document?_remove, Store.remove, Table.get?_remove, hcoherent.modules]
  uri hopen := hcoherent.uri (document?_of_remove hopen)
  file hopen := hcoherent.file (document?_of_remove hopen)

theorem outcome (houtcome : Outcome store call after) : after.Coherent := by
  cases houtcome with
  | rejected => exact hcoherent
  | unreadable => exact hcoherent.withFile call.uri
  | opened _ _ _ hsource =>
      refine (hcoherent.withFile call.uri).put (congrArg Source.uri hsource) ?_
      rw [get?_files_withFile_self, Document.file, hsource, sourceOf]
  | closed => exact hcoherent.remove call.uri

theorem run (calls : List Call) : (store.run calls).Coherent :=
  run_induction hcoherent fun _ _ _ _ houtcome hbefore =>
    hbefore.outcome houtcome

end Coherent

theorem Coherent.document?_context (hcoherent : store.Coherent)
    {snapshot : Snapshot} (hsnapshot : store.snapshot uri = .ok snapshot)
    (other : String) :
    snapshot.context.document? other = store.document? other := by
  obtain ⟨entry, -, rfl⟩ := exists_of_snapshot hsnapshot
  exact hcoherent.modules other

/-! Documents are what was asked for. -/

def contents? (store : Store) (uri : String) : Option (Int × String) :=
  (store.document? uri).map fun document => (document.version, document.text)

/-- The last call of a run for a uri that is accepted. -/
def lastAccepted? (store : Store) (calls : List Call) (uri : String) :
    Option Call :=
  ((store.accepted calls).filter fun call => call.uri = uri).getLast?

theorem Outcome.contents?_eq (houtcome : Outcome store call after) :
    after.contents? uri =
      if store.accepts call ∧ call.uri = uri then call.contents? else
        store.contents? uri := by
  cases houtcome with
  | rejected haccepts => simp [haccepts]
  | unreadable haccepts => simp [haccepts, contents?]
  | @opened version text document haccepts hcontents _ hsource =>
      have hdocument : (document.version, document.text) = (version, text) := by
        rw [Document.version, Document.text, hsource, sourceOf]
      rw [contents?, document?_put, document?_withFile]
      by_cases hsame : call.uri = uri
      · simp [haccepts, hsame, hcontents, hdocument]
      · simp [hsame, Ne.symm hsame, contents?]
  | closed haccepts hcall =>
      have hcontents : call.contents? = none := by rw [hcall, Call.contents?]
      rw [contents?, document?_remove]
      by_cases hsame : call.uri = uri
      · simp [haccepts, hsame, hcontents]
      · simp [hsame, Ne.symm hsame, contents?]

theorem lastAccepted?_cons (rest : List Call) :
    store.lastAccepted? (call :: rest) uri =
      ((store.perform call).lastAccepted? rest uri).or
        (if store.accepts call ∧ call.uri = uri then some call else none) := by
  rw [lastAccepted?, lastAccepted?, accepted]
  by_cases haccepts : store.accepts call = true
  · by_cases huri : call.uri = uri
    · simp [haccepts, huri, List.getLast?_cons]
    · simp [haccepts, huri]
  · simp [haccepts]

theorem contents?_run (calls : List Call) : (store.run calls).contents? uri =
    ((store.lastAccepted? calls uri).map Call.contents?).getD
      (store.contents? uri) := by
  induction calls generalizing store with
  | nil => rfl
  | cons call rest ih =>
      rw [run, List.foldl_cons, ← run, ih,
        (outcome_perform store call).contents?_eq, lastAccepted?_cons]
      cases (store.perform call).lastAccepted? rest uri with
      | some last => rfl
      | none => split <;> rfl

theorem Outcome.version_le (houtcome : Outcome store call after)
    (hcall : call ≠ .close uri) {old : Document}
    (hopen : store.document? uri = some old) :
    ∃ new, after.document? uri = some new ∧ old.version ≤ new.version := by
  cases houtcome with
  | rejected => exact ⟨old, hopen, le_rfl⟩
  | unreadable => exact ⟨old, document?_withFile.trans hopen, le_rfl⟩
  | @opened version text document _ _ hfresh hsource =>
      rw [document?_put, document?_withFile]
      split
      case isTrue hsame =>
          refine ⟨document, rfl, ?_⟩
          rw [Document.version.eq_def document, hsource]
          exact isStale_eq_false.mp hfresh old (hsame ▸ hopen)
      case isFalse => exact ⟨old, hopen, le_rfl⟩
  | closed _ hclose =>
      have hne : uri ≠ call.uri := by
        rintro rfl
        exact hcall hclose
      rw [document?_remove, if_neg hne]
      exact ⟨old, hopen, le_rfl⟩

/-- A document stays open as long as it is not closed, and its version does not
decrease. -/
theorem version_le_run (calls : List Call) (hclose : Call.close uri ∉ calls)
    {old : Document} (hopen : store.document? uri = some old) :
    ∃ new, (store.run calls).document? uri = some new ∧
      old.version ≤ new.version := by
  refine run_induction
    (motive := fun store => ∃ new,
      store.document? uri = some new ∧ old.version ≤ new.version)
    ⟨old, hopen, le_rfl⟩ ?_
  rintro before after call hcall houtcome ⟨current, hcurrent, hversion⟩
  have hother : call ≠ .close uri := fun hsame => hclose (hsame ▸ hcall)
  obtain ⟨new, hnew, hversion'⟩ := houtcome.version_le hother hcurrent
  exact ⟨new, hnew, hversion.trans hversion'⟩

/-- Files are numbered in the order in which they are first asked for, the first
after that of the base module. -/
structure Numbered (uris : List String) (store : Store) : Prop where
  keys : store.files.keys ⊆ uris
  next : store.nextFile.toNat = store.files.size + 1
  number : ∀ {uri file}, store.files.get? uri = some file →
    FileId.base.number < file.number ∧ file.number ≤ store.files.size
  distinct : ∀ {left right file}, store.files.get? left = some file →
    store.files.get? right = some file → left = right

theorem numbered_empty (config : Config) (base : Base) (uris : List String) :
    Numbered uris (empty config base) where
  keys := List.nil_subset uris
  next := rfl
  number := nofun
  distinct := nofun

namespace Numbered

variable {uris : List String} (hnumbered : Numbered uris store)
include hnumbered

theorem fileOf_of_none (hnone : store.files.get? uri = none) :
    store.fileOf uri = ⟨store.files.size + 1⟩ := by
  rw [fileOf, hnone, Option.getD_none, hnumbered.next]

theorem keys_insert (hnone : store.files.get? uri = none) (huri : uri ∈ uris) :
    (store.files.insert uri file).keys ⊆ uris := by
  rw [Table.keys_insert_of_get?_eq_none hnone]
  exact List.append_subset.mpr ⟨hnumbered.keys,
    List.cons_subset.mpr ⟨huri, List.nil_subset uris⟩⟩

/-- The number of a file is not given again before all numbers are used up. -/
theorem withFile (huri : uri ∈ uris) (hfew : uris.length < 2 ^ 32 - 1) :
    Numbered uris (store.withFile uri) := by
  rw [Store.withFile]
  split
  case h_1 => exact hnumbered
  case h_2 hnone =>
      rw [hnumbered.fileOf_of_none hnone]
      generalize hfile : FileId.mk (store.files.size + 1) = file
      have hkeys : (store.files.insert uri file).keys ⊆ uris :=
        hnumbered.keys_insert hnone huri
      have hsize : (store.files.insert uri file).size = store.files.size + 1 :=
        Table.size_insert_of_get?_eq_none hnone
      have hbound : store.files.size + 1 ≤ uris.length :=
        hsize.symm.trans_le (Table.size_le_of_keys_subset hkeys)
      have hnext := hnumbered.next
      -- an entry is an old one, whose number is smaller, or the new one
      have hcases : ∀ {other found},
          (store.files.insert uri file).get? other = some found →
          (store.files.get? other = some found ∧
            found.number ≤ store.files.size) ∨
            (other = uri ∧ found.number = store.files.size + 1) := by
        intro other found hentry
        rw [Table.get?_insert] at hentry
        split at hentry
        case isTrue hsame =>
            exact .inr ⟨hsame, by rw [← Option.some.inj hentry, ← hfile]⟩
        case isFalse => exact .inl ⟨hentry, (hnumbered.number hentry).2⟩
      refine ⟨hkeys, ?_, fun hentry => ?_, fun hleft hright => ?_⟩
      · rw [hsize, UInt32.toNat_add, UInt32.toNat_one, hnext]
        omega
      · rw [hsize]
        rcases hcases hentry with ⟨hold, hnumber⟩ | ⟨-, hnumber⟩
        · exact ⟨(hnumbered.number hold).1, Nat.le_succ_of_le hnumber⟩
        · exact ⟨hnumber ▸ Nat.succ_pos _, hnumber.le⟩
      · rcases hcases hleft with ⟨hleft, hleftNumber⟩ | ⟨hleftUri, hleftNumber⟩
        · rcases hcases hright with ⟨hright, -⟩ | ⟨-, hrightNumber⟩
          · exact hnumbered.distinct hleft hright
          · omega
        · rcases hcases hright with ⟨-, hrightNumber⟩ | ⟨hrightUri, -⟩
          · omega
          · exact hleftUri.trans hrightUri.symm

theorem outcome (huri : call.uri ∈ uris) (hfew : uris.length < 2 ^ 32 - 1)
    (houtcome : Outcome store call after) : Numbered uris after := by
  cases houtcome with
  | rejected => exact hnumbered
  | unreadable => exact hnumbered.withFile huri hfew
  | opened =>
      have hfiles := hnumbered.withFile huri hfew
      exact ⟨hfiles.keys, hfiles.next, hfiles.number, hfiles.distinct⟩
  | closed =>
      exact ⟨hnumbered.keys, hnumbered.next, hnumbered.number,
        hnumbered.distinct⟩

theorem run (hfew : uris.length < 2 ^ 32 - 1) (calls : List Call)
    (huris : ∀ call ∈ calls, call.uri ∈ uris) :
    Numbered uris (store.run calls) :=
  run_induction hnumbered fun _ _ call hcall houtcome hbefore =>
    hbefore.outcome (huris call hcall) hfew houtcome

end Numbered

/-- Whatever a client opens, updates and closes, as long as it names fewer uris
than there are file numbers: questions see exactly the open documents; an open
document has its uri, its file, and the version and the text of the last
accepted call for it; files are kept for ever, differ from each other and from
that of the base module; versions of what stays open do not decrease; and an
update that comes too late changes nothing and gives the open document. -/
theorem coherent_run (config : Config) (base : Base) (calls : List Call)
    (hfew : (calls.map Call.uri).dedup.length < 2 ^ 32 - 1) :
    let start := empty config base
    let store := start.run calls
    store.Coherent ∧
      (∀ uri snapshot, store.snapshot uri = .ok snapshot →
        ∀ other, snapshot.context.document? other = store.document? other) ∧
      (∀ uri,
        store.contents? uri =
          (start.lastAccepted? calls uri).bind Call.contents?) ∧
      (∀ before later, before ++ later = calls → ∀ uri file,
        (start.run before).files.get? uri = some file →
          store.files.get? uri = some file) ∧
      (∀ left right file, store.files.get? left = some file →
        store.files.get? right = some file → left = right) ∧
      (∀ uri file, store.files.get? uri = some file → file ≠ FileId.base) ∧
      (∀ before later, before ++ later = calls → ∀ uri old,
        Call.close uri ∉ later → (start.run before).document? uri = some old →
          ∃ new, store.document? uri = some new ∧ old.version ≤ new.version) ∧
      ∀ uri version text current, store.document? uri = some current →
        version < current.version →
        ∃ messages,
        store.update uri version text =
          .ok { store, document := current, messages } := by
  intro start store
  have hnumbered : Numbered (calls.map Call.uri).dedup store :=
    (numbered_empty config base _).run hfew calls fun call hcall =>
      List.mem_dedup.mpr (List.mem_map_of_mem hcall)
  have hcoherent : store.Coherent := (coherent_empty config base).run calls
  refine ⟨hcoherent,
    fun uri snapshot hsnapshot => hcoherent.document?_context hsnapshot,
    fun uri => ?_, fun before later hcalls uri file => ?_,
    fun _ _ _ => hnumbered.distinct, fun uri file hfile hbase => ?_,
    fun before later hcalls uri old hclose hopen => ?_,
      fun uri version text current hopen hstale => ?_⟩
  · rw [contents?_run]
    cases start.lastAccepted? calls uri <;> rfl
  · simp only [store, ← hcalls, run_append]
    exact get?_files_run later
  · exact absurd (hnumbered.number hfile).1 (by rw [hbase]; exact lt_irrefl _)
  · simp only [store, ← hcalls, run_append]
    exact version_le_run later hclose hopen
  · exact ⟨_, update_of_stale hopen hstale⟩

/-- A document that is opened again after an update that came too late; its
version may be smaller. -/
theorem coherent_run_reopened :
    let base : Base := .plain
    let calls : List Call :=
      [.openFile "a" 2 "x", .update "a" 1 "", .close "a", .openFile "b" 1 "",
        .openFile "a" 0 "y"]
    let store := (empty .default base).run calls
    (calls.map Call.uri).dedup.length < 2 ^ 32 - 1 ∧ store.Coherent ∧
      store.contents? "a" = some (0, "y") ∧ store.contents? "b" = some (1,
        "") := by
  intro base calls store
  have hfew : (calls.map Call.uri).dedup.length < 2 ^ 32 - 1 := by
    decide +kernel
  obtain ⟨hcoherent, -, hcontents, -⟩ := coherent_run .default base calls hfew
  have hlast : (empty .default base).lastAccepted? calls "a" =
      some (.openFile "a" 0 "y") := by
    decide +kernel
  have hlast' : (empty .default base).lastAccepted? calls "b" =
      some (.openFile "b" 1 "") := by
    decide +kernel
  refine ⟨hfew, hcoherent, ?_, ?_⟩
  · rw [hcontents, hlast]
    rfl
  · rw [hcontents, hlast']
    rfl

end Store

end PklAnalysis
