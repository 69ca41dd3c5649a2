import PklAnalysis.Proofs.Lookup.TypeName
import PklAnalysis.Proofs.Node.Contents
import PklAnalysis.Proofs.Workspace.Run

/-!
A question is cancelled when the document that it is about is replaced or
closed, and for no other reason.
-/

namespace PklAnalysis

namespace Store

variable {store after : Store} {uri other : String} {call : Call}
  {document : Document} {token : CancellationToken} {entry : OpenDocument}

theorem mem_cancelledWith : token ∈ store.cancelledWith uri ↔
    token ∈ store.cancelled ∨
      (store.opened.get? uri).map OpenDocument.cancel = some token := by
  rw [cancelledWith]
  split
  case h_1 previous hprevious => simp [hprevious, or_comm, eq_comm]
  case h_2 hnone => simp [hnone]

theorem get?_opened_put : (store.put uri document).opened.get? other =
    if other = uri then some ⟨document, .root (store.revision + 1)⟩ else
      store.opened.get? other :=
  Table.get?_insert

theorem opened_put_cases
    (hentry : (store.put uri document).opened.get? other = some entry) :
    (other = uri ∧ entry.cancel = .root (store.revision + 1)) ∨
      (other ≠ uri ∧ store.opened.get? other = some entry) := by
  rw [get?_opened_put] at hentry
  split at hentry
  case isTrue hsame => exact .inl ⟨hsame, (Option.some.inj hentry) ▸ rfl⟩
  case isFalse hne => exact .inr ⟨hne, hentry⟩

theorem opened_remove_cases
    (hentry : (store.remove uri).opened.get? other = some entry) :
    other ≠ uri ∧ store.opened.get? other = some entry := by
  rw [remove, Table.get?_remove] at hentry
  split at hentry
  case isTrue => cases hentry
  case isFalse hne => exact ⟨hne, hentry⟩

theorem Outcome.cancelled_subset (houtcome : Outcome store call after) :
    store.cancelled ⊆ after.cancelled := by
  intro token htoken
  cases houtcome with
  | rejected => exact htoken
  | unreadable => rwa [cancelled_withFile]
  | opened => exact mem_cancelledWith.mpr (.inl (by rwa [cancelled_withFile]))
  | closed => exact mem_cancelledWith.mpr (.inl htoken)

theorem mem_cancelled_run_of_mem (calls : List Call)
    (htoken : token ∈ store.cancelled) :
    token ∈ (store.run calls).cancelled :=
  run_induction (motive := fun store => token ∈ store.cancelled) htoken
    fun _ _ _ _ houtcome hbefore => houtcome.cancelled_subset hbefore

theorem Outcome.mem_cancelled (houtcome : Outcome store call after)
    (haccepts : store.accepts call = true)
    (hentry : store.opened.get? call.uri = some entry) :
    entry.cancel ∈ after.cancelled := by
  cases houtcome with
  | rejected hrejected | unreadable hrejected =>
      rw [haccepts] at hrejected
      cases hrejected
  | opened =>
      exact mem_cancelledWith.mpr (.inr (by rw [opened_withFile, hentry]; rfl))
  | closed => exact mem_cancelledWith.mpr (.inr (by rw [hentry]; rfl))

theorem Outcome.get?_opened (houtcome : Outcome store call after)
    (hother : ¬(store.accepts call = true ∧ call.uri = uri)) :
    after.opened.get? uri = store.opened.get? uri := by
  cases houtcome with
  | rejected => rfl
  | unreadable => rw [opened_withFile]
  | opened haccepts =>
      have hne : uri ≠ call.uri := fun hsame => hother ⟨haccepts, hsame.symm⟩
      rw [get?_opened_put, if_neg hne, opened_withFile]
  | closed haccepts =>
      have hne : uri ≠ call.uri := fun hsame => hother ⟨haccepts, hsame.symm⟩
      exact Table.get?_remove_of_ne hne

theorem isCancelled_root {revision : Nat} :
    store.isCancelled (.root revision) = true ↔
      CancellationToken.root revision ∈ store.cancelled := by
  rw [isCancelled, CancellationToken.isCancelled, List.contains_iff_mem]

def Made (store : Store) (token : CancellationToken) : Prop :=
  ∃ revision ≤ store.revision, token = .root revision

theorem Made.put (hmade : store.Made token) (uri : String)
    (document : Document) :
    (store.put uri document).Made token := by
  obtain ⟨revision, hle, hroot⟩ := hmade
  exact ⟨revision, Nat.le_succ_of_le hle, hroot⟩

theorem Made.ne_next (hmade : store.Made token) :
    token ≠ .root (store.revision + 1) := by
  obtain ⟨revision, hle, rfl⟩ := hmade
  exact fun hsame =>
    Nat.not_succ_le_self _ (CancellationToken.root.inj hsame ▸ hle)

/-- Open documents have tokens of their own, and these are not cancelled. -/
structure Tracked (store : Store) : Prop where
  opened : ∀ {uri entry}, store.opened.get? uri = some entry →
    store.Made entry.cancel
  live : ∀ {uri entry}, store.opened.get? uri = some entry →
    entry.cancel ∉ store.cancelled
  distinct : ∀ {left right entry entry'}, store.opened.get? left = some entry →
    store.opened.get? right = some entry' → entry.cancel = entry'.cancel →
    left = right
  cancelled : ∀ token ∈ store.cancelled, store.Made token

theorem tracked_empty (config : Config) (base : Base) :
    (empty config base).Tracked where
  opened := nofun
  live := nofun
  distinct := nofun
  cancelled := nofun

namespace Tracked

variable (htracked : store.Tracked)
include htracked

theorem made_of_mem_cancelledWith (htoken : token ∈ store.cancelledWith uri) :
    store.Made token := by
  cases mem_cancelledWith.mp htoken with
  | inl hcancelled => exact htracked.cancelled token hcancelled
  | inr hopen =>
      obtain ⟨entry, hentry, rfl⟩ := Option.map_eq_some_iff.mp hopen
      exact htracked.opened hentry

theorem notMem_cancelledWith (hne : other ≠ uri)
    (hentry : store.opened.get? other = some entry) :
    entry.cancel ∉ store.cancelledWith uri := by
  intro htoken
  cases mem_cancelledWith.mp htoken with
  | inl hcancelled => exact htracked.live hentry hcancelled
  | inr hopen =>
      obtain ⟨entry', hentry', hsame⟩ := Option.map_eq_some_iff.mp hopen
      exact hne (htracked.distinct hentry hentry' hsame.symm)

theorem withFile (uri : String) : (store.withFile uri).Tracked := by
  refine ⟨?_, ?_, ?_, ?_⟩
  all_goals simp only [Made, opened_withFile, cancelled_withFile,
    revision_withFile]
  exacts [htracked.opened, htracked.live, htracked.distinct, htracked.cancelled]

theorem put (uri : String) (document : Document) :
    (store.put uri document).Tracked := by
  refine ⟨fun hentry => ?_, fun hentry => ?_, fun hleft hright hsame => ?_,
    fun token htoken => ?_⟩
  · rcases opened_put_cases hentry with ⟨-, hcancel⟩ | ⟨-, hentry⟩
    · exact ⟨_, le_rfl, hcancel⟩
    · exact (htracked.opened hentry).put uri document
  · rcases opened_put_cases hentry with ⟨-, hcancel⟩ | ⟨hne, hentry⟩
    · exact fun htoken =>
        (htracked.made_of_mem_cancelledWith htoken).ne_next hcancel
    · exact htracked.notMem_cancelledWith hne hentry
  · rcases opened_put_cases hleft with ⟨hleftUri, hleftCancel⟩ | ⟨-, hleft⟩
    · rcases opened_put_cases hright with ⟨hrightUri, -⟩ | ⟨-, hright⟩
      · exact hleftUri.trans hrightUri.symm
      · exact absurd (hsame.symm.trans hleftCancel)
          (htracked.opened hright).ne_next
    · rcases opened_put_cases hright with ⟨-, hrightCancel⟩ | ⟨-, hright⟩
      · exact absurd (hsame.trans hrightCancel) (htracked.opened hleft).ne_next
      · exact htracked.distinct hleft hright hsame
  · exact (htracked.made_of_mem_cancelledWith htoken).put uri document

theorem remove (uri : String) : (store.remove uri).Tracked where
  opened hentry := htracked.opened (opened_remove_cases hentry).2
  live hentry :=
    htracked.notMem_cancelledWith (opened_remove_cases hentry).1
      (opened_remove_cases hentry).2
  distinct hleft hright :=
    htracked.distinct (opened_remove_cases hleft).2
      (opened_remove_cases hright).2
  cancelled _ htoken := htracked.made_of_mem_cancelledWith htoken

theorem outcome (houtcome : Outcome store call after) : after.Tracked := by
  cases houtcome with
  | rejected => exact htracked
  | unreadable => exact htracked.withFile call.uri
  | opened => exact (htracked.withFile call.uri).put call.uri _
  | closed => exact htracked.remove call.uri

theorem run (calls : List Call) : (store.run calls).Tracked :=
  run_induction htracked fun _ _ _ _ houtcome hbefore =>
    hbefore.outcome houtcome

/-- Nothing cancels the token of a question but what cancels that of its
document. -/
theorem isCancelled_child (parent : CancellationToken) :
    store.isCancelled parent.child = store.isCancelled parent := by
  have hparent : store.cancelled.contains parent.child = false := by
    refine Bool.eq_false_iff.mpr fun hchild => ?_
    obtain ⟨_, -, hroot⟩ :=
      htracked.cancelled _ (List.contains_iff_mem.mp hchild)
    cases hroot
  rw [isCancelled, CancellationToken.isCancelled, hparent, Bool.false_or,
    ← isCancelled]

theorem isCancelled_iff_mem (hentry : store.opened.get? uri = some entry)
    (later : List Call) :
    (store.run later).isCancelled entry.cancel = true ↔
      entry.cancel ∈ (store.run later).cancelled := by
  obtain ⟨revision, -, hroot⟩ := htracked.opened hentry
  rw [hroot]
  exact isCancelled_root

/-- The token of an open document is cancelled by the first accepted call for
its uri. -/
theorem mem_cancelled_run (hentry : store.opened.get? uri = some entry)
    (calls : List Call) :
    entry.cancel ∈ (store.run calls).cancelled ↔ ∃ call ∈ store.accepted calls,
      call.uri = uri := by
  induction calls generalizing store with
  | nil => exact iff_of_false (htracked.live hentry) (by simp [accepted])
  | cons call rest ih =>
      have houtcome := outcome_perform store call
      by_cases hcall : store.accepts call = true ∧ call.uri = uri
      case pos =>
          obtain ⟨haccepts, rfl⟩ := hcall
          refine iff_of_true
            (mem_cancelled_run_of_mem rest
              (houtcome.mem_cancelled haccepts hentry)) ?_
          exact ⟨call, by simp [accepted, haccepts], rfl⟩
      case neg =>
          have hentry' := (houtcome.get?_opened hcall).trans hentry
          have haccepted : (∃ found ∈ store.accepted (call :: rest),
              found.uri = uri) ↔
              ∃ found ∈ (store.perform call).accepted rest,
              found.uri = uri := by
            rw [accepted]
            split
            case isTrue haccepts =>
                have hne : call.uri ≠ uri :=
                  fun hsame => hcall ⟨haccepts, hsame⟩
                simp [hne]
            case isFalse => rfl
          exact (ih (htracked.outcome houtcome) hentry').trans haccepted.symm

end Tracked

/-- The context of a snapshot is cancelled exactly if a call for its uri has
been accepted since, and the token of no open document is cancelled. -/
theorem cancelled_contextOf_iff (config : Config) (base : Base)
    (before later : List Call) {snapshot : Snapshot}
    (hsnapshot : ((empty config base).run before).snapshot uri = .ok snapshot) :
    let start := (empty config base).run before
    let store := (empty config base).run (before ++ later)
    ((store.contextOf snapshot).cancelled = true ↔
      ∃ call ∈ start.accepted later, call.uri = uri) ∧
      ∀ other entry, store.opened.get? other = some entry →
      store.isCancelled entry.cancel = false := by
  intro start store
  have htracked : start.Tracked := (tracked_empty config base).run before
  have hstore : store = start.run later := run_append _ before later
  refine ⟨?_, fun other entry hentry => ?_⟩
  · obtain ⟨entry, hentry, rfl⟩ := exists_of_snapshot hsnapshot
    rw [contextOf, snapshotOf, hstore, (htracked.run later).isCancelled_child,
      htracked.isCancelled_iff_mem hentry, htracked.mem_cancelled_run hentry]
  · have hstoreTracked : store.Tracked := hstore ▸ htracked.run later
    refine Bool.eq_false_iff.mpr fun hcancelled => hstoreTracked.live hentry ?_
    exact (hstoreTracked.isCancelled_iff_mem hentry []).mp hcancelled

/-- Neither an update of another uri nor one that comes too late cancels a
context; closing its document does. -/
theorem cancelled_contextOf_iff_closed :
    let start := empty .default .plain
    let before : List Call := [.openFile "a" 1 "", .openFile "b" 1 ""]
    let others : List Call :=
      [.snapshot "a", .update "b" 2 "x", .update "a" 0 "x"]
    let closing : List Call := others ++ [.close "a"]
    ∃ snapshot, (start.run before).snapshot "a" = .ok snapshot ∧
      ((start.run (before ++ others)).contextOf snapshot).cancelled = false ∧
      ((start.run (before ++ closing)).contextOf snapshot).cancelled =
        true := by
  intro start before others closing
  have hopen : ((start.run before).snapshot "a").toBool = true := by
    decide +kernel
  cases hsnapshot : (start.run before).snapshot "a" with
  | error failure =>
      rw [hsnapshot] at hopen
      cases hopen
  | ok snapshot =>
      have hothers :=
        (cancelled_contextOf_iff .default _ before others hsnapshot).1
      have hclosing :=
        (cancelled_contextOf_iff .default _ before closing hsnapshot).1
      have hnone : ¬∃ call ∈ (start.run before).accepted others,
          call.uri = "a" := by
        decide +kernel
      have hsome : ∃ call ∈ (start.run before).accepted closing,
          call.uri = "a" := by
        decide +kernel
      exact ⟨snapshot, rfl, Bool.eq_false_iff.mpr (mt hothers.mp hnone),
        hclosing.mpr hsome⟩

end Store

end PklAnalysis
