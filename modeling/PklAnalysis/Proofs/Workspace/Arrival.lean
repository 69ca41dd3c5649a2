import PklAnalysis.Proofs.Workspace.Coherence

/-!
Updates of one uri arrive in any order. As long as their versions differ, what
is open in the end is the update with the highest version, or what was open
before if that has a higher one.
-/

namespace PklAnalysis

namespace Store

variable {store : Store} {uri : String} {call : Call} {calls : List Call}
  {opened : Option (Int × String)} {update latest : Int × String}
  {updates : List (Int × String)}

def arrival? (uri : String) (call : Call) : Option (Int × String) :=
  if call.uri = uri then call.contents? else none

def arrivals (uri : String) (calls : List Call) : List (Int × String) :=
  calls.filterMap (arrival? uri)

/-- What is open once an update has arrived: the update, unless its version is
lower. -/
def supersede (opened : Option (Int × String)) (update : Int × String) :
    Option (Int × String) :=
  if opened.any fun current => update.1 < current.1 then opened else some update

@[simp] theorem supersede_none : supersede none update = some update :=
  rfl

@[simp] theorem supersede_some (current update : Int × String) :
    supersede (some current) update = if update.1 < current.1 then some current
      else some update := by
  simp [supersede]

theorem isStale_eq_any_contents? (version : Int) : store.isStale uri version =
    (store.contents? uri).any fun current => version < current.1 := by
  rw [isStale, contents?, Option.any_map]

theorem contents?_perform_of_arrival?_eq_none
    (harrival : arrival? uri call = none) (hclose : call ≠ .close uri) :
    (store.perform call).contents? uri = store.contents? uri := by
  rw [(outcome_perform store call).contents?_eq, ite_eq_right_iff]
  rintro ⟨haccepts, rfl⟩
  rw [arrival?, if_pos rfl] at harrival
  -- a call of the uri that brings no update closes it or is not accepted
  cases call with
  | openFile | update => cases harrival
  | close => exact absurd rfl hclose
  | snapshot => cases haccepts

theorem contents?_perform_of_arrival?_eq_some
    (harrival : arrival? uri call = some update)
    (hreadable : isReadable update.2 = true) :
    (store.perform call).contents? uri =
      supersede (store.contents? uri) update := by
  obtain ⟨hsame, hcontents⟩ := (Option.ite_none_right_eq_some).mp harrival
  have haccepts : store.accepts call = !store.isStale uri update.1 := by
    subst hsame
    cases call with
    | openFile | update =>
        cases hcontents
        rw [accepts, hreadable, Bool.and_true, Call.uri]
    | close | snapshot => cases hcontents
  rw [(outcome_perform store call).contents?_eq, haccepts,
    isStale_eq_any_contents?, hcontents, supersede]
  cases (store.contents? uri).any fun current => update.1 < current.1 <;>
    simp [hsame]

theorem contents?_run_eq_foldl (hclose : Call.close uri ∉ calls)
    (hreadable : ∀ update ∈ arrivals uri calls, isReadable update.2 = true) :
    (store.run calls).contents? uri =
      (arrivals uri calls).foldl supersede (store.contents? uri) := by
  induction calls generalizing store with
  | nil => rfl
  | cons call rest ih =>
      obtain ⟨hne, hclose⟩ := List.ne_and_not_mem_of_not_mem_cons hclose
      rw [run, List.foldl_cons, ← run]
      cases harrival : arrival? uri call with
      | none =>
          rw [arrivals, List.filterMap_cons_none harrival] at hreadable ⊢
          rw [ih hclose hreadable,
            contents?_perform_of_arrival?_eq_none harrival hne.symm, arrivals]
      | some update =>
          rw [arrivals, List.filterMap_cons_some harrival] at hreadable ⊢
          obtain ⟨hfirst, hrest⟩ := List.forall_mem_cons.mp hreadable
          rw [ih hclose hrest,
            contents?_perform_of_arrival?_eq_some harrival hfirst,
            List.foldl_cons, arrivals]

/-- What is the latest of some updates and of what is open. An update with the
version of what is open is later. -/
def IsLatest (opened : Option (Int × String)) (updates : List (Int × String))
    (latest : Int × String) : Prop :=
  (latest ∈ updates ∧ (∀ update ∈ updates, update.1 ≤ latest.1) ∧
      ∀ current, opened = some current → current.1 ≤ latest.1) ∨
    (opened = some latest ∧ ∀ update ∈ updates, update.1 < latest.1)

theorem foldl_supersede_eq_some_iff (hdistinct : (updates.map Prod.fst).Nodup) :
    updates.foldl supersede opened = some latest ↔
      IsLatest opened updates latest := by
  induction updates generalizing opened with
  | nil => simp [IsLatest]
  | cons update rest ih =>
      obtain ⟨hfresh, hdistinct⟩ := List.nodup_cons.mp hdistinct
      have hne : ∀ other ∈ rest, other.1 ≠ update.1 :=
        fun other hother hsame => hfresh (hsame ▸ List.mem_map_of_mem hother)
      rw [List.foldl_cons, ih hdistinct, IsLatest, IsLatest]
      cases opened with
      | none => grind [supersede_none]
      | some current => grind [supersede_some]

theorem IsLatest.of_perm {updates' : List (Int × String)}
    (hlatest : IsLatest opened updates latest) (hperm : updates.Perm updates') :
    IsLatest opened updates' latest := by
  simpa only [IsLatest, hperm.mem_iff] using hlatest

/-- Whatever is open, and whatever a client does with other uris meanwhile: when
updates of a uri with distinct versions have arrived, in whatever order, what is
open is the same, namely the latest of them and of what was open before. -/
theorem contents?_run_perm (store : Store) (uri : String)
    (updates : List (Int × String)) (hdistinct : (updates.map Prod.fst).Nodup)
    (hreadable : ∀ update ∈ updates, isReadable update.2 = true)
    (calls : List Call) (hclose : Call.close uri ∉ calls)
    (harrivals : (arrivals uri calls).Perm updates) :
    (∀ latest, (store.run calls).contents? uri = some latest ↔
      IsLatest (store.contents? uri) updates latest) ∧
    ∀ others, Call.close uri ∉ others → (arrivals uri others).Perm updates →
      (store.run others).contents? uri = (store.run calls).contents? uri := by
  have hrun : ∀ calls,
      Call.close uri ∉ calls → (arrivals uri calls).Perm updates → ∀ latest,
      (store.run calls).contents? uri = some latest ↔
        IsLatest (store.contents? uri) updates latest := by
    intro calls hclose harrivals latest
    have hread : ∀ update ∈ arrivals uri calls, isReadable update.2 = true :=
      fun update hupdate => hreadable update (harrivals.mem_iff.mp hupdate)
    have hdistinct : ((arrivals uri calls).map Prod.fst).Nodup :=
      (harrivals.map Prod.fst).nodup_iff.mpr hdistinct
    rw [contents?_run_eq_foldl hclose hread,
      foldl_supersede_eq_some_iff hdistinct]
    exact ⟨fun hlatest => hlatest.of_perm harrivals,
      fun hlatest => hlatest.of_perm harrivals.symm⟩
  refine ⟨hrun calls hclose harrivals,
    fun others hothers harrive => Option.ext fun latest => ?_⟩
  rw [hrun others hothers harrive, hrun calls hclose harrivals]

/-- Version 2 is open, and three updates arrive, one of them with that version
and one too late. -/
theorem contents?_run_perm_interleaved :
    let base : Base := .plain
    let store := (empty .default base).run [.openFile "a" 2 "x"]
    let calls : List Call :=
      [.update "a" 3 "z", .openFile "b" 9 "", .update "a" 1 "w", .snapshot "a",
        .update "a" 2 "y"]
    let others : List Call :=
      [.update "a" 2 "y", .update "a" 1 "w", .openFile "a" 3 "z"]
    let updates := [(1, "w"), (2, "y"), (3, "z")]
    (updates.map Prod.fst).Nodup ∧
      (∀ update ∈ updates, isReadable update.2 = true) ∧
      Call.close "a" ∉ calls ∧ (arrivals "a" calls).Perm updates ∧
      (store.run calls).contents? "a" = some (3, "z") ∧
      (store.run others).contents? "a" = some (3, "z") := by
  intro base store calls others updates
  have hdistinct : (updates.map Prod.fst).Nodup := by decide
  have hreadable : ∀ update ∈ updates, isReadable update.2 = true := by
    decide +kernel
  have hclose : Call.close "a" ∉ calls := by decide
  have harrivals : (arrivals "a" calls).Perm updates := by decide
  obtain ⟨hlatest, hsame⟩ :=
    contents?_run_perm store "a" updates hdistinct hreadable calls hclose
      harrivals
  have hopened : store.contents? "a" = some (2, "x") := by decide +kernel
  have hcalls : (store.run calls).contents? "a" = some (3, "z") := by
    rw [hlatest, IsLatest, hopened]
    decide
  refine ⟨hdistinct, hreadable, hclose, harrivals, hcalls, ?_⟩
  rw [hsame others (by decide) (by decide), hcalls]

end Store

end PklAnalysis
