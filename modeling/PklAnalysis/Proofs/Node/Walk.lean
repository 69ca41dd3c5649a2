import Mathlib.Data.List.Chain
import Mathlib.Data.List.Perm.Subperm
import PklAnalysis.Node.Walk
import PklAnalysis.Proofs.Recursion

/-!
Walks end because they remember the nodes that they have seen.
-/

namespace PklAnalysis

namespace Node

variable {nodeOf : α → Node} {next? : α → Option α}

/-- One step of a walk without a limit, where `rest` walks on. -/
def walkStep (nodeOf : α → Node) (next? : α → Option α)
    (rest : List Node × α → List α) :
    List Node × α → List α := fun (seen, place) =>
  if seen.contains (nodeOf place) then []
  else
    place ::
      match next? place with
      | some next => rest (nodeOf place :: seen, next)
      | none => []

/-- Steps lead from the good places to good places only, and all of them lie at
nodes of a list. -/
structure Confined (nodeOf : α → Node) (next? : α → Option α)
    (reach : List Node) (Good : α → Prop) : Prop where
  node : ∀ place, Good place → nodeOf place ∈ reach
  next : ∀ place next, Good place → next? place = some next → Good next

variable {reach seen : List Node} {Good : α → Prop} {place : α} {limit : Nat}

theorem length_seen_le (hnodup : seen.Nodup) (hsub : seen ⊆ reach) :
    seen.length ≤ reach.length :=
  (hnodup.subperm hsub).length_le

/-- A walk among finitely many nodes does not depend on its limit, if that is
beyond them. -/
theorem Confined.unroll_walkStep (hconfined : Confined nodeOf next? reach Good)
    {fuel : Nat} (hgood : Good place) (hnodup : seen.Nodup)
    (hsub : seen ⊆ reach) (hlimit : reach.length < seen.length + limit)
    (hfuel : reach.length < seen.length + fuel)
    (stuck : List Node × α → List α) :
    unroll (walkStep nodeOf next?) stuck fuel (seen, place) =
      walk nodeOf next? limit seen place := by
  induction fuel generalizing limit seen place with
  | zero =>
      have hseen := length_seen_le hnodup hsub
      omega
  | succ fuel ih =>
      have hseen := length_seen_le hnodup hsub
      cases limit with
      | zero => omega
      | succ limit =>
          rw [unroll, walkStep, walk]
          split
          case isTrue => rfl
          case isFalse hfresh =>
              congr 1
              cases hplace : next? place with
              | none => rfl
              | some next =>
                  have hmember : nodeOf place ∉ seen := by simpa using hfresh
                  have hnodup' := List.nodup_cons.mpr ⟨hmember, hnodup⟩
                  have hsub' :=
                    List.cons_subset.mpr ⟨hconfined.node place hgood, hsub⟩
                  refine ih (hconfined.next place next hgood hplace) hnodup'
                    hsub' ?_ ?_
                  · rw [List.length_cons]
                    omega
                  · rw [List.length_cons]
                    omega

theorem Confined.endsWithin_walk (hconfined : Confined nodeOf next? reach Good)
    (hgood : Good place) (hlimit : reach.length < limit) :
    EndsWithin (walkStep nodeOf next?) limit ([], place)
      (walk nodeOf next? limit [] place) := by
  intro fuel hfuel stuck
  refine hconfined.unroll_walkStep hgood List.nodup_nil (List.nil_subset _) ?_
    ?_ stuck
  · simpa using hlimit
  · simpa using Nat.lt_of_lt_of_le hlimit hfuel

theorem nodup_walk (limit : Nat) (seen : List Node) (place : α) :
    ((walk nodeOf next? limit seen place).map nodeOf).Nodup ∧
      ∀ reached ∈ walk nodeOf next? limit seen place,
        nodeOf reached ∉ seen := by
  induction limit generalizing seen place with
  | zero => exact ⟨List.nodup_nil, nofun⟩
  | succ limit ih =>
      rw [walk]
      split
      case isTrue => exact ⟨List.nodup_nil, nofun⟩
      case isFalse hfresh =>
          have hplace : nodeOf place ∉ seen := by simpa using hfresh
          cases next? place with
          | none => exact ⟨by simp, by simpa using hplace⟩
          | some next =>
              obtain ⟨hnodup, hunseen⟩ := ih (nodeOf place :: seen) next
              refine ⟨List.nodup_cons.mpr ⟨?_, hnodup⟩, ?_⟩
              · intro hmember
                obtain ⟨reached, hreached, hsame⟩ := List.mem_map.mp hmember
                exact hunseen reached hreached (hsame ▸ List.mem_cons_self)
              · intro reached hreached
                cases List.mem_cons.mp hreached with
                | inl hhead => exact hhead ▸ hplace
                | inr htail =>
                    exact fun hseen =>
                      hunseen reached htail (List.mem_cons_of_mem _ hseen)

theorem mem_walk_self (hlimit : 0 < limit) (hfresh : nodeOf place ∉ seen) :
    place ∈ walk nodeOf next? limit seen place := by
  obtain ⟨limit, rfl⟩ := Nat.exists_eq_succ_of_ne_zero (Nat.ne_of_gt hlimit)
  rw [walk, if_neg (by simpa using hfresh)]
  exact List.mem_cons_self

theorem Confined.closed_walk_seen (hconfined : Confined nodeOf next? reach Good)
    (hgood : Good place) (hnodup : seen.Nodup) (hsub : seen ⊆ reach)
    (hlimit : reach.length < seen.length + limit) :
    ∀ reached ∈ walk nodeOf next? limit seen place, ∀ next,
      next? reached = some next →
      nodeOf next ∈ seen ∨
        nodeOf next ∈ (walk nodeOf next? limit seen place).map nodeOf := by
  induction limit generalizing seen place with
  | zero => exact nofun
  | succ limit ih =>
      rw [walk]
      split
      case isTrue => exact nofun
      case isFalse hfresh =>
          have hmember : nodeOf place ∉ seen := by simpa using hfresh
          have hnodup' := List.nodup_cons.mpr ⟨hmember, hnodup⟩
          have hsub' := List.cons_subset.mpr ⟨hconfined.node place hgood, hsub⟩
          have hlimit' :
              reach.length < (nodeOf place :: seen).length + limit := by
            rw [List.length_cons]
            omega
          -- what is in the longer list of seen nodes is in the shorter one or
          -- is the first place
          have hseen : ∀ {node rest}, node ∈ nodeOf place :: seen →
              node ∈ seen ∨ node ∈ (place :: rest).map nodeOf := by
            intro node rest hmem
            cases List.mem_cons.mp hmem with
            | inl hfirst => exact .inr (hfirst ▸ List.mem_cons_self)
            | inr hearlier => exact .inl hearlier
          cases hplace : next? place with
          | none =>
              intro reached hreached next hstep
              cases List.mem_singleton.mp hreached
              rw [hplace] at hstep
              cases hstep
          | some after =>
              have hgood' := hconfined.next place after hgood hplace
              refine List.forall_mem_cons.mpr ⟨fun next hstep => ?_,
                fun reached hreached next hstep => ?_⟩
              · obtain rfl : after = next :=
                  Option.some.inj (hplace.symm.trans hstep)
                by_cases hagain : nodeOf after ∈ nodeOf place :: seen
                case pos => exact hseen hagain
                case neg =>
                    have hlength := length_seen_le hnodup' hsub'
                    have hfirst :
                        after ∈
                          walk nodeOf next? limit (nodeOf place :: seen)
                            after :=
                      mem_walk_self (by omega) hagain
                    exact .inr (List.mem_cons_of_mem _
                      (List.mem_map_of_mem hfirst))
              · cases ih hgood' hnodup' hsub' hlimit' reached hreached next
                  hstep with
                | inl hagain => exact hseen hagain
                | inr hlater => exact .inr (List.mem_cons_of_mem _ hlater)

/-- A walk among finitely many nodes goes on until it comes to a node again. -/
theorem Confined.closed_walk (hconfined : Confined nodeOf next? reach Good)
    (hgood : Good place) (hlimit : reach.length < limit) {reached next : α}
    (hreached : reached ∈ walk nodeOf next? limit [] place)
    (hnext : next? reached = some next) :
    nodeOf next ∈ (walk nodeOf next? limit [] place).map nodeOf :=
  (hconfined.closed_walk_seen hgood List.nodup_nil (List.nil_subset _)
    (by simpa using hlimit)
    reached hreached next hnext).resolve_left List.not_mem_nil

theorem forall_mem_walk {holds : α → Prop}
    (hnext : ∀ place next, holds place → next? place = some next → holds next)
    (hplace : holds place) :
    ∀ reached ∈ walk nodeOf next? limit seen place, holds reached := by
  induction limit generalizing seen place with
  | zero => exact nofun
  | succ limit ih =>
      rw [walk]
      split
      case isTrue => exact nofun
      case isFalse =>
          refine List.forall_mem_cons.mpr ⟨hplace, ?_⟩
          cases hstep : next? place with
          | none => exact nofun
          | some next => exact ih (hnext place next hplace hstep)

theorem walk_congr {next?' : α → Option α}
    (hsame : ∀ reached ∈ walk nodeOf next? limit seen place,
      next?' reached = next? reached) :
    walk nodeOf next?' limit seen place =
      walk nodeOf next? limit seen place := by
  induction limit generalizing seen place with
  | zero => rfl
  | succ limit ih =>
      rw [walk] at hsame
      rw [walk, walk]
      split
      case isTrue => rfl
      case isFalse hfresh =>
          rw [if_neg hfresh] at hsame
          obtain ⟨hplace, hrest⟩ := List.forall_mem_cons.mp hsame
          rw [hplace]
          cases hnext : next? place with
          | none => rfl
          | some next =>
              rw [hnext] at hrest
              exact congrArg (place :: ·) (ih hrest)

theorem head?_walk (limit : Nat) (seen : List Node) (place : α) :
    ∀ first ∈ (walk nodeOf next? limit seen place).head?, first = place := by
  cases limit with
  | zero => exact nofun
  | succ limit =>
      rw [walk]
      split
      case isTrue => exact nofun
      case isFalse => exact fun first hfirst => (Option.some.inj hfirst).symm

theorem isChain_walk (limit : Nat) (seen : List Node) (place : α) :
    (walk nodeOf next? limit seen place).IsChain fun place next => next? place =
      some next := by
  induction limit generalizing seen place with
  | zero => exact List.isChain_nil
  | succ limit ih =>
      rw [walk]
      split
      case isTrue => exact List.isChain_nil
      case isFalse =>
          cases hnext : next? place with
          | none => exact List.isChain_singleton _
          | some next =>
              refine (ih _ next).cons fun first hfirst => ?_
              rw [hnext, head?_walk _ _ _ first hfirst]

/-- Places in the order in which steps lead from one to the next, up to the
first from which no step leads on or one leads to a node that has come
before. -/
structure IsTrail (nodeOf : α → Node) (next? : α → Option α) (place : α)
    (places : List α) :
    Prop where
  head : places.head? = some place
  linked : places.IsChain fun place next => next? place = some next
  nodup : (places.map nodeOf).Nodup
  ends : ∀ last ∈ places.getLast?, ∀ next, next? last = some next →
    nodeOf next ∈ places.map nodeOf

theorem Confined.isTrail_walk (hconfined : Confined nodeOf next? reach Good)
    (hgood : Good place) (hlimit : reach.length < limit) :
    IsTrail nodeOf next? place (walk nodeOf next? limit [] place) where
  head := by
    have hself : place ∈ walk nodeOf next? limit [] place :=
      mem_walk_self (Nat.zero_lt_of_lt hlimit) List.not_mem_nil
    obtain ⟨first, hfirst⟩ := Option.isSome_iff_exists.mp
      (List.isSome_head?.mpr (List.ne_nil_of_mem hself))
    rw [hfirst, head?_walk limit [] place first hfirst]
  linked := isChain_walk limit [] place
  nodup := (nodup_walk limit [] place).1
  ends := fun _ hlast _ hstep =>
    hconfined.closed_walk hgood hlimit (List.mem_of_getLast? hlast) hstep

end Node

end PklAnalysis
