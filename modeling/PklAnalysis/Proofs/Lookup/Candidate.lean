import PklAnalysis.Lookup.Candidate

/-!
What the strategies of lookup have in common. A visitor that stops loses only
the candidates behind the one it stops at, so a walk through groups is one
through all candidates in order. In that order the three strategies agree, name
by name, on the nearest candidate.
-/

namespace PklAnalysis

namespace Visitor

variable {Found : Type}

theorem offerAll_append (visitor : Visitor Found) (found : Found)
    (front back : List Candidate) :
    visitor.offerAll found (front ++ back) =
      match visitor.offerAll found front with
      | (found, true) => visitor.offerAll found back
      | (found, false) => (found, false) := by
  induction front generalizing found with
  | nil => rfl
  | cons candidate rest ih =>
      rw [List.cons_append, offerAll, offerAll]
      rcases visitor found candidate with ⟨next, _ | _⟩
      · rfl
      · exact ih next

theorem offerAll_preserves {visitor : Visitor Found} {Invariant : Found → Prop}
    (hstep : ∀ found candidate,
      Invariant found → Invariant (visitor found candidate).1)
    {found : Found} (hfound : Invariant found) (candidates : List Candidate) :
    Invariant (visitor.offerAll found candidates).1 := by
  induction candidates generalizing found with
  | nil => exact hfound
  | cons candidate rest ih =>
      have hnext := hstep found candidate hfound
      rw [offerAll]
      rcases hvisit : visitor found candidate with ⟨next, _ | _⟩
      · rw [hvisit] at hnext
        exact hnext
      · rw [hvisit] at hnext
        exact ih hnext

theorem offerAll_firstNamed (name : String) (candidates : List Candidate) :
    ((firstNamed name).offerAll none candidates).1 =
      candidates.find? (fun candidate => candidate.name = name) := by
  induction candidates with
  | nil => rfl
  | cons candidate rest ih =>
      rw [offerAll, firstNamed]
      by_cases hname : candidate.name = name
      · simp only [hname, if_true, decide_true, List.find?_cons_of_pos]
      · simp only [hname, if_false, decide_false, Bool.false_eq_true,
          not_false_eq_true, List.find?_cons_of_neg]
        exact ih

/-! Visitors that never stop. Under a name they keep the first candidate that
they are offered. -/

structure KeepsNearest (visitor : Visitor Found) (name : String)
    (kept? : Found → Option Candidate) : Prop where
  goesOn : ∀ found candidate, (visitor found candidate).2 = true
  step : ∀ found candidate,
    kept? (visitor found candidate).1 =
      (kept? found).or (if candidate.name = name then some candidate else none)

theorem KeepsNearest.offerAll {visitor : Visitor Found} {name : String}
    {kept? : Found → Option Candidate}
    (hvisitor : KeepsNearest visitor name kept?) (found : Found)
    (candidates : List Candidate) :
    kept? (visitor.offerAll found candidates).1 =
      (kept? found).or
        (candidates.find? (fun candidate => candidate.name = name)) := by
  induction candidates generalizing found with
  | nil => exact (Option.or_none).symm
  | cons candidate rest ih =>
      have hgoesOn := hvisitor.goesOn found candidate
      have hstep := hvisitor.step found candidate
      rw [Visitor.offerAll]
      rcases hvisit : visitor found candidate with ⟨next, more⟩
      rw [hvisit] at hgoesOn hstep
      obtain rfl : more = true := hgoesOn
      calc
        kept? (visitor.offerAll next rest).1
            = (kept? next).or (rest.find? fun other => other.name = name) :=
            ih next
        _ =
          (kept? found).or
            ((if candidate.name = name then some candidate else none).or
              (rest.find? fun other => other.name = name)) := by
            rw [hstep, Option.or_assoc]
        _ = (kept? found).or ((candidate :: rest).find? fun other =>
          other.name = name) := by
            by_cases hname : candidate.name = name
            · simp [hname]
            · simp [hname]

theorem keepsNearest_elementsNamed (name : String) :
    KeepsNearest (elementsNamed name) name List.head? where
  goesOn := by
    intro found candidate
    unfold elementsNamed
    split <;> rfl
  step := by
    intro found candidate
    unfold elementsNamed
    cases found with
    | nil =>
        by_cases hname : candidate.name = name
        · simp [hname]
        · simp [hname]
    | cons nearest rest =>
        split <;> rfl

theorem keepsNearest_collectAll (name : String) :
    KeepsNearest collectAll name
      (fun found => found.find? (fun candidate => candidate.name = name)) where
  goesOn := by
    intro found candidate
    unfold collectAll
    split <;> rfl
  step := by
    intro found candidate
    unfold collectAll
    split
    next hknown =>
      by_cases hname : candidate.name = name
      · have hsome : (found.find? fun other => other.name = name).isSome =
            true := by
          rw [List.find?_isSome]
          simpa [hname] using hknown
        obtain ⟨nearest, hnearest⟩ := Option.isSome_iff_exists.mp hsome
        rw [hnearest, Option.some_or]
      · rw [if_neg hname, Option.or_none]
    next hnew =>
      rw [List.find?_append]
      by_cases hname : candidate.name = name
      · simp [hname]
      · simp [hname]

theorem nodup_collectAll (found : List Candidate) (candidate : Candidate)
    (hfound : (found.map Candidate.name).Nodup) :
    ((collectAll found candidate).1.map Candidate.name).Nodup := by
  unfold collectAll
  split
  next hknown => exact hfound
  next hnew =>
    rw [List.map_append, List.nodup_append]
    refine ⟨hfound, List.pairwise_singleton _ _, ?_⟩
    intro name hname other hother hsame
    obtain ⟨earlier, hearlier, rfl⟩ := List.mem_map.mp hname
    obtain rfl : other = candidate.name := by simpa using hother
    exact hnew (List.any_eq_true.mpr ⟨earlier, hearlier, decide_eq_true hsame⟩)

/-- Dropping a node that comes again loses nothing to a search for something
that depends on the node alone. -/
theorem findSome?_elementsNamed {Result : Type} (name : String)
    {wanted : Node → Bool} {result : Candidate → Option Result}
    (hresult : ∀ candidate, (result candidate).isSome = wanted candidate.node)
    (found candidates : List Candidate) :
    ((elementsNamed name).offerAll found candidates).1.findSome? result =
      (found.findSome? result).or
        ((candidates.find? fun candidate => candidate.name = name &&
          wanted candidate.node).bind
          result) := by
  induction candidates generalizing found with
  | nil => exact Option.or_none.symm
  | cons candidate rest ih =>
      have hgoesOn := (keepsNearest_elementsNamed name).goesOn found candidate
      rw [offerAll]
      rcases hvisit : elementsNamed name found candidate with ⟨next, more⟩
      rw [hvisit] at hgoesOn
      obtain rfl : more = true := hgoesOn
      dsimp only
      rw [ih, List.find?_cons]
      rw [elementsNamed] at hvisit
      split at hvisit
      case isTrue hnew =>
          obtain ⟨rfl, -⟩ := Prod.mk.inj hvisit
          rw [Bool.and_eq_true, decide_eq_true_eq] at hnew
          rw [List.findSome?_append, Option.or_assoc, decide_eq_true hnew.1,
            Bool.true_and, ← hresult candidate]
          cases hhere : result candidate with
          | none => simp [hhere]
          | some value => simp [hhere]
      case isFalse hold =>
          obtain ⟨rfl, -⟩ := Prod.mk.inj hvisit
          by_cases hname : candidate.name = name
          case neg => rw [decide_eq_false hname, Bool.false_and]
          case pos =>
              rw [decide_eq_true hname, Bool.true_and, ← hresult candidate]
              cases hhere : (result candidate).isSome with
              | false => rfl
              | true =>
                  -- the node is already there, and has been searched
                  obtain ⟨other, hother, hnode⟩ : ∃ other ∈ found,
                    other.node = candidate.node := by
                    simpa [hname] using hold
                  have hsome : (found.findSome? result).isSome = true := by
                    rw [List.findSome?_isSome_iff]
                    exact ⟨other,
                      hother, by rw [hresult, hnode, ← hresult, hhere]⟩
                  obtain ⟨value, hvalue⟩ := Option.isSome_iff_exists.mp hsome
                  rw [hvalue, Option.some_or, Option.some_or]

end Visitor

namespace Candidates

theorem toList_append (front back : Candidates) :
    toList (front ++ back) = front.toList ++ back.toList :=
  List.flatMap_append

theorem walk_eq_offerAll {Found : Type} (visitor : Visitor Found)
    (found : Found) (candidates : Candidates) :
    walk visitor found candidates =
      visitor.offerAll found candidates.toList := by
  induction candidates generalizing found with
  | nil => rfl
  | cons group rest ih =>
      have hlist : toList (group :: rest) = group () ++ toList rest :=
        List.flatMap_cons
      rw [walk, hlist, Visitor.offerAll_append]
      rcases visitor.offerAll found (group ()) with ⟨next, _ | _⟩
      · rfl
      · exact ih next

variable (candidates : Candidates) (name : String)

theorem first?_eq_find? :
    candidates.first? name =
      candidates.toList.find? (fun candidate => candidate.name = name) := by
  rw [first?, walk_eq_offerAll]
  exact Visitor.offerAll_firstNamed name _

theorem head?_named :
    (candidates.named name).head? = candidates.first? name := by
  rw [named, walk_eq_offerAll, first?_eq_find?]
  exact (Visitor.keepsNearest_elementsNamed name).offerAll [] _

theorem findSome?_named {Result : Type} {wanted : Node → Bool}
    {result : Candidate → Option Result}
    (hresult : ∀ candidate, (result candidate).isSome = wanted candidate.node) :
    (candidates.named name).findSome? result =
      (candidates.toList.find? fun candidate => candidate.name = name &&
        wanted candidate.node).bind
        result := by
  rw [named, walk_eq_offerAll, Visitor.findSome?_elementsNamed name hresult]
  exact Option.none_or

theorem find?_collect :
    candidates.collect.find? (fun candidate => candidate.name = name) =
      candidates.first? name := by
  rw [collect, walk_eq_offerAll, first?_eq_find?]
  exact (Visitor.keepsNearest_collectAll name).offerAll [] _

theorem named_eq_nil_iff :
    candidates.named name = [] ↔ candidates.first? name = none := by
  rw [← head?_named, List.head?_eq_none_iff]

theorem mem_collect_iff :
    name ∈ candidates.collect.map Candidate.name ↔
      (candidates.first? name).isSome = true := by
  rw [← find?_collect, List.find?_isSome]
  simp [List.mem_map]

theorem nodup_collect : (candidates.collect.map Candidate.name).Nodup := by
  have hempty : (([] : List Candidate).map Candidate.name).Nodup :=
    List.nodup_nil
  rw [collect, walk_eq_offerAll]
  exact Visitor.offerAll_preserves Visitor.nodup_collectAll hempty _

end Candidates

end PklAnalysis
