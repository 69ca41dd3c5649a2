import PklAnalysis.Editor.Completion
import PklAnalysis.Proofs.Lookup.Candidate

/-!
What is suggested at the cursor is what lookup finds there: one suggestion for
each name that can be typed as a word, for the property of that name, or for the
method where there is no property.
-/

namespace PklAnalysis.Completion

open Lookup

variable (candidates : Space → Candidates)

/-- The nearest candidate of a name, where properties come before methods. -/
def nearest? (name : String) : Option Candidate :=
  ((candidates .property).first? name).or ((candidates .method).first? name)

theorem find?_unshadowed {properties : List Candidate} {name : String}
    (hproperties : (properties.find? fun candidate => candidate.name = name) =
      none)
    (methods : List Candidate) :
    ((methods.filter fun method => properties.all fun property =>
      property.name ≠ method.name).find?
        fun candidate => candidate.name = name) =
      methods.find? fun candidate => candidate.name = name := by
  rw [List.find?_filter]
  congr 1
  funext method
  by_cases hname : method.name = name
  · have hall : (properties.all fun property => property.name ≠ method.name) =
        true := by
      rw [List.all_eq_true]
      intro property hproperty
      have hother := List.find?_eq_none.mp hproperties property hproperty
      simpa [hname] using hother
    simp only [hall, true_and, Bool.decide_eq_true]
  · simp [hname]

theorem find?_both (name : String) :
    ((both candidates).find? fun candidate => candidate.name = name) =
      nearest? candidates name := by
  have hproperty := Candidates.find?_collect (candidates .property) name
  have hmethod := Candidates.find?_collect (candidates .method) name
  rw [both, List.find?_append, nearest?, hproperty, ← hmethod]
  cases hfirst : (candidates .property).first? name with
  | some property => rfl
  | none =>
      rw [hfirst] at hproperty
      rw [Option.none_or, Option.none_or, find?_unshadowed hproperty]

theorem nodup_both : ((both candidates).map Candidate.name).Nodup := by
  rw [both, List.map_append, List.nodup_append]
  refine ⟨Candidates.nodup_collect _, ?_, ?_⟩
  · exact (Candidates.nodup_collect (candidates .method)).sublist
      (List.filter_sublist.map _)
  · intro name hname other hother hsame
    obtain ⟨property, hproperty, rfl⟩ := List.mem_map.mp hname
    obtain ⟨method, hmethod, rfl⟩ := List.mem_map.mp hother
    have hunshadowed :=
      List.all_eq_true.mp (List.mem_filter.mp hmethod).2 property hproperty
    exact of_decide_eq_true hunshadowed hsame

variable (context : Context) (document : Document) (offset : Nat)

/-- What a lookup at an offset goes through: the members of the receiver before
a dot, or else what is in scope at the node there. -/
def offeredAt (space : Space) : Candidates :=
  match Word.memberDot? document.text offset with
  | some dot =>
      match receiverAt? document dot with
      | some receiver =>
          typeMembers context (context.budget - 1) space
            ((context.exprType [] receiver).nonNull context.base)
      | none => []
  | none =>
      match document.root.at? offset with
      | some node => unqualified context (receivers context) space [] node
      | none => []

/-- An unknown type has no members, so nothing is lost where the receiver is not
known. -/
theorem members_eq_both (dot : Nat) :
    members context document dot =
      both fun space =>
        match receiverAt? document dot with
        | some receiver =>
            typeMembers context (context.budget - 1) space
              ((context.exprType [] receiver).nonNull context.base)
        | none => [] := by
  rw [members]
  cases receiverAt? document dot with
  | none => rfl
  | some receiver =>
      generalize htype :
        (context.exprType [] receiver).nonNull context.base = type
      cases type <;> simp only [htype] <;> rfl

def suggested : List Candidate :=
  (both (offeredAt context document offset)).filter fun candidate =>
    isWord candidate.name

theorem listAt_eq :
    listAt context document offset =
      (suggested context document offset).zipIdx.map fun (candidate, index) =>
        ofCandidate context candidate index := by
  have hfound : both (offeredAt context document offset) =
      match Word.memberDot? document.text offset with
      | some dot => members context document dot
      | none => visible context document offset := by
    unfold offeredAt
    cases Word.memberDot? document.text offset with
    | some dot => exact (members_eq_both context document dot).symm
    | none =>
        rw [visible]
        cases document.root.at? offset with
        | some node => rfl
        | none => rfl
  rw [suggested, hfound]
  rfl

theorem map_label_listAt :
    (listAt context document offset).map Completion.label =
      (suggested context document offset).map Candidate.name := by
  calc
    (listAt context document offset).map Completion.label
        =
          (suggested context document offset).zipIdx.map
            (Candidate.name ∘ Prod.fst) := by
          rw [listAt_eq, List.map_map]
          rfl
    _ = (suggested context document offset).map Candidate.name := by
          rw [← List.map_map, List.zipIdx_map_fst]

theorem find?_suggested (name : String) :
    ((suggested context document offset).find? fun candidate =>
      candidate.name = name) =
      if isWord name then nearest? (offeredAt context document offset) name else
        none := by
  rw [suggested, List.find?_filter]
  split
  next hword =>
    rw [← find?_both]
    congr 1
    funext candidate
    by_cases hname : candidate.name = name
    · simp [hname, hword]
    · simp [hname]
  next hword =>
    rw [List.find?_eq_none]
    intro candidate _ hcandidate
    obtain ⟨hword', hname⟩ := of_decide_eq_true hcandidate
    rw [of_decide_eq_true hname] at hword'
    exact hword hword'

/-- The suggestion of a name is the nearest candidate, at some place in the
order. -/
theorem find?_listAt (name : String) :
    ∃ priority,
      ((listAt context document offset).find? fun item => item.label = name) =
        ((suggested context document offset).find? fun candidate =>
          candidate.name = name).map
          fun candidate => ofCandidate context candidate priority := by
  have hfirst :
      (suggested context document offset).find? (fun candidate =>
        candidate.name = name) =
      ((suggested context document offset).zipIdx.find? fun pair =>
        pair.1.name = name).map
        Prod.fst := by
    have hmap := List.zipIdx_map_fst 0 (suggested context document offset)
    calc
      _ = ((suggested context document offset).zipIdx.map Prod.fst).find?
            fun candidate => candidate.name = name := by rw [hmap]
      _ = _ := List.find?_map
  have hitem :
      ((listAt context document offset).find? fun item => item.label = name) =
      ((suggested context document offset).zipIdx.find? fun pair =>
        pair.1.name = name).map
        fun (candidate, index) => ofCandidate context candidate index := by
    rw [listAt_eq, List.find?_map]
    rfl
  rw [hfirst, hitem]
  cases (suggested context document offset).zipIdx.find? fun pair =>
    pair.1.name = name with
  | none => exact ⟨0, rfl⟩
  | some pair => exact ⟨pair.2, rfl⟩

theorem mem_suggested_iff (name : String) :
    name ∈ (suggested context document offset).map Candidate.name ↔
      isWord name = true ∧
        (nearest? (offeredAt context document offset) name).isSome = true := by
  have hfind := find?_suggested context document offset name
  have hmem : name ∈ (suggested context document offset).map Candidate.name ↔
      ((suggested context document offset).find?
        fun candidate => candidate.name = name).isSome = true := by
    rw [List.find?_isSome, List.mem_map]
    simp only [decide_eq_true_eq]
  rw [hmem, hfind]
  split
  next hword => exact (and_iff_right hword).symm
  next hword => simp [hword]

/-- Whatever an access may refer to: what is found by the first match is the
head of all matches and the entry of its name among all names, and these are
missing together. Suggestions have one entry for each word that is found as a
property or a method, and properties come first. -/
theorem lookups_agree (context : Context) :
    (∀ (receiver? : Option Ty) (bindings : Ty.Bindings) (node : Node)
      (name : String),
      let found := context.candidates receiver? bindings node
      (found.named name).head? = found.first? name ∧
        (found.collect.find? fun candidate => candidate.name = name) =
          found.first? name ∧
        (found.named name = [] ↔ found.first? name = none) ∧
        (name ∈ found.collect.map Candidate.name ↔
          (found.first? name).isSome = true) ∧
        (found.collect.map Candidate.name).Nodup) ∧
      ∀ (document : Document) (offset : Nat),
        let offered := offeredAt context document offset
        let items := listAt context document offset
        (items.map Completion.label).Nodup ∧
          ∀ name : String,
            (name ∈ items.map Completion.label ↔
              isWord name = true ∧
                (((offered .property).first? name).isSome = true ∨
                  ((offered .method).first? name).isSome = true)) ∧
            ∃ priority,
              (items.find? fun item => item.label = name) =
                (if isWord name then
                  ((offered .property).first? name).or
                    ((offered .method).first? name)
                else none).map fun candidate => ofCandidate context candidate
                  priority := by
  constructor
  · intro receiver? bindings node name
    exact ⟨Candidates.head?_named _ name, Candidates.find?_collect _ name,
      Candidates.named_eq_nil_iff _ name, Candidates.mem_collect_iff _ name,
      Candidates.nodup_collect _⟩
  · intro document offset
    refine ⟨?_, fun name => ⟨?_, ?_⟩⟩
    · rw [map_label_listAt]
      exact (nodup_both _).sublist (List.filter_sublist.map _)
    · rw [map_label_listAt, mem_suggested_iff, nearest?, Option.isSome_or,
        Bool.or_eq_true]
    · obtain ⟨priority, hitem⟩ := find?_listAt context document offset name
      rw [find?_suggested] at hitem
      exact ⟨priority, hitem⟩

end PklAnalysis.Completion
