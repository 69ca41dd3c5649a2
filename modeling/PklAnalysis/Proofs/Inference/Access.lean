import PklAnalysis.Proofs.Inference.Formed

/-!
The type of an access is the type of what it refers to. Inference looks for the
member in the type that it has for the receiver, one level deeper than a lookup
does, which asks for that type itself; where depth does not run out, both find
the same declaration.
-/

namespace PklAnalysis

def Node.isNullSafeAccess (access : Node) : Bool :=
  access.kind = .qualifiedAccessExpr && access.isNullSafe

/-- Whether the receiver of a null-safe access to a member has exactly the type
`Null`. -/
def Context.isOnNull (context : Context) (access : Node) : Bool :=
  access.isNullSafeAccess && (Lookup.accessName? access).isSome &&
    access.receiver.toOption.any fun receiver =>
      (context.exprType [] receiver).isNull context.base

namespace Inference

open Lookup Ty

/-- One more level of depth makes no difference to the answer to a question.
This is so wherever depth does not run out on the way to the answer. -/
def Enough {Answer : Type} (context : Context) (budget : Nat)
    (question : Answers → Answer) : Prop :=
  question (answers context (budget + 1)) = question (answers context budget)

instance {Answer : Type} [DecidableEq Answer] (context : Context) (budget : Nat)
    (question : Answers → Answer) :
    Decidable (Enough context budget question) :=
  inferInstanceAs (Decidable (_ = _))

theorem isAccess_iff {kind : Node.Kind} : kind.isAccess = true ↔
    kind = .unqualifiedAccessExpr ∨ kind = .qualifiedAccessExpr ∨
      kind = .superAccessExpr := by
  cases kind <;> decide

variable {context : Context} {access receiver : Node} {name : String}
  {space : Space}

theorem candidates_of_qualified (hkind : access.kind = .qualifiedAccessExpr)
    (hname : accessName? access = some (name, space))
    (hreceiver : access.receiver = .ok receiver) (receiver? : Option Ty) :
    context.candidates receiver? [] access =
      if context.cancelled then []
      else typeMembers context (context.maxDepth - 1) space
        ((receiver?.getD
          ((answers context context.maxDepth).exprType [] receiver)).nonNull
          context.base) := by
  rw [context.candidates_eq, candidates, hname]
  cases context.cancelled with
  | true => rfl
  | false =>
      simp only [hkind, hreceiver, Except.toOption, Option.map_some,
        Bool.false_eq_true, if_false]
      cases receiver? <;> rfl

theorem resolve?_of_accessName?
    (hname : accessName? access = some (name, space)) :
    context.resolve? access =
      (context.candidates none [] access).first? name := by
  rw [Context.resolve?, hname]
  rfl

theorem resolve?_of_no_name (hname : accessName? access = none) :
    context.resolve? access = none := by
  rw [Context.resolve?, hname]
  rfl

theorem nonNull_of_isNull {base : Base} {ty : Ty}
    (hnull : ty.isNull base = true) :
    ty.nonNull base = .nothing := by
  cases ty with
  | classType => exact if_pos hnull
  | _ => cases hnull

theorem resolve?_of_no_receiver (hkind : access.kind = .qualifiedAccessExpr)
    (hname : accessName? access = some (name, space))
    (hreceiver : access.receiver.toOption = none) :
    context.resolve? access = none := by
  rw [resolve?_of_accessName? hname, context.candidates_eq, candidates, hname]
  cases context.cancelled with
  | true => rfl
  | false =>
      simp only [hkind, hreceiver, Option.map_none, Option.or_none]
      rfl

theorem resolve?_of_isNull (hkind : access.kind = .qualifiedAccessExpr)
    (hname : accessName? access = some (name, space))
    (hreceiver : access.receiver = .ok receiver)
    (hnull :
    ((answers context context.maxDepth).exprType [] receiver).isNull
      context.base = true) :
    context.resolve? access = none := by
  rw [resolve?_of_accessName? hname,
    candidates_of_qualified hkind hname hreceiver, Option.getD_none,
    nonNull_of_isNull hnull]
  split <;> rfl

theorem nullable_unknown (base : Base) :
    Ty.unknown.nullable base = .unknown := rfl

/-- With enough depth the type of an access is what the answers of the same
depth make of it. -/
theorem exprType_eq_accessType (haccess : access.kind.isAccess = true)
    (henough : Enough context context.budget fun answers =>
      answers.exprType [] access) :
    context.exprType [] access = accessType context context.answers
      [] access := by
  have hdeeper : exprType context context.answers context.budget [] access =
      context.exprType [] access := henough
  rw [← hdeeper, exprType]
  rcases isAccess_iff.mp haccess with hkind | hkind | hkind <;> rw [hkind]

theorem memberType_of_candidates
    (hname : accessName? access = some (name, space)) {receiver? : Option Ty}
    (hsame : context.candidates receiver? [] access =
      context.candidates none [] access) :
    memberType context.answers name receiver? [] access =
      foundType context.answers (context.resolve? access) := by
  rw [resolve?_of_accessName? hname, ← hsame]
  rfl

theorem accessType_eq (hname : accessName? access = some (name, space))
    (henough : ∀ receiver, access.kind = .qualifiedAccessExpr →
      access.receiver = .ok receiver →
        Enough context context.maxDepth fun answers =>
          answers.exprType [] receiver) :
    accessType context context.answers [] access =
      if context.isOnNull access then context.base.type "Null"
      else if access.isNullSafeAccess then
        (foundType context.answers (context.resolve? access)).nullable
          context.base
      else foundType context.answers (context.resolve? access) := by
  rw [accessType, hname, Context.isOnNull, hname, Node.isNullSafeAccess]
  by_cases hkind : access.kind = .qualifiedAccessExpr
  case neg =>
      simp only [hkind, if_false, decide_false, Bool.false_and,
        Bool.false_eq_true]
      exact memberType_of_candidates hname rfl
  case pos =>
      cases hreceiver : access.receiver with
      | error missing =>
          have hnone : access.receiver.toOption = none := by rw [hreceiver]; rfl
          rw [resolve?_of_no_receiver hkind hname hnone]
          simp [hkind, Except.toOption, foundType, nullable_unknown]
      | ok receiver =>
          have hdeeper : context.answers.exprType [] receiver =
              (answers context context.maxDepth).exprType [] receiver :=
              henough receiver hkind hreceiver
          have hnormal :
              ((answers context context.maxDepth).exprType []
                receiver).Normal :=
            ((formed_answers context context.maxDepth).exprType .nil
              receiver).normal
          -- with or without its null, the receiver has the same members
          have hmember : ∀ ty : Ty, ty.nonNull context.base =
              ((answers context context.maxDepth).exprType []
                receiver).nonNull context.base →
              memberType context.answers name ty [] access =
                foundType context.answers (context.resolve? access) :=
                fun ty hty => by
            refine memberType_of_candidates hname ?_
            rw [candidates_of_qualified hkind hname hreceiver,
              candidates_of_qualified hkind hname hreceiver, Option.getD_some,
              Option.getD_none, hty]
          simp only [hkind, if_true, decide_true, Bool.true_and,
            Option.isSome_some, Bool.and_true, Except.toOption, Option.any_some,
            Context.exprType, hdeeper]
          cases access.isNullSafe with
          | false => exact hmember _ rfl
          | true =>
              rw [if_pos rfl, Bool.true_and,
                hmember _ (hnormal.nonNull_nonNull _)]
              rfl

theorem resolve?_of_isOnNull (hnull : context.isOnNull access = true)
    (henough : ∀ receiver, access.kind = .qualifiedAccessExpr →
      access.receiver = .ok receiver →
        Enough context context.maxDepth fun answers =>
          answers.exprType [] receiver) :
    context.resolve? access = none := by
  rw [Context.isOnNull, Node.isNullSafeAccess, Bool.and_eq_true,
    Bool.and_eq_true, Bool.and_eq_true, decide_eq_true_eq] at hnull
  obtain ⟨⟨⟨hkind, -⟩, hname⟩, hreceiver⟩ := hnull
  obtain ⟨⟨name, space⟩, hname⟩ := Option.isSome_iff_exists.mp hname
  obtain ⟨receiver, hreceiver, hnull⟩ := (Option.any_eq_true _ _).mp hreceiver
  rw [toOption_eq_some] at hreceiver
  have hdeeper : context.exprType [] receiver =
      (answers context context.maxDepth).exprType [] receiver :=
      henough receiver hkind hreceiver
  exact resolve?_of_isNull hkind hname hreceiver (hdeeper ▸ hnull)

end Inference

open Inference

/-- Where the depth is enough for an access and, one level deeper, for its
receiver, its type is that of the declaration it refers to, or null if the
access is null-safe. If it refers to nothing, its type is unknown; only a
null-safe access to a member of null is null. -/
theorem Context.exprType_access (context : Context) {access : Node}
    (haccess : access.kind.isAccess = true)
    (henough : Enough context context.budget fun answers =>
      answers.exprType [] access)
    (hreceiver : ∀ receiver, access.kind = .qualifiedAccessExpr →
      access.receiver = .ok receiver →
        Enough context context.maxDepth fun answers =>
          answers.exprType [] receiver) :
    (∀ found, context.resolve? access = some found →
      context.exprType [] access =
        if access.isNullSafeAccess then
          (context.declType found.bindings found.node).nullable context.base
        else context.declType found.bindings found.node) ∧
    (context.resolve? access = none →
      context.exprType [] access =
        if context.isOnNull access then context.base.type "Null" else
          .unknown) := by
  rw [exprType_eq_accessType haccess henough]
  cases hname : Lookup.accessName? access with
  | none =>
      rw [resolve?_of_no_name hname, accessType, hname, isOnNull, hname]
      constructor
      case left => rintro _ ⟨⟩
      case right =>
          intro _
          rw [Option.isSome_none, Bool.and_false, Bool.false_and,
            if_neg Bool.false_ne_true]
  | some entry =>
      rw [accessType_eq hname hreceiver]
      constructor
      case left =>
          intro found hfound
          have hnull : context.isOnNull access ≠ true := fun hnull => by
            rw [resolve?_of_isOnNull hnull hreceiver] at hfound
            cases hfound
          rw [if_neg hnull, hfound]
          rfl
      case right =>
          intro hnone
          rw [hnone]
          split
          case isTrue => rfl
          case isFalse =>
              split
              case isTrue => exact nullable_unknown context.base
              case isFalse => rfl

def moduleOfAccesses : Document :=
  .ofTokens "file:///accesses.pkl"
    "class C\x7bp:C\x7d\nx=new C\x7b\x7d?.p\ny=null?.q\nz=null?."
    [⟨.classKw, "class", 0⟩, ⟨.whitespace, " ", 5⟩, ⟨.identifier, "C", 6⟩,
     ⟨.leftBrace, "\x7b", 7⟩, ⟨.identifier, "p", 8⟩, ⟨.colon, ":", 9⟩,
     ⟨.identifier, "C", 10⟩, ⟨.rightBrace, "\x7d", 11⟩, ⟨.whitespace, "\n", 12⟩,
     ⟨.identifier, "x", 13⟩, ⟨.equal, "=", 14⟩, ⟨.newKw, "new", 15⟩,
     ⟨.whitespace, " ", 18⟩, ⟨.identifier, "C", 19⟩, ⟨.leftBrace, "\x7b", 20⟩,
     ⟨.rightBrace, "\x7d", 21⟩, ⟨.questionDot, "?.", 22⟩,
     ⟨.identifier, "p", 24⟩, ⟨.whitespace, "\n", 25⟩, ⟨.identifier, "y", 26⟩,
     ⟨.equal, "=", 27⟩, ⟨.nullKw, "null", 28⟩, ⟨.questionDot, "?.", 32⟩,
     ⟨.identifier, "q", 34⟩, ⟨.whitespace, "\n", 35⟩, ⟨.identifier, "z", 36⟩,
     ⟨.equal, "=", 37⟩, ⟨.nullKw, "null", 38⟩, ⟨.questionDot, "?.", 42⟩]
    (Token.ok_of_toOption (by decide +kernel))

def contextOfAccesses : Context :=
  (Context.ofBase .plain).withDocument moduleOfAccesses

/-- The member of the object is null or what its declaration says, and the
member of null is null. -/
theorem Context.exprType_access_nullSafe :
    (∃ found : Candidate,
      contextOfAccesses.resolve? ⟨moduleOfAccesses, 10⟩ = some found ∧
      contextOfAccesses.exprType [] ⟨moduleOfAccesses, 10⟩ =
        (contextOfAccesses.declType found.bindings found.node).nullable
          contextOfAccesses.base) ∧
    contextOfAccesses.exprType
      [] ⟨moduleOfAccesses, 15⟩ = contextOfAccesses.base.type "Null" := by
  let node (index : Nat) : Node := ⟨moduleOfAccesses, index⟩
  have henough : ∀ index ∈ [10, 15],
      Enough contextOfAccesses contextOfAccesses.budget fun answers =>
        answers.exprType [] (node index) := by
    decide +kernel
  have hreceiver : ∀ index ∈ [10, 15],
      (node index).receiver.toOption = some (node (index + 1)) ∧
      Enough contextOfAccesses contextOfAccesses.maxDepth fun answers =>
        answers.exprType [] (node (index + 1)) := by
    decide +kernel
  have hreceiverOf : ∀ index ∈ [10, 15], ∀ receiver,
      (node index).kind = .qualifiedAccessExpr →
      (node index).receiver = .ok receiver →
      Enough contextOfAccesses contextOfAccesses.maxDepth fun answers =>
        answers.exprType [] receiver := by
    intro index hindex receiver _ hok
    obtain ⟨hsome, hdepth⟩ := hreceiver index hindex
    rw [hok] at hsome
    exact Option.some.inj hsome ▸ hdepth
  obtain ⟨hkind, hsafe, hresolve, hkind', hnone, hnull⟩ :
      (node 10).kind.isAccess = true ∧ (node 10).isNullSafeAccess = true ∧
      (contextOfAccesses.resolve? (node 10)).isSome = true ∧
      (node 15).kind.isAccess = true ∧
      (contextOfAccesses.resolve? (node 15)).isNone = true ∧
      contextOfAccesses.isOnNull (node 15) = true := by decide +kernel
  obtain ⟨found, hfound⟩ := Option.isSome_iff_exists.mp hresolve
  have hmember :=
    (contextOfAccesses.exprType_access hkind (henough 10 (by decide))
    (hreceiverOf 10 (by decide))).1 found hfound
  have hmemberOfNull :=
    (contextOfAccesses.exprType_access hkind' (henough 15 (by decide))
    (hreceiverOf 15 (by decide))).2 (Option.isNone_iff_eq_none.mp hnone)
  rw [if_pos hsafe] at hmember
  rw [if_pos hnull] at hmemberOfNull
  exact ⟨⟨found, hfound, hmember⟩, hmemberOfNull⟩

/-- A null-safe access that lacks the name of a member has an unknown type
whatever the depth, and its receiver has the type `Null`. -/
theorem Context.exprType_access_nameless :
    let context (depth : Nat) := contextOfAccesses.atDepth depth
    let access : Node := ⟨moduleOfAccesses, 17⟩
    let receiver : Node := ⟨moduleOfAccesses, 18⟩
    access.kind = .qualifiedAccessExpr ∧ access.isNullSafe = true ∧
      access.receiver.toOption = some receiver ∧
      contextOfAccesses.base.type "Null" ≠ .unknown ∧
      ∀ depth,
        (context depth).exprType [] receiver =
          contextOfAccesses.base.type "Null" ∧
        (context depth).resolve? access = none ∧
          (context depth).exprType [] access = .unknown := by
  intro context access receiver
  obtain ⟨hkind, hsafe, hreceiver, hnull, hliteral, hname⟩ :
      access.kind = .qualifiedAccessExpr ∧ access.isNullSafe = true ∧
      access.receiver.toOption = some receiver ∧
      contextOfAccesses.base.type "Null" ≠ .unknown ∧
      receiver.kind = .nullLiteral ∧
        (Lookup.accessName? access).isNone = true := by decide +kernel
  rw [Option.isNone_iff_eq_none] at hname
  have hopen : ∀ depth node, (context depth).exprType [] node =
      Inference.exprType (context depth)
        (Inference.answers (context depth) depth) depth [] node :=
    fun _ _ => rfl
  refine ⟨hkind, hsafe, hreceiver, hnull,
    fun depth => ⟨?_, resolve?_of_no_name hname, ?_⟩⟩
  · rw [hopen, Inference.exprType, hliteral]
    rfl
  · rw [hopen, Inference.exprType, hkind]
    dsimp only
    rw [accessType, hname]

end PklAnalysis
