import PklAnalysis.Proofs.Inference.Degradation
import PklAnalysis.Proofs.Node.Range

/-!
Receivers in the bodies of generators. A generator builds no object, so `this`
in its body is what it is around the generator, however generators are nested.
`outer` is found otherwise: it steps out of the innermost object body, and out
of the body of a generator that step leads to the object which is `this` there.
-/

namespace PklAnalysis

namespace Node

/-- The class, object body or module that a node is directly in, where each is
in itself. -/
def home? (node : Node) : Option Node :=
  (node :: node.ancestors).find? Lookup.isSuperScope

/-- What the type of `this` at a node is taken from. The body of a generator is
passed over. -/
def receiver? (node : Node) : Option Node :=
  (node :: node.ancestors).find? Inference.Steady.bindsThis

def site? (body : Node) : Option Node :=
  body.parent?.bind parent?

def StandsIn (body outer : Node) : Prop :=
  body.kind = .objectBody ∧ body.site?.bind home? = some outer

instance (body outer : Node) : Decidable (body.StandsIn outer) :=
  inferInstanceAs (Decidable (_ ∧ _))

@[mk_iff]
structure GeneratorBody (outer inner : Node) : Prop where
  standsIn : inner.StandsIn outer
  of_generator : inner.parent?.any fun owner =>
    owner.kind = .forGenerator || owner.kind = .whenGenerator

instance (outer inner : Node) : Decidable (GeneratorBody outer inner) :=
  decidable_of_iff' _ (generatorBody_iff outer inner)

@[mk_iff]
structure OuterIn (node body : Node) : Prop where
  kind : node.kind = .outerExpr
  body_kind : body.kind = .objectBody
  home : node.home? = some body

instance (node body : Node) : Decidable (node.OuterIn body) :=
  decidable_of_iff' _ (outerIn_iff node body)

variable {node parent home outer inner body : Node}

theorem isSuperScope_of_bindsThis
    (hbinds : Inference.Steady.bindsThis node = true) :
    Lookup.isSuperScope node = true := by
  rw [Inference.Steady.bindsThis] at hbinds
  rw [Lookup.isSuperScope]
  split at hbinds
  case h_1 hkind | h_2 hkind | h_3 hkind => rw [hkind]
  case h_4 => cases hbinds

theorem receiver?_of_parent? (hbinds : Inference.Steady.bindsThis node = false)
    (hparent : node.parent? = some parent) :
    node.receiver? = parent.receiver? := by
  rw [receiver?,
    List.find?_cons_of_neg (by rw [hbinds]; exact Bool.false_ne_true),
    ancestors_of_parent? hparent]
  rfl

theorem receiver?_of_home? (hhome : node.home? = some home) :
    node.receiver? = home.receiver? := by
  induction node using inductionAbove with
  | top node hnone =>
      rw [home?, ancestors_of_parent?_none hnone] at hhome
      rw [List.mem_singleton.mp (List.mem_of_find?_eq_some hhome)]
  | below node parent hparent ih =>
      cases hscope : Lookup.isSuperScope node with
      | true =>
          rw [home?, List.find?_cons_of_pos hscope] at hhome
          rw [Option.some.inj hhome]
      | false =>
          have hbinds : Inference.Steady.bindsThis node = false :=
            Bool.eq_false_iff.mpr fun hbinds =>
              absurd (isSuperScope_of_bindsThis hbinds)
              (by rw [hscope]; exact Bool.false_ne_true)
          rw [home?,
            List.find?_cons_of_neg (by rw [hscope]; exact Bool.false_ne_true),
            ancestors_of_parent? hparent] at hhome
          rw [receiver?_of_parent? hbinds hparent]
          exact ih hhome

theorem GeneratorBody.exists_site (hbody : GeneratorBody outer inner) :
    ∃ site, inner.site? = some site ∧ site.home? = some outer ∧
      inner.receiver? = site.receiver? := by
  obtain ⟨⟨hkind, hstands⟩, hgenerator⟩ := hbody
  obtain ⟨site, hsite, hhome⟩ := Option.bind_eq_some_iff.mp hstands
  obtain ⟨generator, hparent, habove⟩ := Option.bind_eq_some_iff.mp hsite
  rw [hparent, Option.any_some, Bool.or_eq_true, decide_eq_true_iff,
    decide_eq_true_iff] at hgenerator
  have hinner : Inference.Steady.bindsThis inner = false := by
    rw [Inference.Steady.bindsThis, hkind]
    dsimp only
    rw [hparent]
    rcases hgenerator with hfor | hwhen
    · simp only [hfor]
    · simp only [hwhen]
  have howner : Inference.Steady.bindsThis generator = false := by
    rw [Inference.Steady.bindsThis]
    rcases hgenerator with hfor | hwhen
    · rw [hfor]
    · rw [hwhen]
  exact ⟨site, hsite, hhome,
    (receiver?_of_parent? hinner hparent).trans
      (receiver?_of_parent? howner habove)⟩

/-- However generators are nested, `this` is taken from around them. -/
theorem receiver?_of_nested
    (hnested : Relation.TransGen GeneratorBody outer inner) :
    inner.receiver? = outer.receiver? := by
  induction hnested with
  | single hbody =>
      obtain ⟨site, -, hhome, hsame⟩ := hbody.exists_site
      exact hsame.trans (receiver?_of_home? hhome)
  | tail _ hbody ih =>
      obtain ⟨site, -, hhome, hsame⟩ := hbody.exists_site
      exact hsame.trans ((receiver?_of_home? hhome).trans ih)

theorem exists_site_of_nested
    (hnested : Relation.TransGen GeneratorBody outer inner) :
    ∃ site, inner.site? = some site ∧ site.receiver? = outer.receiver? := by
  obtain ⟨above, -, hbody⟩ := Relation.TransGen.tail'_iff.mp hnested
  obtain ⟨site, hsite, -, hsame⟩ := hbody.exists_site
  exact ⟨site, hsite, hsame.symm.trans (receiver?_of_nested hnested)⟩

theorem OuterIn.find?_isObjectBody (houter : node.OuterIn body) :
    node.ancestors.find? Lookup.isObjectBody = some body := by
  have hself : Lookup.isSuperScope node = false := by
    rw [Lookup.isSuperScope, houter.kind]
  have hhome := houter.home
  rw [home?, List.find?_cons_of_neg (by rw [hself]; exact Bool.false_ne_true),
    List.find?_eq_some_iff_append] at hhome
  obtain ⟨-, front, back, hancestors, hfront⟩ := hhome
  refine List.find?_eq_some_iff_append.mpr
    ⟨decide_eq_true houter.body_kind, front, back, hancestors,
      fun above habove => ?_⟩
  have hscope := hfront above habove
  rw [Bool.not_eq_true'] at hscope ⊢
  rw [Lookup.isObjectBody, decide_eq_false_iff_not]
  intro hkind
  rw [Lookup.isSuperScope, hkind] at hscope
  cases hscope

end Node

namespace Inference

variable {context : Context} {bindings : Ty.Bindings} {node place body : Node}

theorem thisType_eq_bind (deeper : Answers) (budget : Nat) :
    thisType context deeper budget bindings node =
      (node.receiver?.bind (scopeType? context deeper budget bindings)).getD
        .unknown := by
  rw [thisType,
    findSome?_eq_bind (isSome_scopeType? context deeper budget bindings),
    Node.receiver?]

theorem thisType_congr (hreceiver : node.receiver? = place.receiver?)
    (budget : Nat) :
    (answers context budget).thisType bindings node =
      (answers context budget).thisType bindings place := by
  cases budget with
  | zero => rfl
  | succ budget =>
      have hlevel : ∀ node,
          (answers context (budget + 1)).thisType bindings node =
          thisType context (answers context budget) budget bindings node :=
          fun _ => rfl
      rw [hlevel, hlevel, thisType_eq_bind, thisType_eq_bind, hreceiver]

end Inference

namespace Context

variable {context : Context} {bindings : Ty.Bindings}
  {node place body outer : Node}

/-- The type of `this` at a node as expressions ask for it, one level deeper
than by itself. -/
def receiverType (context : Context) (bindings : Ty.Bindings) (node : Node) :
    Ty :=
  (Inference.answers context context.maxDepth).thisType bindings node

theorem receiverType_congr (hreceiver : node.receiver? = place.receiver?) :
    context.receiverType bindings node = context.receiverType bindings place :=
  Inference.thisType_congr hreceiver context.maxDepth

theorem exprType_this (hkind : node.kind = .thisExpr) :
    context.exprType bindings node = context.receiverType bindings node := by
  rw [exprType_eq, Inference.exprType, hkind]
  rfl

theorem exprType_outer (houter : node.OuterIn body) :
    context.exprType bindings node =
      (body.site?.map (context.receiverType bindings)).getD .unknown := by
  rw [exprType_eq, Inference.exprType, houter.kind]
  dsimp only
  rw [Inference.outerType, houter.find?_isObjectBody, Option.bind_some,
    ← Node.site?]
  cases body.site? with
  | none => rfl
  | some site => rfl

theorem exprType_outer_of_standsIn (hstands : body.StandsIn outer)
    (houter : node.OuterIn body) :
    context.exprType bindings node = context.receiverType bindings outer := by
  obtain ⟨site, hsite, hhome⟩ := Option.bind_eq_some_iff.mp hstands.2
  rw [exprType_outer houter, hsite, Option.map_some, Option.getD_some]
  exact receiverType_congr (Node.receiver?_of_home? hhome)

/-- In the body of a generator in an object body, however deep generators are
nested there, `this` has the type that it has directly in the object body. So
has `outer` in the objects that are built there. `outer` directly in the body of
a generator has the type that `this` has there, but directly in the object body
it has the type of `this` around the object. -/
theorem receivers_in_generators (context : Context) (bindings : Ty.Bindings)
    {body inner : Node}
    (hnested : Relation.TransGen Node.GeneratorBody body inner) :
    (∀ node place, node.home? = some inner → place.home? = some body →
      context.thisType bindings node = context.thisType bindings place ∧
      (node.kind = .thisExpr → place.kind = .thisExpr →
        context.exprType bindings node = context.exprType bindings place)) ∧
    (∀ left right, left.StandsIn inner → right.StandsIn body →
      ∀ node place, node.OuterIn left → place.OuterIn right →
        context.exprType bindings node = context.exprType bindings place) ∧
    (∀ node place, node.OuterIn inner → place.OuterIn body →
      context.exprType bindings node = context.receiverType bindings body ∧
      context.exprType bindings place =
        (body.site?.map (context.receiverType bindings)).getD .unknown) := by
  have hnestedReceiver := Node.receiver?_of_nested hnested
  refine ⟨fun node place hnode hplace => ?_,
    fun left right hleft hright node place hnode hplace => ?_,
    fun node place hnode hplace => ⟨?_, exprType_outer hplace⟩⟩
  · have hreceiver : node.receiver? = place.receiver? := by
      rw [Node.receiver?_of_home? hnode, Node.receiver?_of_home? hplace,
        hnestedReceiver]
    refine ⟨Inference.thisType_congr hreceiver context.budget,
      fun hthis hthis' => ?_⟩
    rw [exprType_this hthis, exprType_this hthis']
    exact receiverType_congr hreceiver
  · rw [exprType_outer_of_standsIn hleft hnode,
      exprType_outer_of_standsIn hright hplace]
    exact receiverType_congr hnestedReceiver
  · obtain ⟨site, hsite, hreceiver⟩ := Node.exists_site_of_nested hnested
    rw [exprType_outer hnode, hsite, Option.map_some, Option.getD_some]
    exact receiverType_congr hreceiver

def nestedGenerators : Document :=
  .ofTokens "file:///generators.pkl"
    "class I\no:I=new\x7bfor(x in y)\x7bwhen(z)\x7bouter\x7d\x7douter\x7d"
    [⟨.classKw, "class", 0⟩, ⟨.whitespace, " ", 5⟩, ⟨.identifier, "I", 6⟩,
     ⟨.whitespace, "\n", 7⟩, ⟨.identifier, "o", 8⟩, ⟨.colon, ":", 9⟩,
     ⟨.identifier, "I", 10⟩, ⟨.equal, "=", 11⟩, ⟨.newKw, "new", 12⟩,
     ⟨.leftBrace, "\x7b", 15⟩, ⟨.forKw, "for", 16⟩, ⟨.leftParen, "(", 19⟩,
     ⟨.identifier, "x", 20⟩, ⟨.whitespace, " ", 21⟩, ⟨.inKw, "in", 22⟩,
     ⟨.whitespace, " ", 24⟩, ⟨.identifier, "y", 25⟩, ⟨.rightParen, ")", 26⟩,
     ⟨.leftBrace, "\x7b", 27⟩, ⟨.whenKw, "when", 28⟩, ⟨.leftParen, "(", 32⟩,
     ⟨.identifier, "z", 33⟩, ⟨.rightParen, ")", 34⟩, ⟨.leftBrace, "\x7b", 35⟩,
     ⟨.outerKw, "outer", 36⟩, ⟨.rightBrace, "\x7d", 41⟩,
     ⟨.rightBrace, "\x7d", 42⟩, ⟨.outerKw, "outer", 43⟩,
     ⟨.rightBrace, "\x7d", 48⟩]
    (Token.ok_of_toOption (by decide +kernel))

/-- `this` is the same in and around the generators; `outer` is of the class in
them, and the module around them. -/
theorem receivers_in_generators_nested :
    let context :=
      (Context.ofBase .plain).withDocument nestedGenerators
    let node (index : Nat) : Node := ⟨nestedGenerators, index⟩
    context.thisType [] (node 18) = context.thisType [] (node 19) ∧
      context.exprType [] (node 18) = .classType (node 1) [] ∧
      context.exprType [] (node 19) = .moduleType (node 0) := by
  intro context node
  obtain ⟨hfor, hwhen, hinside, haround, hreceiver, hsite⟩ :
      (node 7).GeneratorBody (node 12) ∧ (node 12).GeneratorBody (node 16) ∧
      (node 18).OuterIn (node 16) ∧ (node 19).OuterIn (node 7) ∧
      context.receiverType [] (node 7) = .classType (node 1) [] ∧
      ((node 7).site?.map (context.receiverType [])).getD .unknown =
        .moduleType (node 0) := by
    decide +kernel
  obtain ⟨hthis, -, houter⟩ :=
    context.receivers_in_generators [] (.tail (.single hfor) hwhen)
  obtain ⟨hinner, hplace⟩ := houter (node 18) (node 19) hinside haround
  exact ⟨(hthis (node 18) (node 19) hinside.home haround.home).1,
    hinner.trans hreceiver, hplace.trans hsite⟩

end Context

end PklAnalysis
