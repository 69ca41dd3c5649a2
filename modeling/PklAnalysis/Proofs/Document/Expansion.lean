import Mathlib.Data.List.Dedup
import Mathlib.Logic.Relation
import PklAnalysis.Proofs.Document.Spot

/-!
An arena that gives numbers on demand. Whatever is asked of it, and in whichever
order, it numbers each node of its tree at most once, and it always gives the
same answer to the same request.
-/

namespace PklAnalysis.Arena

inductive Request
  | children (id : Nat)
  | descendants (id : Nat)
  | touching (id offset : Nat)

def Request.id : Request → Nat
  | .children id | .descendants id | .touching id _ => id

/-- Lists the first `limit` of some nodes and the nodes below them, each before
those below it. Each node that is listed is expanded. -/
def walk : Nat → List Nat → Arena → Arena × List Nat
  | 0, _, arena => (arena, [])
  | _ + 1, [], arena => (arena, [])
  | limit + 1, id :: rest, arena =>
      let arena := arena.expand id
      let listed := walk limit (arena.childIds id ++ rest) arena
      (listed.1, id :: listed.2)

def descend (offset : Nat) : Nat → Nat → Arena → Arena × Nat
  | 0, id, arena => (arena, id)
  | limit + 1, id, arena =>
      let arena := arena.expand id
      match (arena.childIds id).find? fun child =>
        (arena.slot child).range.touches offset with
      | none => (arena, id)
      | some child => descend offset limit child arena

def limit (arena : Arena) : Nat :=
  (arena.slot 0).tree.nodeCount

/-- The arena after a request, with the numbers that are the answer. -/
def ask (arena : Arena) : Request → Arena × List Nat
  | .children id => (arena.expand id, (arena.expand id).childIds id)
  | .descendants id => walk arena.limit [id] arena
  | .touching id offset =>
      if (arena.slot id).range.touches offset then
        let found := descend offset arena.limit id arena
        (found.1, [found.2])
      else (arena, [])

def run (arena : Arena) (requests : List Request) : Arena :=
  requests.foldl (fun arena request => (arena.ask request).1) arena

/-! Whatever is asked, nodes are expanded and nothing else happens. -/

/-- The second arena is the first after some nodes are expanded. -/
def Expands : Arena → Arena → Prop :=
  Relation.ReflTransGen fun before after => ∃ id, after = before.expand id

theorem expands_expand (arena : Arena) (id : Nat) :
    arena.Expands (arena.expand id) :=
  .single ⟨id, rfl⟩

theorem expands_walk (limit : Nat) (ids : List Nat) (arena : Arena) :
    arena.Expands (walk limit ids arena).1 := by
  induction limit generalizing ids arena with
  | zero => exact .refl
  | succ limit ih =>
      cases ids with
      | nil => exact .refl
      | cons id rest => exact (arena.expands_expand id).trans (ih _ _)

theorem expands_descend (offset limit id : Nat) (arena : Arena) :
    arena.Expands (descend offset limit id arena).1 := by
  induction limit generalizing id arena with
  | zero => exact .refl
  | succ limit ih =>
      rw [descend]
      split
      case h_1 => exact arena.expands_expand id
      case h_2 child _ => exact (arena.expands_expand id).trans (ih child _)

theorem expands_ask (arena : Arena) (request : Request) :
    arena.Expands (arena.ask request).1 := by
  cases request with
  | children id => exact arena.expands_expand id
  | descendants id => exact expands_walk _ _ arena
  | touching id offset =>
      rw [ask]
      split
      case isTrue => exact expands_descend _ _ _ arena
      case isFalse => exact .refl

theorem expands_run (arena : Arena) (requests : List Request) :
    arena.Expands (arena.run requests) := by
  induction requests generalizing arena with
  | nil => exact .refl
  | cons request rest ih => exact (arena.expands_ask request).trans (ih _)

/-! What is numbered stays as it is. -/

/-- Slots stay, those of expanded nodes with their children. -/
def Grows (before after : Arena) : Prop :=
  ∀ (id : Nat) (slot : Slot), before.slots[id]? = some slot → ∃ grown,
    after.slots[id]? = some grown ∧
    grown = { slot with children? := grown.children? } ∧
      ∀ ids, slot.children? = some ids → grown.children? = some ids

theorem Grows.refl (arena : Arena) : arena.Grows arena :=
  fun _ slot hslot => ⟨slot, hslot, rfl, fun _ hids => hids⟩

theorem Grows.trans {first second third : Arena} (hfirst : first.Grows second)
    (hsecond : second.Grows third) : first.Grows third := by
  intro id slot hslot
  obtain ⟨grown, hgrown, hsame, hids⟩ := hfirst id slot hslot
  obtain ⟨later, hlater, hstill, hkept⟩ := hsecond id grown hgrown
  refine ⟨later, hlater, ?_, fun ids hopened => hkept ids (hids ids hopened)⟩
  rw [hstill, hsame]

theorem grows_expand (arena : Arena) (id : Nat) :
    arena.Grows (arena.expand id) := by
  intro other slot hslot
  cases hnode : arena.slots[id]? with
  | none =>
      rw [expand, hnode]
      exact Grows.refl arena other slot hslot
  | some node =>
      cases hchildren : node.children? with
      | some ids =>
          rw [expand_of_opened hnode hchildren]
          exact Grows.refl arena other slot hslot
      | none =>
          have hlt : other < arena.size :=
            (Array.getElem?_eq_some_iff.mp hslot).1
          rw [getElem?_expand hnode hchildren, if_pos hlt]
          by_cases hsame : other = id
          case neg =>
              rw [if_neg hsame]
              exact Grows.refl arena other slot hslot
          case pos =>
              subst hsame
              obtain rfl : node = slot :=
                Option.some.inj (hnode.symm.trans hslot)
              rw [if_pos rfl]
              refine ⟨_, rfl, rfl, fun ids hids => ?_⟩
              rw [hchildren] at hids
              cases hids

theorem Expands.grows {before after : Arena} (hexpands : before.Expands after) :
    before.Grows after := by
  induction hexpands with
  | refl => exact Grows.refl before
  | tail _ hstep ih =>
      obtain ⟨id, rfl⟩ := hstep
      exact ih.trans (grows_expand _ id)

theorem slot_of_getElem? {arena : Arena} {id : Nat} {slot : Slot}
    (hslot : arena.slots[id]? = some slot) : arena.slot id = slot := by
  rw [Arena.slot, Array.getD_eq_getD_getElem?, hslot, Option.getD_some]

theorem slots_of_lt {arena : Arena} {id : Nat} (hlt : id < arena.size) :
    arena.slots[id]? = some (arena.slot id) := by
  have hget := Array.getElem?_eq_getElem hlt
  rw [Arena.slot, Array.getD_eq_getD_getElem?, hget, Option.getD_some]

section

variable {before after : Arena} (hgrows : before.Grows after) {id : Nat}
  (hlt : id < before.size)
include hgrows hlt

theorem Grows.range_slot : (after.slot id).range = (before.slot id).range := by
  obtain ⟨grown, hgrown, hsame, -⟩ := hgrows id _ (slots_of_lt hlt)
  rw [slot_of_getElem? hgrown, hsame]

theorem Grows.limit_eq : after.limit = before.limit := by
  obtain ⟨grown, hgrown, hsame, -⟩ :=
    hgrows 0 _ (slots_of_lt (Nat.zero_lt_of_lt hlt))
  rw [limit, limit, slot_of_getElem? hgrown, hsame]

end

theorem opened_expand {arena : Arena} {id : Nat} (hlt : id < arena.size) :
    ∃ slot ids,
      (arena.expand id).slots[id]? = some slot ∧ slot.children? = some ids := by
  have hnode := slots_of_lt hlt
  cases hchildren : (arena.slot id).children? with
  | some ids =>
      rw [expand_of_opened hnode hchildren]
      exact ⟨_, ids, hnode, hchildren⟩
  | none =>
      rw [getElem?_expand hnode hchildren, if_pos hlt, if_pos rfl]
      exact ⟨_, _, rfl, rfl⟩

theorem Grows.opened {arena later : Arena} {id : Nat} (hlt : id < arena.size)
    (hgrows : (arena.expand id).Grows later) :
    later.expand id = later ∧
      later.childIds id = (arena.expand id).childIds id := by
  obtain ⟨slot, ids, hslot, hids⟩ := opened_expand hlt
  obtain ⟨grown, hgrown, -, hkept⟩ := hgrows id slot hslot
  refine ⟨expand_of_opened hgrown (hkept ids hids), ?_⟩
  rw [childIds_of_slot hgrown (hkept ids hids), childIds_of_slot hslot hids]

theorem exists_slot_of_mem_childIds {arena : Arena} {id child : Nat}
    (hchild : child ∈ arena.childIds id) :
    ∃ slot ids, arena.slots[id]? = some slot ∧ slot.children? = some ids := by
  rw [childIds, Arena.slot, Array.getD_eq_getD_getElem?] at hchild
  cases hslot : arena.slots[id]? with
  | none =>
      rw [hslot] at hchild
      cases hchild
  | some slot =>
      rw [hslot, Option.getD_some] at hchild
      cases hids : slot.children? with
      | none =>
          rw [hids] at hchild
          cases hchild
      | some ids => exact ⟨slot, ids, rfl, hids⟩

theorem Ordered.lt_of_mem_childIds {arena : Arena} (hordered : arena.Ordered)
    {id child : Nat} (hchild : child ∈ arena.childIds id) :
    id < child ∧ child < arena.size := by
  obtain ⟨slot, ids, hslot, hids⟩ := exists_slot_of_mem_childIds hchild
  rw [childIds_of_slot hslot hids] at hchild
  exact hordered.child_gt id slot ids hslot hids child hchild

theorem walk_again {limit : Nat} {ids : List Nat} {arena later : Arena}
    (hordered : arena.Ordered) (hids : ∀ id ∈ ids, id < arena.size)
    (hgrows : (walk limit ids arena).1.Grows later) :
    walk limit ids later = (later, (walk limit ids arena).2) := by
  induction limit generalizing ids arena with
  | zero => rfl
  | succ limit ih =>
      cases ids with
      | nil => rfl
      | cons id rest =>
          obtain ⟨hid, hrest⟩ := List.forall_mem_cons.mp hids
          have hbelow : ∀ other ∈ (arena.expand id).childIds id ++ rest,
              other < (arena.expand id).size :=
            List.forall_mem_append.mpr
              ⟨fun child hchild =>
                ((hordered.expand id).lt_of_mem_childIds hchild).2,
                fun other hother => Nat.lt_of_lt_of_le (hrest other hother)
                  (size_le_expand arena id)⟩
          obtain ⟨hsame, hchildren⟩ :=
            Grows.opened hid ((expands_walk limit _ _).grows.trans hgrows)
          have hagain := ih (hordered.expand id) hbelow hgrows
          rw [walk, walk]
          dsimp only
          rw [hsame, hchildren, hagain]

theorem descend_again {offset limit id : Nat} {arena later : Arena}
    (hordered : arena.Ordered) (hid : id < arena.size)
    (hgrows : (descend offset limit id arena).1.Grows later) :
    descend offset limit id later =
      (later, (descend offset limit id arena).2) := by
  induction limit generalizing id arena with
  | zero => rfl
  | succ limit ih =>
      have hfirst : (arena.expand id).Grows later := by
        rw [descend] at hgrows
        split at hgrows
        case h_1 => exact hgrows
        case h_2 => exact (expands_descend _ _ _ _).grows.trans hgrows
      obtain ⟨hsame, hchildren⟩ := Grows.opened hid hfirst
      have hfind :
          ((later.childIds id).find? fun child =>
            (later.slot child).range.touches offset) =
          ((arena.expand id).childIds id).find? fun child =>
            ((arena.expand id).slot child).range.touches offset := by
        rw [hchildren]
        refine List.find?_congr fun child hchild => ?_
        rw [hfirst.range_slot
            ((hordered.expand id).lt_of_mem_childIds hchild).2]
      rw [descend, descend, hsame, hfind]
      rw [descend] at hgrows
      split
      case h_1 => rfl
      case h_2 child hfound =>
          rw [hfound] at hgrows
          have hlt :=
            ((hordered.expand id).lt_of_mem_childIds
              (List.mem_of_find?_eq_some hfound)).2
          exact ih (hordered.expand id) hlt hgrows

/-- A request that is made again later gets the same answer, and no node gets a
number for it. -/
theorem ask_again {arena later : Arena} {request : Request}
    (hordered : arena.Ordered) (hid : request.id < arena.size)
    (hexpands : (arena.ask request).1.Expands later) :
    later.ask request = (later, (arena.ask request).2) := by
  have hwhole : arena.Expands later :=
    (arena.expands_ask request).trans hexpands
  have hlimit := hwhole.grows.limit_eq hid
  have hrange := hwhole.grows.range_slot hid
  cases request <;> rw [Request.id] at hid hrange
  case children id =>
      obtain ⟨hsame, hchildren⟩ := Grows.opened hid hexpands.grows
      rw [ask, ask, hsame, hchildren]
  case descendants id =>
      rw [ask, ask, hlimit]
      exact walk_again hordered (List.forall_mem_singleton.mpr hid)
        hexpands.grows
  case touching id offset =>
      rw [ask] at hexpands
      rw [ask, ask, hlimit, hrange]
      split
      case isFalse => rfl
      case isTrue htouches =>
          rw [if_pos htouches] at hexpands
          rw [descend_again hordered hid hexpands.grows]

end PklAnalysis.Arena
