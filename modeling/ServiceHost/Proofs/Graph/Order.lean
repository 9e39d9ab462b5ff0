import ServiceHost.Proofs.Graph.Placement
import Mathlib.Order.WellFounded
import Mathlib.Data.Fintype.EquivFin

/-!
# Orders — there is one exactly when nothing depends on itself

A run places positions until nothing is ready. Either everything is placed by then, and the
placement is an order in which each position stands behind its dependencies; or something is left
out, and then **each position that is left out waits for another one that is left out**. The
positions are finitely many, so the first case excludes a cycle and the second needs one
(`acyclic_iff_complete`), and `Graph.order` answers accordingly.
-/

set_option autoImplicit false

namespace ServiceHost

namespace Graph

open Relation

variable {graph : Graph}

/-- In an order that has everything in it, a dependency stands before its dependent. -/
theorem Respects.idxOf_lt {order : List Nat} (hr : graph.Respects order) (hn : order.Nodup)
    {position other : Nat} (hm : position ∈ order) (hd : graph.DependsOn position other) :
    order.idxOf other < order.idxOf position := by
  obtain ⟨before, after, rfl⟩ := List.append_of_mem hm
  have ho : other ∈ before := hr before position after rfl other hd
  have hp : position ∉ before := by
    intro hb
    exact (List.nodup_append.mp hn).2.2 position hb position List.mem_cons_self rfl
  rw [List.idxOf_append_of_mem ho, List.idxOf_append_of_notMem hp, List.idxOf_cons_self]
  have := List.idxOf_lt_length_of_mem ho
  omega

/-- A graph that can be put in order has no cycle: along a path of dependencies one only ever
moves to the front. -/
theorem Respects.acyclic {order : List Nat} (hr : graph.Respects order) (hn : order.Nodup)
    (hall : ∀ position other, graph.DependsOn position other → position ∈ order) :
    graph.Acyclic := by
  -- Each edge goes to the front, and so does a path, by induction on its length.
  have hlt : ∀ {a b : Nat}, TransGen graph.DependsOn a b → order.idxOf b < order.idxOf a := by
    intro a b hab
    induction hab with
    | single hd => exact hr.idxOf_lt hn (hall _ _ hd) hd
    | tail _ hd ih => exact Nat.lt_trans (hr.idxOf_lt hn (hall _ _ hd) hd) ih
  intro position hcycle
  exact Nat.lt_irrefl _ (hlt hcycle)

/-- Without a cycle, one can always go back to a position that depends on nothing. -/
theorem Acyclic.wellFounded (ha : graph.Acyclic) :
    WellFounded fun other position : Fin graph.size =>
      TransGen graph.DependsOn position.val other.val := by
  have : IsTrans (Fin graph.size) fun other position =>
      TransGen graph.DependsOn position.val other.val :=
    ⟨fun _ _ _ hab hbc => hbc.trans hab⟩
  have : Std.Irrefl fun other position : Fin graph.size =>
      TransGen graph.DependsOn position.val other.val :=
    ⟨fun position h => ha position.val h⟩
  exact Finite.wellFounded_of_trans_of_irrefl _

/-- Without a cycle nothing is left out: of the positions left out, one would depend on none of
them. -/
theorem Acyclic.mem_finish (wf : graph.WellFormed) (ha : graph.Acyclic) {position : Nat}
    (hlt : position < graph.size) : position ∈ (Placement.finish graph).placed := by
  have key : ∀ position : Fin graph.size,
      position.val ∈ (Placement.finish graph).placed := by
    intro position
    induction position using ha.wellFounded.induction with
    | _ position ih =>
      by_cases hp : position.val ∈ (Placement.finish graph).placed
      · exact hp
      -- It would depend on a position that is left out as well, against the induction.
      · obtain ⟨other, hd, ho⟩ :=
          Placement.exists_dependsOn_of_not_mem_finish wf position.isLt hp
        have hlt := wf.lt_size _ _ hd
        exact absurd (ih ⟨other, hlt⟩ (TransGen.single hd)) ho
  exact key ⟨position, hlt⟩

/-- **A run places everything exactly when there is no cycle.** -/
theorem acyclic_iff_complete (wf : graph.WellFormed) :
    graph.Acyclic ↔ ¬ (Placement.finish graph).placed.length < graph.size := by
  have hk := Placement.keeps_finish wf
  constructor
  · intro ha hlt
    obtain ⟨position, hp, hnot⟩ := Placement.exists_not_mem_of_length_lt hlt
    exact hnot (ha.mem_finish wf hp)
  · intro hlt
    have hperm := hk.placed_perm (by omega)
    apply hk.respects.acyclic hk.placed_nodup
    intro position other hd
    exact hperm.mem_iff.mpr (List.mem_range.mpr (wf.dependent_lt hd))

theorem order_eq (graph : Graph) :
    graph.order = if (Placement.finish graph).placed.length < graph.size then
      .error (.cyclic ((graph.findCycle (Placement.finish graph)).map graph.nameAt))
    else .ok (Placement.finish graph).placed := rfl

theorem order_eq_ok_iff {order : List Nat} :
    graph.order = .ok order ↔
      ¬ (Placement.finish graph).placed.length < graph.size ∧
        (Placement.finish graph).placed = order := by
  rw [order_eq]
  split
  · simp [*]
  · simp [*]

/-- What an order is: all positions, each once, and each behind its dependencies. -/
theorem perm_and_respects_of_order (wf : graph.WellFormed) {order : List Nat}
    (h : graph.order = .ok order) :
    order.Perm (List.range graph.size) ∧ graph.Respects order := by
  obtain ⟨hlt, rfl⟩ := order_eq_ok_iff.mp h
  have hk := Placement.keeps_finish wf
  exact ⟨hk.placed_perm (by omega), hk.respects⟩

/-- **Orders are sound and complete.** The modules of a drawn graph can be put in order exactly
when none of them depends on itself through others; an order has every position once, each behind
all that it depends on; a cycle is reported as one; and in the whole run no counter goes below
zero and no position is out of range. -/
theorem order_sound_and_complete {modules : List Hosted} {registry : Registry} {graph : Graph}
    (h : build modules registry = .ok graph) :
    ((∃ order, graph.order = .ok order) ↔ graph.Acyclic) ∧
    (∀ order, graph.order = .ok order →
      order.Perm (List.range modules.length) ∧ graph.Respects order) ∧
    (¬ graph.Acyclic → ∃ cycle, graph.order = .error (.cyclic cycle)) ∧
    (∀ position other, graph.DependsOn position other →
      position < modules.length ∧ other < modules.length) ∧
    Placement.steps? graph graph.size (Placement.start graph) =
      some (Placement.finish graph) := by
  have wf := wellFormed_of_build h
  have hsize := size_of_build h
  refine ⟨?_, ?_, ?_, ?_, Placement.steps?_eq_some_finish wf⟩
  · rw [acyclic_iff_complete wf]
    constructor
    · rintro ⟨order, ho⟩
      exact (order_eq_ok_iff.mp ho).1
    · intro hlt
      exact ⟨_, order_eq_ok_iff.mpr ⟨hlt, rfl⟩⟩
  · intro order ho
    exact hsize ▸ perm_and_respects_of_order wf ho
  · intro hc
    rw [acyclic_iff_complete wf, Decidable.not_not] at hc
    exact ⟨_, (order_eq graph).trans (if_pos hc)⟩
  · intro position other hd
    exact hsize ▸ ⟨wf.dependent_lt hd, wf.lt_size _ _ hd⟩

/-- Two modules of one name that need what a third one provides, and needs itself as well. -/
def sharedStore : List Hosted :=
  [ { name := "web", kind := "web", requires := [{ capability := "test:store" }] },
    { name := "store", kind := "store", provides := ["test:store"],
      requires := [{ capability := "test:store" }] },
    { name := "web", kind := "web", requires := [{ capability := "test:store" }] } ].map
    Hosted.fresh

theorem order_sharedStore :
    build sharedStore {} = .ok ⟨["web", "store", "web"], [[1], [], [1]]⟩ ∧
    Graph.order ⟨["web", "store", "web"], [[1], [], [1]]⟩ = .ok [1, 0, 2] ∧
    Graph.Acyclic ⟨["web", "store", "web"], [[1], [], [1]]⟩ ∧
    Graph.Respects ⟨["web", "store", "web"], [[1], [], [1]]⟩ [1, 0, 2] := by
  have hb : build sharedStore {} = .ok ⟨["web", "store", "web"], [[1], [], [1]]⟩ := by
    decide +kernel
  have ho : Graph.order ⟨["web", "store", "web"], [[1], [], [1]]⟩ = .ok [1, 0, 2] := by rfl
  obtain ⟨hacyclic, hsound, _⟩ := order_sound_and_complete hb
  exact ⟨hb, ho, hacyclic.mp ⟨_, ho⟩, (hsound _ ho).2⟩

end Graph

end ServiceHost
