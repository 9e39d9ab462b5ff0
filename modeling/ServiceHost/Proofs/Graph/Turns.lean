import ServiceHost.Proofs.Graph.Order
import ServiceHost.Proofs.Text.ByteOrder
import Mathlib.Data.List.TakeDrop

/-!
# Turns — whose turn it is to be placed

An order of a graph leaves no choice open. When a position is placed, it is the first of **all**
positions that are free at that moment, by the bytes of its name and then by position (`Due`); one
that the last step released competes at once. The queue of a run is kept step by step and never
looks at all positions, so this rests on the invariant of a run: **what is ready is exactly what is
free** (`Keeps.mem_ready_iff_free`).

There is only one list of a given length that keeps to these turns (`InTurn.unique`), so an order is
determined by the names and the edges.
-/

set_option autoImplicit false

namespace ServiceHost

namespace Graph

/-- By the bytes of the names, and by position where the names are the same. -/
def Precedes (graph : Graph) (position other : Nat) : Prop :=
  Text.bytes (graph.nameAt position) < Text.bytes (graph.nameAt other) ∨
    graph.nameAt position = graph.nameAt other ∧ position < other

/-- It is the turn of a position: it precedes all others that are free. -/
structure Due (graph : Graph) (placed : List Nat) (position : Nat) : Prop where
  free : graph.Free placed position
  precedes : ∀ other, graph.Free placed other → other ≠ position → graph.Precedes position other

/-- Every position stands where it is due, once all before it are placed. -/
def InTurn (graph : Graph) (order : List Nat) : Prop :=
  ∀ k position, order[k]? = some position → graph.Due (order.take k) position

variable {graph : Graph}

/-! ## Precedence -/

theorem precedes_iff {position other : Nat} :
    graph.Precedes position other ↔ graph.goesBefore position other = true := by
  rw [goesBefore_iff, Precedes, Text.bytes_lt_iff]

theorem Precedes.asymm {position other : Nat} (h : graph.Precedes position other) :
    ¬ graph.Precedes other position := by
  rw [precedes_iff] at h ⊢
  intro hback
  have := goesBefore_trans h hback
  simp [not_goesBefore_self] at this

theorem precedes_or_precedes {position other : Nat} (hne : position ≠ other) :
    graph.Precedes position other ∨ graph.Precedes other position := by
  rw [precedes_iff, precedes_iff]
  cases h : graph.goesBefore position other with
  | true => exact Or.inl rfl
  | false => exact Or.inr (goesBefore_of_ne hne h)

/-! ## Turns -/

theorem Due.unique {placed : List Nat} {position other : Nat} (h : graph.Due placed position)
    (ho : graph.Due placed other) : position = other := by
  by_cases heq : position = other
  · exact heq
  · have hp := h.precedes other ho.free (Ne.symm heq)
    exact absurd (ho.precedes position h.free heq) hp.asymm

theorem inTurn_concat {order : List Nat} {position : Nat} :
    graph.InTurn (order ++ [position]) ↔ graph.InTurn order ∧ graph.Due order position := by
  constructor
  · intro h
    constructor
    · intro k other hk
      have hlt : k < order.length := (List.getElem?_eq_some_iff.mp hk).1
      have := h k other (by rw [List.getElem?_append_left hlt, hk])
      rwa [List.take_append_of_le_length (Nat.le_of_lt hlt)] at this
    · simpa using h order.length position List.getElem?_concat_length
  · rintro ⟨h, hdue⟩ k other hk
    rcases Nat.lt_or_ge k order.length with hlt | hge
    · rw [List.getElem?_append_left hlt] at hk
      rw [List.take_append_of_le_length (Nat.le_of_lt hlt)]
      exact h k other hk
    · have hlast : k = order.length := by
        have := (List.getElem?_eq_some_iff.mp hk).1
        rw [List.length_append, List.length_singleton] at this
        omega
      subst hlast
      obtain rfl : position = other := by simpa using hk
      simpa using hdue

/-- **Two lists of one length that keep to the turns are the same list.** -/
theorem InTurn.unique {first second : List Nat} (hf : graph.InTurn first)
    (hs : graph.InTurn second) (hl : first.length = second.length) : first = second := by
  induction first using List.reverseRecOn generalizing second with
  | nil => exact (List.length_eq_zero_iff.mp hl.symm).symm
  | append_singleton front position ih =>
    cases second using List.reverseRecOn with
    | nil => simp at hl
    | append_singleton front' other =>
      obtain ⟨hfront, hdue⟩ := inTurn_concat.mp hf
      obtain ⟨hfront', hdue'⟩ := inTurn_concat.mp hs
      have heq : front = front' := ih hfront hfront' (by simpa using hl)
      subst heq
      rw [hdue.unique hdue']

/-- What depends on nothing is free from the start, so it is placed as soon as it precedes. -/
theorem InTurn.idxOf_lt_of_precedes {order : List Nat} (h : graph.InTurn order)
    {position other : Nat} (hp : position < graph.size) (ho : other ∈ order)
    (hfree : graph.dependenciesOf position = []) (hprecedes : graph.Precedes position other) :
    order.idxOf position < order.idxOf other := by
  by_contra hge
  have hdue := h _ _ (List.getElem?_idxOf ho)
  have hnot : position ∉ order.take (order.idxOf other) := by
    intro hmem
    have := (List.mem_take_iff_idxOf_lt (List.mem_of_mem_take hmem)).mp hmem
    exact hge this
  have hne : position ≠ other := by
    rintro rfl
    exact hprecedes.asymm hprecedes
  have hwait : graph.Free (order.take (order.idxOf other)) position :=
    ⟨hp, hnot, by simp [DependsOn, hfree]⟩
  exact hprecedes.asymm (hdue.precedes position hwait hne)

/-! ## A run keeps to the turns -/

namespace Placement

theorem Keeps.due {placement : Placement} (h : Keeps graph [] placement) {position : Nat}
    {rest : List Nat} (hr : placement.ready = position :: rest) :
    graph.Due placement.placed position := by
  have hmem : position ∈ placement.ready := by simp [hr]
  refine ⟨h.mem_ready_iff_free.mp hmem, ?_⟩
  intro other hfree hne
  have hother : other ∈ placement.ready := h.mem_ready_iff_free.mpr hfree
  rw [hr, List.mem_cons] at hother
  have hsorted := hr ▸ h.sorted
  exact precedes_iff.mpr ((List.pairwise_cons.mp hsorted).1 other (hother.resolve_left hne))

theorem Keeps.inTurn_step {placement : Placement} (h : Keeps graph [] placement)
    (ht : graph.InTurn placement.placed) : graph.InTurn (placement.step graph).placed := by
  cases hr : placement.ready with
  | nil =>
    rw [step_of_ready_eq_nil hr]
    exact ht
  | cons position rest =>
    rw [placed_step hr]
    exact inTurn_concat.mpr ⟨ht, h.due hr⟩

/-- By induction on the steps, each of which keeps the invariant of a run as well. -/
theorem Keeps.inTurn_steps (wf : graph.WellFormed) : ∀ (n : Nat) {placement : Placement},
    Keeps graph [] placement → graph.InTurn placement.placed →
      graph.InTurn (placement.steps graph n).placed
  | 0, _, _, ht => ht
  | n + 1, _, h, ht => (h.step wf).1.inTurn_steps wf n (h.inTurn_step ht)

theorem inTurn_finish (wf : graph.WellFormed) : graph.InTurn (finish graph).placed := by
  have hstart : graph.InTurn (start graph).placed := by
    intro k position hk
    simp [start] at hk
  exact (keeps_start wf).inTurn_steps wf graph.size hstart

end Placement

/-- **Ties are broken exactly.** Without a cycle there is an order; each position in it precedes
all others that are free once those before it are placed; no other list does so; and modules that
depend on nothing stand by name and then by position, whatever the other modules are. -/
theorem order_in_turn {modules : List Hosted} {registry : Registry} {graph : Graph}
    (h : build modules registry = .ok graph) (ha : graph.Acyclic) :
    ∃ order, graph.order = .ok order ∧ order.length = modules.length ∧
      (∀ k position, order[k]? = some position → graph.Due (order.take k) position) ∧
      (∀ other, graph.InTurn other → other.length = modules.length → other = order) ∧
      (∀ position other, position < modules.length → other < modules.length → position ≠ other →
        graph.dependenciesOf position = [] → graph.dependenciesOf other = [] →
        (order.idxOf position < order.idxOf other ↔ graph.Precedes position other)) := by
  have wf := wellFormed_of_build h
  have hsize := size_of_build h
  have horder : graph.order = .ok (Placement.finish graph).placed :=
    order_eq_ok_iff.mpr ⟨(acyclic_iff_complete wf).mp ha, rfl⟩
  have hturn := Placement.inTurn_finish wf
  have hperm := (perm_and_respects_of_order wf horder).1
  have hlength : (Placement.finish graph).placed.length = modules.length := by
    rw [hperm.length_eq, List.length_range, hsize]
  refine ⟨_, horder, hlength, hturn, ?_, ?_⟩
  · intro other ho hl
    exact ho.unique hturn (hl.trans hlength.symm)
  · intro position other hp ho hne hfree hfree'
    rw [← hsize] at hp ho
    constructor
    · intro hlt
      rcases precedes_or_precedes hne with hprecedes | hprecedes
      · exact hprecedes
      · have hmem := hperm.mem_iff.mpr (List.mem_range.mpr hp)
        have := hturn.idxOf_lt_of_precedes ho hmem hfree' hprecedes
        omega
    · intro hprecedes
      have hmem := hperm.mem_iff.mpr (List.mem_range.mpr ho)
      exact hturn.idxOf_lt_of_precedes hp hmem hfree hprecedes

/-- Two free modules of one name, and one that is released before their turn and precedes them. -/
def releasedFirst : List Hosted :=
  [ { name := "web", kind := "web" },
    { name := "store", kind := "store", provides := ["test:store"] },
    { name := "web", kind := "web" },
    { name := "app", kind := "app", requires := [{ capability := "test:store" }] } ].map
    Hosted.fresh

theorem order_releasedFirst :
    build releasedFirst {} = .ok ⟨["web", "store", "web", "app"], [[], [], [], [1]]⟩ ∧
    Graph.Acyclic ⟨["web", "store", "web", "app"], [[], [], [], [1]]⟩ ∧
    Graph.order ⟨["web", "store", "web", "app"], [[], [], [], [1]]⟩ = .ok [1, 3, 0, 2] ∧
    Graph.Due ⟨["web", "store", "web", "app"], [[], [], [], [1]]⟩ [1] 3 ∧
    Graph.Precedes ⟨["web", "store", "web", "app"], [[], [], [], [1]]⟩ 0 2 := by
  have hb : build releasedFirst {} =
      .ok ⟨["web", "store", "web", "app"], [[], [], [], [1]]⟩ := by decide +kernel
  have ho : Graph.order ⟨["web", "store", "web", "app"], [[], [], [], [1]]⟩ =
      .ok [1, 3, 0, 2] := by rfl
  have ha : Graph.Acyclic ⟨["web", "store", "web", "app"], [[], [], [], [1]]⟩ := by
    exact (acyclic_iff_complete (wellFormed_of_build hb)).mpr (order_eq_ok_iff.mp ho).1
  obtain ⟨order, horder, _, hdue, _, hfree⟩ := order_in_turn hb ha
  obtain rfl := Except.ok.inj (ho.symm.trans horder)
  refine ⟨hb, ha, ho, hdue 1 3 rfl, ?_⟩
  exact (hfree 0 2 (by decide) (by decide) (by decide) rfl rfl).mp (by decide)

end Graph

end ServiceHost
