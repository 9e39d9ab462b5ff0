import ServiceHost.Proofs.Graph.Order
import Mathlib.Data.List.Chain

/-!
# Cycles — what is reported as a cycle is one

When a run leaves positions out, **each of them waits for another one that is left out**, so a walk
along what they wait for never comes to a stop; and there are only so many positions, so it comes
back to one that it has seen. `walkCycle` carries a bound and two answers for a walk that stops.
`Walks` is the same walk with none of the three: it has only the rules for going on and for coming
back, and counts its steps. **The walk that is taken is of this kind** (`Trail.walks`), so the bound
is never met and the walk never stops.

What was seen from the position on that comes round again is the cycle; the way to it is cut off,
as the first position need not lie on it.
-/

set_option autoImplicit false

namespace ServiceHost

namespace Graph

/-- Distinct positions, each of which depends on the next one, and the last one on the first. -/
structure IsCycle (graph : Graph) (cycle : List Nat) : Prop where
  nodup : cycle.Nodup
  two_le_length : 2 ≤ cycle.length
  follows : cycle.IsChain graph.DependsOn
  closes : ∀ first ∈ cycle.head?, ∀ last ∈ cycle.getLast?, graph.DependsOn last first

/-- The walk along the first dependency that is `stuck`: from `position`, to which it has come along
`path`, it takes `steps` steps until a position comes round again, and finds `cycle`. -/
inductive Walks (graph : Graph) (stuck : Nat → Bool) :
    (path : List Nat) → (position steps : Nat) → (cycle : List Nat) → Prop
  | again {path : List Nat} {position : Nat} (hm : position ∈ path) :
      Walks graph stuck path position 0 (path.dropWhile (· ≠ position))
  | on {path : List Nat} {position next steps : Nat} {cycle : List Nat} (hm : position ∉ path)
      (hn : (graph.dependenciesOf position).find? stuck = some next)
      (hw : Walks graph stuck (path ++ [position]) next steps cycle) :
      Walks graph stuck path position (steps + 1) cycle

/-- What holds of a walk that has come along `path` to `position`. -/
structure Trail (graph : Graph) (stuck : Nat → Bool) (path : List Nat) (position : Nat) : Prop where
  nodup : path.Nodup
  lt_size : ∀ other ∈ path ++ [position], other < graph.size
  follows : (path ++ [position]).IsChain graph.DependsOn
  stuck : stuck position = true

/-- A position that is stuck depends on another one that is. -/
def KeepsStuck (graph : Graph) (stuck : Nat → Bool) : Prop :=
  ∀ position < graph.size, stuck position = true →
    ∃ other, graph.DependsOn position other ∧ stuck other = true

variable {graph : Graph} {stuck : Nat → Bool} {path cycle : List Nat} {position steps : Nat}

/-! ## Walks -/

theorem trail_start (hlt : position < graph.size) (hs : stuck position = true) :
    Trail graph stuck [] position where
  nodup := List.nodup_nil
  lt_size := by simpa using hlt
  follows := List.IsChain.singleton position
  stuck := hs

theorem Trail.nodup_append (h : Trail graph stuck path position) (hm : position ∉ path) :
    (path ++ [position]).Nodup := by
  refine List.nodup_append.mpr ⟨h.nodup, List.nodup_singleton position, ?_⟩
  intro other ho last hl heq
  rw [List.mem_singleton.mp hl] at heq
  exact hm (heq ▸ ho)

theorem Trail.length_le (h : Trail graph stuck path position) : path.length ≤ graph.size := by
  have hlt : ∀ other ∈ path, other < graph.size := by
    intro other ho
    exact h.lt_size other (List.mem_append_left _ ho)
  simpa using (subperm_range h.nodup hlt).length_le

/-- A walk has only so many positions to see. -/
theorem Trail.length_lt (h : Trail graph stuck path position) (hm : position ∉ path) :
    path.length < graph.size := by
  have hle := (subperm_range (h.nodup_append hm) h.lt_size).length_le
  rw [List.length_append, List.length_singleton, List.length_range] at hle
  exact hle

/-- A step goes on to a dependency that is stuck as well. -/
theorem Trail.on (wf : graph.WellFormed) (h : Trail graph stuck path position) {next : Nat}
    (hm : position ∉ path) (hn : (graph.dependenciesOf position).find? stuck = some next) :
    Trail graph stuck (path ++ [position]) next := by
  have hd : graph.DependsOn position next := List.mem_of_find?_eq_some hn
  refine ⟨h.nodup_append hm, ?_, ?_, List.find?_some hn⟩
  · intro other ho
    rcases List.mem_append.mp ho with ho | ho
    · exact h.lt_size other ho
    · rw [List.mem_singleton.mp ho]
      exact wf.lt_size position next hd
  · refine List.isChain_append.mpr ⟨h.follows, List.IsChain.singleton next, ?_⟩
    simpa using hd

theorem Trail.exists_next (hk : graph.KeepsStuck stuck) (h : Trail graph stuck path position) :
    ∃ next, (graph.dependenciesOf position).find? stuck = some next := by
  have hlt : position < graph.size := h.lt_size position (by simp)
  obtain ⟨other, hd, ho⟩ := hk position hlt h.stuck
  apply Option.isSome_iff_exists.mp
  exact List.find?_isSome.mpr ⟨other, hd, ho⟩

/-- **The walk that is taken goes on until a position comes round again**, in no more steps than
there are positions that it has not seen. The induction is on the bound, which is never met. -/
theorem Trail.walks (wf : graph.WellFormed) (hk : graph.KeepsStuck stuck) :
    ∀ (fuel : Nat) {path : List Nat} {position : Nat}, Trail graph stuck path position →
      graph.size ≤ path.length + fuel →
      ∃ steps, path.length + steps ≤ graph.size ∧
        Walks graph stuck path position steps (graph.walkCycle stuck (fuel + 1) path position) := by
  intro fuel
  induction fuel with
  | zero =>
    intro path position h hf
    by_cases hm : position ∈ path
    · refine ⟨0, h.length_le, ?_⟩
      simpa [walkCycle, hm] using Walks.again hm
    · have := h.length_lt hm
      omega
  | succ fuel ih =>
    intro path position h hf
    unfold walkCycle
    by_cases hm : position ∈ path
    · refine ⟨0, h.length_le, ?_⟩
      simpa [hm] using Walks.again hm
    · obtain ⟨next, hn⟩ := h.exists_next hk
      obtain ⟨steps, hle, hw⟩ := ih (h.on wf hm hn) (by simp; omega)
      refine ⟨steps + 1, ?_, ?_⟩
      · rw [List.length_append, List.length_singleton] at hle
        omega
      · simpa [hm, hn] using Walks.on hm hn hw

/-- What was seen from the position on that comes round again is a cycle. -/
theorem Trail.isCycle (hself : ∀ position, ¬ graph.DependsOn position position)
    {before after : List Nat} (h : Trail graph stuck (before ++ position :: after) position) :
    graph.IsCycle (position :: after) := by
  have hround : (position :: after ++ [position]).IsChain graph.DependsOn := by
    have hfollows := h.follows
    rw [List.append_assoc] at hfollows
    exact hfollows.right_of_append
  obtain ⟨hfollows, _, hcloses⟩ := List.isChain_append.mp hround
  have hcloses : ∀ last ∈ (position :: after).getLast?, graph.DependsOn last position := by
    intro last hlast
    exact hcloses last hlast position (by simp)
  refine ⟨(List.nodup_append.mp h.nodup).2.1, ?_, hfollows, ?_⟩
  · -- A cycle of one position would be a position that depends on itself.
    cases after with
    | nil => exact absurd (hcloses position (by simp)) (hself position)
    | cons next rest => simp
  · intro first hfirst last hlast
    obtain rfl : position = first := by simpa using hfirst
    exact hcloses last hlast

theorem dropWhile_append_cons {before after : List Nat} (h : position ∉ before) :
    (before ++ position :: after).dropWhile (· ≠ position) = position :: after := by
  have hbefore : ∀ other ∈ before, decide (other ≠ position) = true := by
    intro other ho
    have hne : other ≠ position := by
      rintro rfl
      exact h ho
    simpa using hne
  rw [List.dropWhile_append_of_pos hbefore]
  simp

/-- **A walk ends in a cycle**, whatever the way to it. -/
theorem Walks.isCycle (wf : graph.WellFormed)
    (hself : ∀ position, ¬ graph.DependsOn position position)
    (hw : Walks graph stuck path position steps cycle) (h : Trail graph stuck path position) :
    graph.IsCycle cycle ∧ ∀ other ∈ cycle, other < graph.size := by
  induction hw with
  | on hm hn _ ih => exact ih (h.on wf hm hn)
  | again hm =>
    obtain ⟨before, after, rfl, hb⟩ := List.eq_append_cons_of_mem hm
    rw [dropWhile_append_cons hb]
    refine ⟨h.isCycle hself, ?_⟩
    intro other ho
    exact h.lt_size other (List.mem_append_left _ (List.mem_append_right before ho))

/-! ## What a run leaves out -/

namespace Placement

/-- A position still waits for something. -/
def waits (placement : Placement) (position : Nat) : Bool :=
  0 < placement.pendingAt position

/-- **What waits when a run is over is exactly what is left out.** -/
theorem waits_finish_iff (wf : graph.WellFormed) (hlt : position < graph.size) :
    (finish graph).waits position = true ↔ position ∉ (finish graph).placed := by
  have hk := keeps_finish wf
  rw [waits, decide_eq_true_iff, Nat.pos_iff_ne_zero, ne_eq, hk.pendingAt_eq_zero_iff hlt]
  constructor
  · intro hw hp
    exact hw fun other hd => hk.respects.mem_of_dependsOn hp hd
  · intro hp hall
    have hr := hk.mem_ready_iff_free.mpr ⟨hlt, hp, hall⟩
    simp [ready_finish wf] at hr

theorem keepsStuck_finish (wf : graph.WellFormed) : graph.KeepsStuck (finish graph).waits := by
  intro position hlt hw
  obtain ⟨other, hd, ho⟩ :=
    exists_dependsOn_of_not_mem_finish wf hlt ((waits_finish_iff wf hlt).mp hw)
  exact ⟨other, hd, (waits_finish_iff wf (wf.lt_size position other hd)).mpr ho⟩

end Placement

theorem exists_least? {positions : List Nat} (hm : position ∈ positions) :
    ∃ least, graph.least? positions = some least ∧ least ∈ positions := by
  rw [← mem_foldr_insertReady] at hm
  unfold least?
  cases hready : positions.foldr graph.insertReady [] with
  | nil =>
    rw [hready] at hm
    cases hm
  | cons least rest =>
    refine ⟨least, rfl, ?_⟩
    rw [← mem_foldr_insertReady, hready]
    exact List.mem_cons_self

/-- The walk has a start: as long as not all are placed, something waits. -/
theorem exists_start (wf : graph.WellFormed)
    (hlt : (Placement.finish graph).placed.length < graph.size) :
    ∃ start, graph.least? ((List.range graph.size).filter (Placement.finish graph).waits) =
        some start ∧ start < graph.size ∧ (Placement.finish graph).waits start = true := by
  obtain ⟨position, hp, hnot⟩ := Placement.exists_not_mem_of_length_lt hlt
  have hmem : position ∈ (List.range graph.size).filter (Placement.finish graph).waits :=
    List.mem_filter.mpr
      ⟨List.mem_range.mpr hp, (Placement.waits_finish_iff wf hp).mpr hnot⟩
  obtain ⟨start, hstart, hm⟩ := exists_least? hmem
  rw [List.mem_filter, List.mem_range] at hm
  exact ⟨start, hstart, hm⟩

theorem findCycle_eq {start : Nat} (placement : Placement)
    (h : graph.least? ((List.range graph.size).filter placement.waits) = some start) :
    graph.findCycle placement =
      graph.walkCycle placement.waits (graph.size + 1) [] start := by
  unfold Placement.waits at h
  simp only [findCycle, h]
  rfl

/-- **A reported cycle is a cycle, and it is found.** An order that cannot be made is reported with
the names of distinct modules, at least two, each of which depends on the next one and the last one
on the first. The walk that finds them has a start, never stops at a module that waits for nothing,
and sees as many modules as there are at the most. -/
theorem reported_cycle {modules : List Hosted} {registry : Registry} {graph : Graph}
    {error : BootError} (h : build modules registry = .ok graph) (he : graph.order = .error error) :
    ∃ cycle, error = .cyclic (cycle.map graph.nameAt) ∧ graph.IsCycle cycle ∧
      (∀ position ∈ cycle, ∃ hosted, modules[position]? = some hosted ∧
        graph.nameAt position = hosted.name) ∧
      ∃ start steps,
        graph.least? ((List.range graph.size).filter (Placement.finish graph).waits) =
          some start ∧
        Walks graph (Placement.finish graph).waits [] start steps cycle ∧
        steps ≤ modules.length := by
  have wf := wellFormed_of_build h
  have hself : ∀ position, ¬ graph.DependsOn position position := by
    intro position hd
    obtain ⟨_, _, _, _, hne, _⟩ := (dependsOn_iff_of_build h).mp hd
    exact hne rfl
  rw [order_eq] at he
  split at he
  · rename_i hlt
    obtain ⟨start, hstart, hs, hw⟩ := exists_start wf hlt
    have htrail := trail_start hs hw
    obtain ⟨steps, hsteps, hwalks⟩ :=
      htrail.walks wf (Placement.keepsStuck_finish wf) graph.size (by simp)
    rw [← findCycle_eq _ hstart] at hwalks
    obtain ⟨hcycle, hrange⟩ := hwalks.isCycle wf hself htrail
    rw [size_of_build h] at hsteps
    refine ⟨_, (Except.error.inj he).symm, hcycle, ?_, start, steps, hstart, hwalks, ?_⟩
    · intro position hp
      have hlt := hrange position hp
      rw [size_of_build h] at hlt
      have hp := List.getElem?_eq_getElem hlt
      exact ⟨modules[position], hp, nameAt_of_build h hp⟩
    · simpa using hsteps
  · cases he

/-- Two modules of one name that need each other, and a module in front of them that needs one. -/
def mirroredStores : List Hosted :=
  [ { name := "app", kind := "app", requires := [{ capability := "test:front" }] },
    { name := "store", kind := "store", provides := ["test:front"],
      requires := [{ capability := "test:back" }] },
    { name := "store", kind := "store", provides := ["test:back"],
      requires := [{ capability := "test:front", required := false }] } ].map Hosted.fresh

theorem reported_mirroredStores :
    build mirroredStores {} = .ok ⟨["app", "store", "store"], [[1], [2], [1]]⟩ ∧
    Graph.order ⟨["app", "store", "store"], [[1], [2], [1]]⟩ =
      .error (.cyclic ["store", "store"]) ∧
    ∃ cycle : List Nat,
      ["store", "store"] = cycle.map (Graph.nameAt ⟨["app", "store", "store"], [[1], [2], [1]]⟩) ∧
      Graph.IsCycle ⟨["app", "store", "store"], [[1], [2], [1]]⟩ cycle := by
  have hb : build mirroredStores {} = .ok ⟨["app", "store", "store"], [[1], [2], [1]]⟩ := by
    decide +kernel
  have ho : Graph.order ⟨["app", "store", "store"], [[1], [2], [1]]⟩ =
      .error (.cyclic ["store", "store"]) := by rfl
  obtain ⟨cycle, hnames, hcycle, _⟩ := reported_cycle hb ho
  exact ⟨hb, ho, cycle, BootError.cyclic.inj hnames, hcycle⟩

end Graph

end ServiceHost
