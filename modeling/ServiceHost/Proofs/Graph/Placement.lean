import ServiceHost.Boot.Order
import ServiceHost.Proofs.Graph.Edges
import Mathlib.Data.List.Perm.Subperm

/-!
# Placements — the one invariant of an order that is being built

`Placement.step` takes the first ready position and tells its dependents, one by one, that they
wait for one thing less. Between two tellings the counters are *not* what they count, so the
invariant carries the dependents that are still to be told:

    pendingAt p = (dependencies of p that are not placed) + (1 if p is still to be told)

That is `Keeps graph waiting placement`. With it **a position is ready exactly when it is not
placed and its counter is zero**, in the middle of a step as well as between two steps; and between
two steps, when nobody is still to be told, **exactly when it is free** (`Keeps.mem_ready_iff_free`):
the queue is then all that could be placed. `release` takes one position off `waiting`
(`Keeps.release`), `step` puts all dependents of a position on it and takes them off again
(`Keeps.step`), and a whole run keeps it with nothing waiting (`keeps_finish`).

A counter is a natural number here and a position without a counter reads as zero, so a counter
taken below zero or a position out of range would pass unseen. `release?`, `step?` and `steps?`
are the same run with each of these refused, and **nothing is ever refused**
(`steps?_eq_some_finish`).
-/

set_option autoImplicit false

namespace ServiceHost

namespace Graph

variable {graph : Graph}

/-- Distinct positions in range are some of the positions. -/
theorem subperm_range {positions : List Nat} {n : Nat} (hn : positions.Nodup)
    (hlt : ∀ position ∈ positions, position < n) : positions.Subperm (List.range n) :=
  List.subperm_of_subset hn fun position hp => List.mem_range.mpr (hlt position hp)

/-! ## The queue of ready positions -/

theorem goesBefore_iff {position other : Nat} :
    graph.goesBefore position other = true ↔
      graph.nameAt position < graph.nameAt other ∨
        (graph.nameAt position = graph.nameAt other ∧ position < other) := by
  simp [goesBefore]

theorem not_goesBefore_self (graph : Graph) (position : Nat) :
    graph.goesBefore position position = false := by
  simp [goesBefore]

theorem goesBefore_trans {a b c : Nat} (hab : graph.goesBefore a b = true)
    (hbc : graph.goesBefore b c = true) : graph.goesBefore a c = true := by
  rw [goesBefore_iff] at *
  rcases hab with hab | ⟨hab, hlt⟩ <;> rcases hbc with hbc | ⟨hbc, hlt'⟩
  · exact Or.inl (String.lt_trans hab hbc)
  · exact Or.inl (hbc ▸ hab)
  · exact Or.inl (hab ▸ hbc)
  · exact Or.inr ⟨hab.trans hbc, Nat.lt_trans hlt hlt'⟩

/-- Of two positions one goes before the other. -/
theorem goesBefore_of_ne {a b : Nat} (hne : a ≠ b) (h : graph.goesBefore a b = false) :
    graph.goesBefore b a = true := by
  rw [← Bool.not_eq_true, goesBefore_iff, not_or, not_and] at h
  rw [goesBefore_iff]
  by_cases hn : graph.nameAt b < graph.nameAt a
  · exact Or.inl hn
  · have heq : graph.nameAt a = graph.nameAt b :=
      String.le_antisymm (String.not_lt.mp hn) (String.not_lt.mp h.1)
    have := h.2 heq
    exact Or.inr ⟨heq.symm, by omega⟩

theorem insertReady_perm (graph : Graph) (position : Nat) :
    ∀ ready : List Nat, (graph.insertReady position ready).Perm (position :: ready)
  | [] => List.Perm.refl _
  | other :: rest => by
    unfold insertReady
    split
    · exact List.Perm.refl _
    · exact ((insertReady_perm graph position rest).cons other).trans (List.Perm.swap _ _ _)

theorem mem_insertReady {position other : Nat} {ready : List Nat} :
    other ∈ graph.insertReady position ready ↔ other = position ∨ other ∈ ready := by
  rw [(insertReady_perm graph position ready).mem_iff, List.mem_cons]

/-- The queue is in order: each position goes before all behind it. -/
def Sorted (graph : Graph) (ready : List Nat) : Prop :=
  ready.Pairwise fun position other => graph.goesBefore position other = true

theorem Sorted.insertReady {position : Nat} {ready : List Nat} (hs : graph.Sorted ready)
    (hn : position ∉ ready) : graph.Sorted (graph.insertReady position ready) := by
  induction ready with
  | nil => exact List.pairwise_singleton _ _
  | cons other rest ih =>
    obtain ⟨hother, hrest⟩ := List.pairwise_cons.mp hs
    rw [List.mem_cons, not_or] at hn
    unfold Graph.insertReady
    split
    · rename_i hlt
      refine List.pairwise_cons.mpr ⟨?_, hs⟩
      intro third hthird
      rcases List.mem_cons.mp hthird with rfl | hthird
      · exact hlt
      · exact goesBefore_trans hlt (hother third hthird)
    · rename_i hlt
      refine List.pairwise_cons.mpr ⟨?_, ih hrest hn.2⟩
      intro third hthird
      rcases mem_insertReady.mp hthird with rfl | hthird
      · exact goesBefore_of_ne hn.1 (by simpa using hlt)
      · exact hother third hthird

theorem Sorted.nodup {ready : List Nat} (hs : graph.Sorted ready) : ready.Nodup := by
  apply hs.imp
  rintro position _ hb rfl
  rw [not_goesBefore_self] at hb
  exact absurd hb (by simp)

theorem mem_foldr_insertReady {position : Nat} {positions : List Nat} :
    position ∈ positions.foldr graph.insertReady [] ↔ position ∈ positions := by
  induction positions with
  | nil => simp
  | cons other rest ih => rw [List.foldr_cons, mem_insertReady, ih, List.mem_cons]

theorem sorted_foldr_insertReady {positions : List Nat} (hn : positions.Nodup) :
    graph.Sorted (positions.foldr graph.insertReady []) := by
  induction positions with
  | nil => exact List.Pairwise.nil
  | cons position rest ih =>
    obtain ⟨hp, hrest⟩ := List.nodup_cons.mp hn
    exact (ih hrest).insertReady (fun hm => hp (mem_foldr_insertReady.mp hm))

namespace Placement

/-! ## The invariant -/

/-- How many dependencies of a position are not placed. -/
def missing (graph : Graph) (placement : Placement) (position : Nat) : Nat :=
  (graph.dependenciesOf position).countP fun other => decide (other ∉ placement.placed)

/-- What holds of a placement while the positions in `waiting` have not been told yet that the
last placed one is there. -/
structure Keeps (graph : Graph) (waiting : List Nat) (placement : Placement) : Prop where
  length_eq : placement.pending.length = graph.size
  placed_lt : ∀ position ∈ placement.placed, position < graph.size
  placed_nodup : placement.placed.Nodup
  pendingAt_eq : ∀ position < graph.size, placement.pendingAt position =
    placement.missing graph position + (if position ∈ waiting then 1 else 0)
  mem_ready_iff : ∀ position, position ∈ placement.ready ↔
    position < graph.size ∧ position ∉ placement.placed ∧ placement.pendingAt position = 0
  sorted : graph.Sorted placement.ready
  respects : graph.Respects placement.placed

theorem missing_eq_zero_iff {placement : Placement} {position : Nat} :
    placement.missing graph position = 0 ↔
      ∀ other, graph.DependsOn position other → other ∈ placement.placed := by
  simp [missing, List.countP_eq_zero, DependsOn]

/-- Of a list without repetitions, a placed position takes away the one place where it stands. -/
theorem countP_not_mem_append {placed : List Nat} {position : Nat} (hp : position ∉ placed) :
    ∀ {others : List Nat}, others.Nodup →
      others.countP (fun other => decide (other ∉ placed)) =
        others.countP (fun other => decide (other ∉ placed ++ [position])) +
          (if position ∈ others then 1 else 0)
  | [], _ => by simp
  | other :: rest, hn => by
    obtain ⟨ho, hrest⟩ := List.nodup_cons.mp hn
    rw [List.countP_cons, List.countP_cons, countP_not_mem_append hp hrest]
    by_cases heq : position = other
    · subst heq
      simp [ho, hp]
    · have hsame : decide (other ∉ placed ++ [position]) = decide (other ∉ placed) := by
        have hne : other ≠ position := fun he => heq he.symm
        simp [hne]
      rw [hsame]
      simp only [List.mem_cons, heq, false_or]
      omega

/-- When nobody is still to be told, a counter is zero if all that it counts is placed. -/
theorem Keeps.pendingAt_eq_zero_iff {placement : Placement} (h : Keeps graph [] placement)
    {position : Nat} (hlt : position < graph.size) :
    placement.pendingAt position = 0 ↔
      ∀ other, graph.DependsOn position other → other ∈ placement.placed := by
  have hm := h.pendingAt_eq position hlt
  simp only [List.not_mem_nil, if_false, Nat.add_zero] at hm
  rw [hm, missing_eq_zero_iff]

/-- **What is ready is exactly what is free.** -/
theorem Keeps.mem_ready_iff_free {placement : Placement} (h : Keeps graph [] placement)
    {position : Nat} : position ∈ placement.ready ↔ graph.Free placement.placed position := by
  rw [h.mem_ready_iff]
  constructor
  · rintro ⟨hlt, hp, hz⟩
    exact ⟨hlt, hp, (h.pendingAt_eq_zero_iff hlt).mp hz⟩
  · rintro ⟨hlt, hp, hw⟩
    exact ⟨hlt, hp, (h.pendingAt_eq_zero_iff hlt).mpr hw⟩

/-! ## Releasing -/

theorem pendingAt_set {placement : Placement} {position left : Nat}
    (hlt : position < placement.pending.length) (other : Nat) :
    ({ placement with pending := placement.pending.set position left }).pendingAt other =
      if other = position then left else placement.pendingAt other := by
  unfold pendingAt
  by_cases h : other = position
  · subst h
    simp [hlt]
  · simp [h, List.getElem?_set_ne (fun he => h he.symm)]

@[simp] theorem placed_release (graph : Graph) (placement : Placement) (position : Nat) :
    (release graph placement position).placed = placement.placed := rfl

theorem pendingAt_release {placement : Placement} {position : Nat}
    (hlt : position < placement.pending.length) (other : Nat) :
    (release graph placement position).pendingAt other =
      if other = position then placement.pendingAt position - 1 else placement.pendingAt other :=
  pendingAt_set hlt other

theorem mem_ready_release {placement : Placement} {position other : Nat} :
    other ∈ (release graph placement position).ready ↔
      (other = position ∧ placement.pendingAt position - 1 = 0) ∨ other ∈ placement.ready := by
  by_cases hz : placement.pendingAt position - 1 = 0 <;> simp [release, hz, mem_insertReady]

/-- A position that is told waits for something: its counter does not go below zero. -/
theorem Keeps.pendingAt_pos {position : Nat} {waiting : List Nat} {placement : Placement}
    (h : Keeps graph (position :: waiting) placement) (hlt : position < graph.size) :
    0 < placement.pendingAt position := by
  have := h.pendingAt_eq position hlt
  simp only [List.mem_cons, true_or, if_true] at this
  omega

/-- Telling a position that waits keeps the invariant. -/
theorem Keeps.release {position : Nat} {waiting : List Nat} {placement : Placement}
    (h : Keeps graph (position :: waiting) placement) (hw : position ∉ waiting)
    (hlt : position < graph.size) (hp : position ∉ placement.placed) :
    Keeps graph waiting (release graph placement position) := by
  have hpos := h.pendingAt_pos hlt
  have hlen : position < placement.pending.length := h.length_eq ▸ hlt
  -- A positive counter means that the position is not ready yet, so it is queued only once.
  have hnot : position ∉ placement.ready := by
    intro hr
    have := ((h.mem_ready_iff position).mp hr).2.2
    omega
  refine ⟨?_, h.placed_lt, h.placed_nodup, ?_, ?_, ?_, h.respects⟩
  · exact (List.length_set ..).trans h.length_eq
  · intro other hother
    have ho := h.pendingAt_eq other hother
    rw [pendingAt_release hlen]
    show _ = placement.missing graph other + _
    by_cases he : other = position
    · subst he
      simp only [List.mem_cons, true_or, if_true] at ho
      simp only [if_true, if_neg hw]
      omega
    · simpa [he] using ho
  · intro other
    rw [mem_ready_release, h.mem_ready_iff, pendingAt_release hlen, placed_release]
    by_cases he : other = position
    · subst he
      simp only [true_and, if_true, hlt, hp, not_false_eq_true]
      omega
    · simp [he]
  · show graph.Sorted (if _ then _ else _)
    split
    · exact h.sorted.insertReady hnot
    · exact h.sorted

/-- A release that refuses a position out of range and a counter that is zero. -/
def release? (graph : Graph) (placement : Placement) (position : Nat) : Option Placement :=
  if position < graph.size ∧ position < placement.pending.length ∧
      0 < placement.pendingAt position then
    some (release graph placement position)
  else none

/-- Telling all that wait keeps the invariant, and none of them is refused. -/
theorem Keeps.releaseAll : ∀ {waiting : List Nat} {placement : Placement},
    Keeps graph waiting placement → waiting.Nodup →
    (∀ position ∈ waiting, position < graph.size ∧ position ∉ placement.placed) →
    Keeps graph [] (waiting.foldl (Placement.release graph) placement) ∧
      waiting.foldlM (release? graph) placement =
        some (waiting.foldl (Placement.release graph) placement)
  | [], _, h, _, _ => ⟨h, rfl⟩
  | position :: waiting, placement, h, hn, hw => by
    obtain ⟨hnot, hn⟩ := List.nodup_cons.mp hn
    obtain ⟨hlt, hp⟩ := hw position List.mem_cons_self
    have hk := h.release hnot hlt hp
    have hr : release? graph placement position = some (Placement.release graph placement position) :=
      if_pos ⟨hlt, h.length_eq ▸ hlt, h.pendingAt_pos hlt⟩
    rw [List.foldl_cons, List.foldlM_cons, hr]
    exact hk.releaseAll hn fun other ho => hw other (List.mem_cons_of_mem _ ho)

/-! ## Steps -/

/-- A step that refuses a position out of range and every release that is refused. -/
def step? (graph : Graph) (placement : Placement) : Option Placement :=
  match placement.ready with
  | [] => some placement
  | position :: rest =>
    if position < graph.size then
      (graph.dependentsOf position).foldlM (release? graph)
        { placement with ready := rest, placed := placement.placed ++ [position] }
    else none

/-- A number of steps, none of which may be refused. -/
def steps? (graph : Graph) : Nat → Placement → Option Placement
  | 0, placement => some placement
  | n + 1, placement => (step? graph placement).bind (steps? graph n)

/-- An order may go on with a position whose dependencies are all in it. -/
theorem respects_append {placed : List Nat} {position : Nat} (hc : graph.Respects placed)
    (hp : ∀ other, graph.DependsOn position other → other ∈ placed) :
    graph.Respects (placed ++ [position]) := by
  intro before p after heq other hd
  rcases List.append_eq_append_iff.mp heq with ⟨extra, rfl, hextra⟩ | ⟨extra, rfl, hextra⟩
  · cases extra with
    | nil =>
      simp only [List.nil_append, List.cons.injEq] at hextra
      simpa using hp other (hextra.1 ▸ hd)
    | cons first extra =>
      have := congrArg List.length hextra
      simp at this
  · cases extra with
    | nil =>
      simp only [List.nil_append, List.cons.injEq] at hextra
      simpa using hp other (hextra.1 ▸ hd)
    | cons first extra =>
      simp only [List.cons_append, List.cons.injEq] at hextra
      obtain ⟨rfl, _⟩ := hextra
      exact hc before p extra rfl other hd

/-- Placing the first ready position leaves its dependents to be told. -/
theorem Keeps.place (wf : graph.WellFormed) {placement : Placement}
    (h : Keeps graph [] placement) {position : Nat} {rest : List Nat}
    (hr : placement.ready = position :: rest) :
    Keeps graph (graph.dependentsOf position)
      { placement with ready := rest, placed := placement.placed ++ [position] } := by
  have hmem : position ∈ placement.ready := hr ▸ List.mem_cons_self
  obtain ⟨hlt, hp, hz⟩ := (h.mem_ready_iff position).mp hmem
  obtain ⟨hfirst, hsorted⟩ := List.pairwise_cons.mp (hr ▸ h.sorted)
  have hrest : position ∉ rest := (List.nodup_cons.mp (hr ▸ h.sorted.nodup)).1
  refine ⟨h.length_eq, ?_, ?_, ?_, ?_, hsorted, ?_⟩
  · intro other ho
    rcases List.mem_append.mp ho with ho | ho
    · exact h.placed_lt other ho
    · exact List.mem_singleton.mp ho ▸ hlt
  · refine List.nodup_append.mpr ⟨h.placed_nodup, List.pairwise_singleton _ _, ?_⟩
    intro a ha b hb he
    exact hp (List.mem_singleton.mp hb ▸ he ▸ ha)
  · intro other hother
    -- The counters stay, and what they count goes down for the dependents: that is the one that
    -- each of them is still to be told.
    have ho := h.pendingAt_eq other hother
    have hcount := countP_not_mem_append hp (wf.nodup other)
    simp only [List.not_mem_nil, if_false, Nat.add_zero] at ho
    show placement.pendingAt other = _
    rw [ho]
    simpa [missing, mem_dependentsOf, hother, DependsOn] using hcount
  · intro other
    have ho := h.mem_ready_iff other
    rw [hr, List.mem_cons] at ho
    show other ∈ rest ↔ other < graph.size ∧ other ∉ placement.placed ++ [position] ∧
      placement.pendingAt other = 0
    by_cases he : other = position
    · subst he
      simp [hrest]
    · simpa [he] using ho
  · exact respects_append h.respects (h.mem_ready_iff_free.mp hmem).waits_for

/-- The dependents of a position that is placed now were not placed before. -/
theorem Keeps.not_mem_placed_of_dependsOn {placement : Placement} (h : Keeps graph [] placement)
    {position other : Nat} (hr : position ∈ placement.ready) (hd : graph.DependsOn other position) :
    other ∉ placement.placed ++ [position] := by
  have hfree := h.mem_ready_iff_free.mp hr
  intro hm
  rcases List.mem_append.mp hm with hm | hm
  -- A dependent that was placed before stands behind the position, which is only placed now.
  · exact hfree.not_mem (h.respects.mem_of_dependsOn hm hd)
  · rw [List.mem_singleton.mp hm] at hd
    exact hfree.not_mem (hfree.waits_for position hd)

/-- A step keeps the invariant, and nothing in it is refused. -/
theorem Keeps.step (wf : graph.WellFormed) {placement : Placement}
    (h : Keeps graph [] placement) :
    Keeps graph [] (step graph placement) ∧
      step? graph placement = some (Placement.step graph placement) := by
  unfold Placement.step step?
  cases hr : placement.ready with
  | nil => exact ⟨h, rfl⟩
  | cons position rest =>
    have hmem : position ∈ placement.ready := hr ▸ List.mem_cons_self
    have hlt := ((h.mem_ready_iff position).mp hmem).1
    dsimp only
    rw [if_pos hlt]
    apply (h.place wf hr).releaseAll (nodup_dependentsOf graph position)
    intro other ho
    obtain ⟨holt, hd⟩ := mem_dependentsOf.mp ho
    exact ⟨holt, h.not_mem_placed_of_dependsOn hmem hd⟩

theorem Keeps.steps (wf : graph.WellFormed) : ∀ (n : Nat) {placement : Placement},
    Keeps graph [] placement →
    Keeps graph [] (steps graph n placement) ∧
      steps? graph n placement = some (Placement.steps graph n placement)
  | 0, _, h => ⟨h, rfl⟩
  | n + 1, _, h => by
    obtain ⟨hk, heq⟩ := h.step wf
    unfold Placement.steps steps?
    rw [heq]
    exact hk.steps wf n

/-! ## Runs -/

theorem keeps_start (wf : graph.WellFormed) : Keeps graph [] (start graph) := by
  have hpending : ∀ position, (start graph).pendingAt position =
      (graph.dependenciesOf position).length := by
    intro position
    unfold pendingAt dependenciesOf start
    cases hd : graph.dependencies[position]? <;> simp [hd]
  refine ⟨?_, by simp [start], List.nodup_nil, ?_, ?_, ?_, by simp [start, Respects]⟩
  · simp [start, wf.length_eq]
  · intro position _
    rw [hpending]
    simp [missing, start]
  · intro position
    simp only [start, mem_foldr_insertReady, List.mem_filter, List.mem_range, pendingAt]
    simp
  · exact sorted_foldr_insertReady (List.nodup_range.filter _)

theorem keeps_finish (wf : graph.WellFormed) : Keeps graph [] (finish graph) :=
  ((keeps_start wf).steps wf graph.size).1

/-- **No counter goes below zero and no position is out of range** in the whole run. -/
theorem steps?_eq_some_finish (wf : graph.WellFormed) :
    steps? graph graph.size (start graph) = some (finish graph) :=
  ((keeps_start wf).steps wf graph.size).2

theorem placed_foldl_release (waiting : List Nat) (placement : Placement) :
    (waiting.foldl (release graph) placement).placed = placement.placed := by
  -- By induction on the positions still to be told; none of them is placed by being told.
  induction waiting generalizing placement with
  | nil => rfl
  | cons position rest ih => rw [List.foldl_cons, ih, placed_release]

theorem placed_step {placement : Placement} {position : Nat} {rest : List Nat}
    (hr : placement.ready = position :: rest) :
    (step graph placement).placed = placement.placed ++ [position] := by
  unfold step
  rw [hr]
  exact placed_foldl_release _ _

theorem step_of_ready_eq_nil {placement : Placement} (hr : placement.ready = []) :
    step graph placement = placement := by
  unfold step
  rw [hr]

theorem steps_of_ready_eq_nil {placement : Placement} (hr : placement.ready = []) :
    ∀ n : Nat, steps graph n placement = placement
  | 0 => rfl
  | n + 1 => by
    unfold steps
    rw [step_of_ready_eq_nil hr]
    exact steps_of_ready_eq_nil hr n

/-- Each step places a position, until nothing is ready. -/
theorem ready_steps_eq_nil_or (graph : Graph) : ∀ (n : Nat) (placement : Placement),
    (steps graph n placement).ready = [] ∨
      (steps graph n placement).placed.length = placement.placed.length + n
  | 0, _ => Or.inr rfl
  | n + 1, placement => by
    cases hr : placement.ready with
    | nil =>
      rw [steps_of_ready_eq_nil hr]
      exact Or.inl hr
    | cons position rest =>
      unfold steps
      rcases ready_steps_eq_nil_or graph n (step graph placement) with h | h
      · exact Or.inl h
      · right
        rw [h, placed_step hr, List.length_append, List.length_singleton]
        omega

/-- As many placed positions as there are modules are all of them. -/
theorem Keeps.placed_perm {waiting : List Nat} {placement : Placement}
    (h : Keeps graph waiting placement) (hl : graph.size ≤ placement.placed.length) :
    placement.placed.Perm (List.range graph.size) :=
  (subperm_range h.placed_nodup h.placed_lt).perm_of_length_le (by simpa using hl)

/-- **When a run is over nothing is ready any more.** -/
theorem ready_finish (wf : graph.WellFormed) : (finish graph).ready = [] := by
  rcases ready_steps_eq_nil_or graph graph.size (start graph) with h | h
  · exact h
  -- As many steps as there are modules have all placed one, so there is none left to be ready.
  · have hk := keeps_finish wf
    have hperm := hk.placed_perm (by
      show graph.size ≤ (Placement.steps graph graph.size (start graph)).placed.length
      omega)
    apply List.eq_nil_iff_forall_not_mem.mpr
    intro position hr
    obtain ⟨hlt, hp, _⟩ := (hk.mem_ready_iff position).mp hr
    exact hp (hperm.mem_iff.mpr (List.mem_range.mpr hlt))

/-- As long as fewer positions are placed than there are, one is left out. -/
theorem exists_not_mem_of_length_lt {positions : List Nat} {n : Nat} (hlt : positions.length < n) :
    ∃ position < n, position ∉ positions := by
  by_contra hall
  have hsub : List.range n ⊆ positions := by
    intro position hp
    by_contra hnot
    exact hall ⟨position, List.mem_range.mp hp, hnot⟩
  have := (List.subperm_of_subset List.nodup_range hsub).length_le
  rw [List.length_range] at this
  omega

/-- A position that the run left out depends on another one that it left out. -/
theorem exists_dependsOn_of_not_mem_finish (wf : graph.WellFormed) {position : Nat}
    (hlt : position < graph.size) (hp : position ∉ (finish graph).placed) :
    ∃ other, graph.DependsOn position other ∧ other ∉ (finish graph).placed := by
  have hr : position ∉ (finish graph).ready := by simp [ready_finish wf]
  rw [(keeps_finish wf).mem_ready_iff_free] at hr
  by_contra hall
  refine hr ⟨hlt, hp, ?_⟩
  intro other hd
  by_contra ho
  exact hall ⟨other, hd, ho⟩

end Placement

end Graph

end ServiceHost
