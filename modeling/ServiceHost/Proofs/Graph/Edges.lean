import ServiceHost.Proofs.Graph.Drawing
import Mathlib.Logic.Relation

/-!
# Edges — who depends on whom in a graph that is drawn

What is left of `Graph.build` when all declarations are accepted is the drawing, and every fact
about an order or a boot starts from it:

* **the edges are exactly the needs** — a position depends on another one if and only if the
  module there needs something that the other one provides (`dependsOn_iff_of_build`);
* positions stay in range and are listed once (`wellFormed_of_build`);
* what a module must have is provided by a module of the set or found in the registry
  (`served_of_build`).
-/

set_option autoImplicit false

namespace ServiceHost

namespace Graph

/-- The module at `position` depends on the one at `other`. -/
def DependsOn (graph : Graph) (position other : Nat) : Prop :=
  other ∈ graph.dependenciesOf position

/-- No module depends on itself, through however many others. -/
def Acyclic (graph : Graph) : Prop :=
  ∀ position, ¬ Relation.TransGen graph.DependsOn position position

/-- Every position of an order stands behind all that it depends on. -/
def Respects (graph : Graph) (order : List Nat) : Prop :=
  ∀ before position after, order = before ++ position :: after →
    ∀ other, graph.DependsOn position other → other ∈ before

theorem Respects.mem_of_dependsOn {graph : Graph} {order : List Nat} (h : graph.Respects order)
    {position other : Nat} (hp : position ∈ order) (hd : graph.DependsOn position other) :
    other ∈ order := by
  obtain ⟨before, after, rfl⟩ := List.append_of_mem hp
  exact List.mem_append_left _ (h before position after rfl other hd)

/-- A position that could be placed next: it is not `placed`, and all that it depends on is. -/
structure Free (graph : Graph) (placed : List Nat) (position : Nat) : Prop where
  lt_size : position < graph.size
  not_mem : position ∉ placed
  waits_for : ∀ other, graph.DependsOn position other → other ∈ placed

/-- A graph whose positions are those of its names, each listed at most once. -/
structure WellFormed (graph : Graph) : Prop where
  length_eq : graph.dependencies.length = graph.size
  lt_size : ∀ position other, graph.DependsOn position other → other < graph.size
  nodup : ∀ position, (graph.dependenciesOf position).Nodup

/-- Only a position of the graph has dependencies. -/
theorem WellFormed.dependent_lt {graph : Graph} (wf : graph.WellFormed) {position other : Nat}
    (h : graph.DependsOn position other) : position < graph.size := by
  unfold DependsOn dependenciesOf at h
  cases hd : graph.dependencies[position]? with
  | none => rw [hd] at h; simp at h
  | some dependencies =>
    rw [← wf.length_eq]
    exact (List.getElem?_eq_some_iff.mp hd).1

theorem mem_dependentsOf {graph : Graph} {position other : Nat} :
    other ∈ graph.dependentsOf position ↔
      other < graph.size ∧ graph.DependsOn other position := by
  simp [dependentsOf, DependsOn]

theorem nodup_dependentsOf (graph : Graph) (position : Nat) :
    (graph.dependentsOf position).Nodup :=
  List.nodup_range.filter _

/-! ## The drawing -/

section Drawn

variable {modules : List Hosted} {registry : Registry} {graph : Graph}

theorem size_of_build (h : build modules registry = .ok graph) :
    graph.size = modules.length := by
  obtain ⟨_, rfl⟩ := build_eq_ok_iff.mp h
  simp [size, drawn]

theorem nameAt_of_build (h : build modules registry = .ok graph) {position : Nat}
    {hosted : Hosted} (hp : modules[position]? = some hosted) :
    graph.nameAt position = hosted.name := by
  obtain ⟨_, rfl⟩ := build_eq_ok_iff.mp h
  simp [nameAt, drawn, hp]

theorem dependenciesOf_of_build (h : build modules registry = .ok graph) (position : Nat) :
    graph.dependenciesOf position =
      (modules[position]?.map fun hosted =>
        (dependenciesOn modules position hosted).toList).getD [] := by
  obtain ⟨_, rfl⟩ := build_eq_ok_iff.mp h
  cases hp : modules[position]? <;> simp [dependenciesOf, drawn, List.getElem?_zipIdx, hp]

/-- **The edges are exactly the needs.** A module never depends on itself, also where it needs
what it provides. -/
theorem dependsOn_iff_of_build (h : build modules registry = .ok graph) {position other : Nat} :
    graph.DependsOn position other ↔
      ∃ hosted provider, modules[position]? = some hosted ∧ modules[other]? = some provider ∧
        other ≠ position ∧ Needs hosted provider := by
  unfold DependsOn
  rw [dependenciesOf_of_build h]
  cases hp : modules[position]? with
  | none => simp
  | some hosted =>
    simp only [Option.map_some, Option.getD_some, Std.TreeSet.mem_toList, mem_dependenciesOn]
    constructor
    · rintro ⟨hne, provider, ho, hneeds⟩
      exact ⟨hosted, provider, rfl, ho, hne, hneeds⟩
    · rintro ⟨_, provider, hsame, ho, hne, hneeds⟩
      cases hsame
      exact ⟨hne, provider, ho, hneeds⟩

theorem wellFormed_of_build (h : build modules registry = .ok graph) : graph.WellFormed where
  length_eq := by
    obtain ⟨_, rfl⟩ := build_eq_ok_iff.mp h
    simp [size, drawn]
  lt_size := by
    intro position other hd
    obtain ⟨_, _, _, ho, _⟩ := (dependsOn_iff_of_build h).mp hd
    rw [size_of_build h]
    exact (List.getElem?_eq_some_iff.mp ho).1
  nodup := by
    intro position
    rw [dependenciesOf_of_build h]
    cases modules[position]? with
    | none => exact List.nodup_nil
    | some hosted =>
      refine Std.TreeSet.distinct_toList.imp fun hne heq => hne ?_
      rw [heq]
      exact Std.ReflCmp.compare_self

/-- What a module must have is provided by a module of the set or found in the registry. -/
theorem served_of_build (h : build modules registry = .ok graph) {declaration : Declaration}
    (hd : declaration ∈ declarations modules) (hr : declaration.required = true) :
    Served modules registry declaration.capability := by
  have hc := (build_eq_ok_iff.mp h).1 declaration hd
  exact (checkDeclaration_eq_ok_iff.mp hc).2 hr

end Drawn

/-- **What is accepted, what is drawn and what is reported.** A graph is drawn exactly if every
declared capability has the right form and every required one is served; a module then depends on
the other modules that provide something it needs, and on no more; and an error is exactly the
first offence, in the order in which declarations are looked at. -/
theorem build_accepts_and_draws (modules : List Hosted) (registry : Registry) :
    ((∃ graph, build modules registry = .ok graph) ↔
      ∀ declaration ∈ declarations modules,
        Capability.validate declaration.capability = .ok () ∧
          (declaration.required = true → Served modules registry declaration.capability)) ∧
    (∀ graph, build modules registry = .ok graph →
      graph.names = modules.map Hosted.name ∧
      ∀ position other, graph.DependsOn position other ↔
        other ≠ position ∧ ∃ hosted provider, modules[position]? = some hosted ∧
          modules[other]? = some provider ∧
          ∃ declaration ∈ needed hosted, declaration.capability ∈ provider.module.provides) ∧
    (∀ error, build modules registry = .error error ↔ FirstOffence modules registry error) := by
  refine ⟨?_, ?_, ?_⟩
  · simp only [← checkDeclaration_eq_ok_iff]
    constructor
    · rintro ⟨graph, h⟩
      exact (build_eq_ok_iff.mp h).1
    · intro hall
      exact ⟨_, build_eq_ok_iff.mpr ⟨hall, rfl⟩⟩
  · intro graph h
    have hnames : graph.names = modules.map Hosted.name := by
      obtain ⟨_, rfl⟩ := build_eq_ok_iff.mp h
      rfl
    refine ⟨hnames, fun position other => ?_⟩
    rw [dependsOn_iff_of_build h]
    constructor
    · rintro ⟨hosted, provider, hp, ho, hne, hneeds⟩
      exact ⟨hne, hosted, provider, hp, ho, hneeds⟩
    · rintro ⟨hne, hosted, provider, hp, ho, hneeds⟩
      exact ⟨hosted, provider, hp, ho, hne, hneeds⟩
  · intro error
    exact build_eq_error_iff

end Graph

end ServiceHost
