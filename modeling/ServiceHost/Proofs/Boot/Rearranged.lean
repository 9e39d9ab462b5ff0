import ServiceHost.Proofs.Boot.Consumers
import ServiceHost.Proofs.Graph.Turns

/-!
# Rearranged modules — the order of discovery does not matter

A graph is drawn over positions, and where a module was discovered decides its position: the
edges, the counters and the queue all look different when the same modules come in another order.
What a run places next does not. Where no two modules share a name, it is **the one module that
comes first by name among those that wait for nothing** (`Foremost`), and that says nothing about
positions. So a run leaves a list that can be told from the set of modules alone (`Leading`), there
is only one such list of a given length (`Leading.unique`), and two boots of the same modules are
the same boot.
-/

set_option autoImplicit false

namespace ServiceHost

namespace Boot

/-- The modules have names of their own. -/
def Named (modules : List Hosted) : Prop :=
  (modules.map Hosted.name).Nodup

/-- Of these modules, `hosted` is not placed yet, and all that it depends on is. -/
def Waitless (modules placed : List Hosted) (hosted : Hosted) : Prop :=
  hosted ∈ modules ∧ hosted ∉ placed ∧
    ∀ provider ∈ modules, provider.name ≠ hosted.name → Graph.Needs hosted provider →
      provider ∈ placed

/-- Of the modules that wait for nothing, `hosted` is the first by name. -/
def Foremost (modules placed : List Hosted) (hosted : Hosted) : Prop :=
  Waitless modules placed hosted ∧
    ∀ other, Waitless modules placed other → other = hosted ∨ hosted.name < other.name

/-- Once some modules are placed, each of the others is the foremost one when its turn comes. -/
def Leading (modules : List Hosted) : (placed others : List Hosted) → Prop
  | _, [] => True
  | placed, hosted :: rest =>
    Foremost modules placed hosted ∧ Leading modules (placed ++ [hosted]) rest

/-! ## There is one foremost module -/

section Unique

variable {modules other placed : List Hosted}

theorem Foremost.unique {first second : Hosted} (hf : Foremost modules placed first)
    (hs : Foremost modules placed second) : first = second := by
  rcases hs.2 first hf.1 with heq | hlt
  · exact heq
  · rcases hf.2 second hs.1 with heq | hgt
    · exact heq.symm
    · exact absurd (String.lt_trans hlt hgt) (String.lt_irrefl _)

/-- **Two runs that go on equally long place the same modules.** -/
theorem Leading.unique : ∀ {placed first second : List Hosted},
    Leading modules placed first → Leading modules placed second →
    first.length = second.length → first = second
  | _, [], [], _, _, _ => rfl
  | _, [], _ :: _, _, _, hl => by cases hl
  | _, _ :: _, [], _, _, hl => by cases hl
  | placed, hosted :: rest, hosted' :: rest', hf, hs, hl => by
    obtain ⟨hhead, htail⟩ := hf
    obtain ⟨hhead', htail'⟩ := hs
    obtain rfl := hhead.unique hhead'
    rw [htail.unique htail' (Nat.succ.inj hl)]

theorem leading_append {placed others : List Hosted} {hosted : Hosted} :
    Leading modules placed (others ++ [hosted]) ↔
      Leading modules placed others ∧ Foremost modules (placed ++ others) hosted := by
  induction others generalizing placed with
  | nil => simp [Leading]
  | cons head rest ih =>
    rw [List.cons_append, Leading, Leading, ih, and_assoc]
    simp

theorem Waitless.congr (h : ∀ hosted, hosted ∈ modules ↔ hosted ∈ other) {hosted : Hosted} :
    Waitless modules placed hosted ↔ Waitless other placed hosted := by
  simp only [Waitless, h]

/-- Which list leads can be told from the set of modules. -/
theorem Leading.congr (h : ∀ hosted, hosted ∈ modules ↔ hosted ∈ other) :
    ∀ {placed others : List Hosted},
      Leading modules placed others → Leading other placed others
  | _, [], _ => trivial
  | _, _ :: _, ⟨⟨hwait, hfirst⟩, htail⟩ =>
    ⟨⟨(Waitless.congr h).mp hwait, fun _ ho => hfirst _ ((Waitless.congr h).mpr ho)⟩,
      htail.congr h⟩

end Unique

/-! ## What a run places is foremost -/

section Placed

variable {modules : List Hosted} {registry : Registry} {graph : Graph}

theorem Named.position_eq (hn : Named modules) {position other : Nat} {hosted hosted' : Hosted}
    (hp : modules[position]? = some hosted) (ho : modules[other]? = some hosted')
    (hname : hosted.name = hosted'.name) : position = other := by
  have hlt : position < (modules.map Hosted.name).length := by
    simpa using (List.getElem?_eq_some_iff.mp hp).1
  apply (List.getElem?_inj hlt hn).mp
  simp [hp, ho, hname]

theorem mem_pick {order : List Nat} {hosted : Hosted} :
    hosted ∈ pick modules order ↔ ∃ position ∈ order, modules[position]? = some hosted :=
  List.mem_filterMap

theorem Named.mem_pick_iff (hn : Named modules) {order : List Nat} {position : Nat}
    {hosted : Hosted} (hp : modules[position]? = some hosted) :
    hosted ∈ pick modules order ↔ position ∈ order := by
  rw [mem_pick]
  constructor
  · rintro ⟨other, hother, ho⟩
    exact hn.position_eq hp ho rfl ▸ hother
  · intro hposition
    exact ⟨position, hposition, hp⟩

theorem Named.dependsOn_iff (hn : Named modules) (hb : Graph.build modules registry = .ok graph)
    {position other : Nat} {hosted provider : Hosted} (hp : modules[position]? = some hosted)
    (ho : modules[other]? = some provider) :
    graph.DependsOn position other ↔
      provider.name ≠ hosted.name ∧ Graph.Needs hosted provider := by
  rw [Graph.dependsOn_iff_of_build hb]
  constructor
  · rintro ⟨hosted', provider', hp', ho', hne, hneeds⟩
    cases hp.symm.trans hp'
    cases ho.symm.trans ho'
    exact ⟨fun hname => hne (hn.position_eq ho hp hname), hneeds⟩
  · rintro ⟨hname, hneeds⟩
    refine ⟨hosted, provider, hp, ho, ?_, hneeds⟩
    rintro rfl
    cases hp.symm.trans ho
    exact hname rfl

/-- What waits for nothing is a position that is free. -/
theorem Named.waitless_iff (hn : Named modules) (hb : Graph.build modules registry = .ok graph)
    {order : List Nat} {position : Nat} {hosted : Hosted}
    (hp : modules[position]? = some hosted) :
    Waitless modules (pick modules order) hosted ↔ graph.Free order position := by
  unfold Waitless
  rw [hn.mem_pick_iff hp]
  constructor
  · rintro ⟨_, hnot, hall⟩
    refine ⟨?_, hnot, fun other hd => ?_⟩
    · rw [Graph.size_of_build hb]
      exact (List.getElem?_eq_some_iff.mp hp).1
    · obtain ⟨_, provider, _, ho, _, _⟩ := (Graph.dependsOn_iff_of_build hb).mp hd
      obtain ⟨hname, hneeds⟩ := (hn.dependsOn_iff hb hp ho).mp hd
      exact (hn.mem_pick_iff ho).mp (hall provider (List.mem_of_getElem? ho) hname hneeds)
  · rintro ⟨_, hnot, hall⟩
    refine ⟨List.mem_of_getElem? hp, hnot, fun provider hprovider hname hneeds => ?_⟩
    obtain ⟨other, ho⟩ := List.mem_iff_getElem?.mp hprovider
    exact (hn.mem_pick_iff ho).mpr (hall other ((hn.dependsOn_iff hb hp ho).mpr ⟨hname, hneeds⟩))

/-- **The position that is due holds the foremost module.** -/
theorem Named.foremost (hn : Named modules) (hb : Graph.build modules registry = .ok graph)
    {order : List Nat} {position : Nat} (hdue : graph.Due order position) {hosted : Hosted}
    (hp : modules[position]? = some hosted) :
    Foremost modules (pick modules order) hosted := by
  refine ⟨(hn.waitless_iff hb hp).mpr hdue.free, fun other hwait => ?_⟩
  obtain ⟨place, ho⟩ := List.mem_iff_getElem?.mp hwait.1
  by_cases heq : place = position
  · subst heq
    exact Or.inl (Option.some.inj (ho.symm.trans hp))
  -- Two positions are never told apart by the position alone.
  · right
    have hprecedes := hdue.precedes place ((hn.waitless_iff hb ho).mp hwait) heq
    rw [Graph.precedes_iff, Graph.goesBefore_iff, Graph.nameAt_of_build hb hp,
      Graph.nameAt_of_build hb ho] at hprecedes
    rcases hprecedes with hlt | ⟨hname, hlt⟩
    · exact hlt
    · exact absurd (hn.position_eq hp ho hname) (Nat.ne_of_lt hlt)

/-- By induction on the end of the order, whose last position is due there. -/
theorem Named.leading_of_inTurn (hn : Named modules)
    (hb : Graph.build modules registry = .ok graph) {order : List Nat}
    (ht : graph.InTurn order) : Leading modules [] (pick modules order) := by
  induction order using List.reverseRecOn with
  | nil => trivial
  | append_singleton front position ih =>
    obtain ⟨hfront, hdue⟩ := Graph.inTurn_concat.mp ht
    have hlt := hdue.free.lt_size
    rw [Graph.size_of_build hb] at hlt
    have hp : modules[position]? = some modules[position] := List.getElem?_eq_getElem hlt
    have hlist : pick modules (front ++ [position]) =
        pick modules front ++ [modules[position]] := by
      simp [pick, hp]
    rw [hlist, leading_append]
    exact ⟨ih hfront, hn.foremost hb hdue hp⟩

/-- An order names each position once, so no slot is empty when it is asked for. -/
theorem arrange_of_order (hb : Graph.build modules registry = .ok graph) {order : List Nat}
    (ho : graph.order = .ok order) : arrange modules order = pick modules order := by
  have hperm := (Graph.perm_and_respects_of_order (Graph.wellFormed_of_build hb) ho).1
  exact arrange_eq_pick (hperm.nodup_iff.mpr List.nodup_range) modules

/-- **The order of named modules leads**: it can be told from the set of modules. -/
theorem Named.leading_of_order (hn : Named modules)
    (hb : Graph.build modules registry = .ok graph) {order : List Nat}
    (ho : graph.order = .ok order) : Leading modules [] (arrange modules order) := by
  rw [arrange_of_order hb ho]
  obtain ⟨_, rfl⟩ := Graph.order_eq_ok_iff.mp ho
  exact hn.leading_of_inTurn hb (Graph.Placement.inTurn_finish (Graph.wellFormed_of_build hb))

theorem length_arrange_of_order (hb : Graph.build modules registry = .ok graph)
    {order : List Nat} (ho : graph.order = .ok order) :
    (arrange modules order).length = modules.length := by
  rw [arrange_of_order hb ho]
  have hperm := (Graph.perm_and_respects_of_order (Graph.wellFormed_of_build hb) ho).1
  rw [Graph.size_of_build hb] at hperm
  have hall : ∀ position ∈ order, ∃ hosted, modules[position]? = some hosted := by
    intro position hp
    exact ⟨_, List.getElem?_eq_getElem (List.mem_range.mp (hperm.mem_iff.mp hp))⟩
  have hlength := congrArg List.length (map_some_pick hall)
  rw [List.length_map, List.length_map] at hlength
  rw [hlength, hperm.length_eq, List.length_range]

end Placed

/-! ## The same modules in another order -/

section Rearranged

variable {modules modules' : List Hosted} {registry : Registry}

theorem Named.perm (hn : Named modules) (hp : modules.Perm modules') : Named modules' :=
  (hp.map Hosted.name).nodup_iff.mp hn

/-- A declaration is judged by itself: of the other modules, it only matters whether one provides
what is needed. -/
theorem checkDeclaration_perm (hp : modules.Perm modules') :
    Graph.checkDeclaration modules registry = Graph.checkDeclaration modules' registry := by
  funext declaration
  have hserved : ∀ capability, Graph.Served modules registry capability ↔
      Graph.Served modules' registry capability := fun capability => by
    simp only [Graph.Served, hp.mem_iff]
  unfold Graph.checkDeclaration
  simp only [hserved]

theorem exists_build_perm (hp : modules.Perm modules') {graph : Graph}
    (hb : Graph.build modules registry = .ok graph) :
    ∃ graph', Graph.build modules' registry = .ok graph' := by
  obtain ⟨hall, _⟩ := Graph.build_eq_ok_iff.mp hb
  refine ⟨_, Graph.build_eq_ok_iff.mpr ⟨?_, rfl⟩⟩
  intro declaration hd
  obtain ⟨hosted, hh, hdeclared⟩ := Graph.mem_declarations.mp hd
  rw [← checkDeclaration_perm hp]
  exact hall declaration (Graph.mem_declarations.mpr ⟨hosted, hp.mem_iff.mpr hh, hdeclared⟩)

theorem exists_build_error_perm (hp : modules.Perm modules') {error : BootError}
    (hb : Graph.build modules registry = .error error) :
    ∃ error', Graph.build modules' registry = .error error' := by
  cases hb' : Graph.build modules' registry with
  | error error' => exact ⟨error', rfl⟩
  | ok graph' =>
    obtain ⟨graph, h⟩ := exists_build_perm hp.symm hb'
    cases hb.symm.trans h

theorem Named.acyclic_perm (hn : Named modules) (hp : modules.Perm modules')
    {graph graph' : Graph} (hb : Graph.build modules registry = .ok graph)
    (hb' : Graph.build modules' registry = .ok graph') (ha : graph'.Acyclic) : graph.Acyclic := by
  have hplace : ∀ position : Nat, ∃ other : Nat, ∀ hosted, modules[position]? = some hosted →
      modules'[other]? = some hosted := by
    intro position
    cases hm : modules[position]? with
    | none => exact ⟨0, fun _ h => by cases h⟩
    | some hosted =>
      obtain ⟨other, ho⟩ :=
        List.mem_iff_getElem?.mp (hp.mem_iff.mp (List.mem_of_getElem? hm))
      exact ⟨other, fun _ h => h ▸ ho⟩
  choose place hplace using hplace
  have hedge : ∀ position other, graph.DependsOn position other →
      graph'.DependsOn (place position) (place other) := by
    intro position other hd
    obtain ⟨hosted, provider, hm, ho, _, _⟩ := (Graph.dependsOn_iff_of_build hb).mp hd
    exact ((hn.perm hp).dependsOn_iff hb' (hplace _ _ hm) (hplace _ _ ho)).mpr
      ((hn.dependsOn_iff hb hm ho).mp hd)
  intro position hcycle
  exact ha (place position) (Relation.TransGen.lift place hedge _ _ hcycle)

theorem exists_cyclic_iff {graph : Graph} (wf : graph.WellFormed) :
    (∃ cycle, graph.order = .error (.cyclic cycle)) ↔ ¬ graph.Acyclic := by
  rw [Graph.acyclic_iff_complete wf, Graph.order_eq, not_not]
  constructor
  · rintro ⟨cycle, ho⟩
    by_contra hlt
    rw [if_neg hlt] at ho
    cases ho
  · intro hlt
    exact ⟨_, if_pos hlt⟩

/-- **The order of discovery decides nothing.** The same modules, named apart, in any two orders:
a graph is drawn of both or of neither, there is a cycle in both or in neither, and if both can be
put in order they are set up and started in one sequence — with any injector, the two boots answer
the same and leave the same host, its journal included. -/
theorem boot_rearranged (hp : modules.Perm modules') (hn : Named modules) (registry : Registry) :
    ((∃ error, Graph.build modules registry = .error error) ↔
      ∃ error, Graph.build modules' registry = .error error) ∧
    ∀ graph graph', Graph.build modules registry = .ok graph →
      Graph.build modules' registry = .ok graph' →
      ((∃ cycle, graph.order = .error (.cyclic cycle)) ↔
        ∃ cycle, graph'.order = .error (.cyclic cycle)) ∧
      ∀ order order', graph.order = .ok order → graph'.order = .ok order' →
        arrange modules order = arrange modules' order' ∧
        ∀ (injector : Injector) (limits : Limits) (host : Host),
          host.context.registry = registry →
          (boot injector limits modules).on host = (boot injector limits modules').on host := by
  refine ⟨⟨?_, ?_⟩, fun graph graph' hb hb' => ⟨?_, fun order order' ho ho' => ?_⟩⟩
  · rintro ⟨error, hb⟩
    exact exists_build_error_perm hp hb
  · rintro ⟨error, hb⟩
    exact exists_build_error_perm hp.symm hb
  · rw [exists_cyclic_iff (Graph.wellFormed_of_build hb),
      exists_cyclic_iff (Graph.wellFormed_of_build hb')]
    exact not_congr ⟨(hn.perm hp).acyclic_perm hp.symm hb' hb, hn.acyclic_perm hp hb hb'⟩
  · have hleading := (hn.leading_of_order hb ho).congr fun _ => hp.mem_iff
    have hleading' := (hn.perm hp).leading_of_order hb' ho'
    have hlength : (arrange modules order).length = (arrange modules' order').length := by
      rw [length_arrange_of_order hb ho, length_arrange_of_order hb' ho', hp.length_eq]
    have heq := hleading.unique hleading' hlength
    refine ⟨heq, fun injector limits host hregistry => ?_⟩
    subst hregistry
    rw [boot_on, boot_on, plan_eq_ok_iff.mpr ⟨graph, hb, ho⟩,
      plan_eq_ok_iff.mpr ⟨graph', hb', ho'⟩]
    dsimp only
    rw [heq]

/-- Both stores come before the consumer, by name, wherever the three were discovered. -/
theorem boot_twoStores_reverse :
    (twoStores.map Hosted.fresh).Perm (twoStores.map Hosted.fresh).reverse ∧
    Named (twoStores.map Hosted.fresh) ∧
    Graph.order ⟨["web", "first", "second"], [[1, 2], [], []]⟩ = .ok [1, 2, 0] ∧
    Graph.order ⟨["second", "first", "web"], [[], [], [0, 1]]⟩ = .ok [1, 0, 2] ∧
    ∀ injector limits, (boot injector limits (twoStores.map Hosted.fresh)).on clockHost =
      (boot injector limits (twoStores.map Hosted.fresh).reverse).on clockHost := by
  have hp := (List.reverse_perm (twoStores.map Hosted.fresh)).symm
  have hn : Named (twoStores.map Hosted.fresh) := by
    unfold Named
    decide
  have hb : Graph.build (twoStores.map Hosted.fresh) clockHost.context.registry =
      .ok ⟨["web", "first", "second"], [[1, 2], [], []]⟩ := by decide +kernel
  have hb' : Graph.build (twoStores.map Hosted.fresh).reverse clockHost.context.registry =
      .ok ⟨["second", "first", "web"], [[], [], [0, 1]]⟩ := by decide +kernel
  have ho : Graph.order ⟨["web", "first", "second"], [[1, 2], [], []]⟩ = .ok [1, 2, 0] := by
    decide +kernel
  have ho' : Graph.order ⟨["second", "first", "web"], [[], [], [0, 1]]⟩ = .ok [1, 0, 2] := by
    decide +kernel
  obtain ⟨_, hsame⟩ := boot_rearranged hp hn clockHost.context.registry
  refine ⟨hp, hn, ho, ho', fun injector limits => ?_⟩
  exact ((hsame _ _ hb hb').2 _ _ ho ho').2 injector limits clockHost rfl

end Rearranged

end Boot

end ServiceHost
