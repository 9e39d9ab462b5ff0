import ServiceHost.Proofs.Boot.Run
import ServiceHost.Proofs.Graph.Order
import Mathlib.Data.List.Nodup

/-!
# Traces — what a whole boot does, act by act

Once there is an order, the acts that a boot is to make are fixed (`script`): inject and set up
each module in turn, then start each in turn. The loader's two passes come to exactly this list
(`enacts_passes`), so **a boot makes a front of its script, and ends at the first act that fails**
— and if none fails, it answers all modules in order, every one started.
-/

set_option autoImplicit false

namespace ServiceHost

namespace Boot

/-- The acts that bring up the module at a position. -/
def pair (position : Nat) : List Act :=
  [.inject position, .setUp position]

/-- The acts of a boot in the given order, if none fails. -/
def script (order : List Nat) : List Act :=
  order.flatMap pair ++ order.map .start

/-! ## Scripts -/

theorem position_of_mem_pair {act : Act} {position : Nat} (h : act ∈ pair position) :
    act.position = position := by
  rcases List.mem_cons.mp h with rfl | h
  · rfl
  · rw [List.mem_singleton.mp h]
    rfl

/-- A boot makes no act twice. -/
theorem nodup_script {order : List Nat} (h : order.Nodup) : (script order).Nodup := by
  refine List.nodup_append.mpr ⟨List.nodup_flatMap.mpr ⟨?_, ?_⟩, ?_, ?_⟩
  · intro position _
    simp [pair]
  · apply h.imp
    intro position other hne act ha ho
    exact hne ((position_of_mem_pair ha).symm.trans (position_of_mem_pair ho))
  · apply h.map
    intro position other he
    cases he
    rfl
  -- No act of bringing a module up is a start.
  · intro act ha other ho he
    obtain ⟨position, _, hp⟩ := List.mem_flatMap.mp ha
    obtain ⟨_, _, rfl⟩ := List.mem_map.mp ho
    rw [he] at hp
    simp [pair] at hp

/-! ## Arranging -/

/-- The modules at some positions. -/
def pick (modules : List Hosted) (positions : List Nat) : List Hosted :=
  positions.filterMap (modules[·]?)

/-- No slot is asked for again, so each is still full when its turn comes. -/
theorem takeSlots_eq {slots : List (Option Hosted)} {order : List Nat} (h : order.Nodup) :
    takeSlots slots order = order.filterMap fun position => slots[position]?.join := by
  induction order generalizing slots with
  | nil => rfl
  | cons position rest ih =>
    obtain ⟨hnotin, hrest⟩ := List.nodup_cons.mp h
    have hkept : ∀ other ∈ rest, (slots.set position none)[other]? = slots[other]? := by
      intro other ho
      refine List.getElem?_set_ne ?_
      rintro rfl
      exact hnotin ho
    rw [takeSlots, List.filterMap_cons]
    rcases slots[position]? with _ | _ | hosted
    · exact ih hrest
    · exact ih hrest
    · refine congrArg (hosted :: ·) ((ih hrest).trans ?_)
      exact List.filterMap_congr fun other ho => by rw [hkept other ho]

/-- **An order without repetition takes the modules at its positions.** -/
theorem arrange_eq_pick {order : List Nat} (h : order.Nodup) (modules : List Hosted) :
    arrange modules order = pick modules order := by
  rw [arrange, takeSlots_eq h, pick]
  refine List.filterMap_congr fun position _ => ?_
  rw [List.getElem?_map]
  cases modules[position]? <;> rfl

/-! ## The passes of the loader -/

section Passes

variable {limits : Limits} {state : State}

/-- Positions at which there are modules in a stage. -/
def State.AllIn (state : State) (stage : Stage) (positions : List Nat) : Prop :=
  ∀ position ∈ positions, ∃ hosted, state.modules[position]? = some hosted ∧
    hosted.stage = stage

/-- The acts on one module come to a call for it that moves it from one stage to another. -/
def Moves (limits : Limits) (acts : Nat → List Act) (call : Hosted → BootM Hosted)
    (stageBefore stageAfter : Stage) : Prop :=
  ∀ (state : State) (position : Nat) (hosted : Hosted),
    state.modules[position]? = some hosted → hosted.stage = stageBefore →
    Enacts limits state (acts position) (call hosted) fun final after =>
      final.modules[position]? = some after ∧ after.stage = stageAfter

/-- One act moves its module on by one stage. -/
theorem enacts_call (limits : Limits) (act : Act) {state : State} {hosted : Hosted}
    (hm : state.modules[act.position]? = some hosted) (hs : hosted.stage = act.stageBefore) :
    Enacts limits state [act] (act.call limits hosted) fun final after =>
      final.modules[act.position]? = some after ∧ after.stage = act.stageAfter := by
  apply (Enacts.call limits act hm).imp
  intro final after hr hf
  cases hr with
  | cons head tail =>
    cases tail with
    | nil _ =>
      obtain ⟨hosted', after', hm', hn, _, hstage, _⟩ := head.exists_after
      cases hm.symm.trans hm'
      cases hf.symm.trans hn
      exact ⟨hn, hstage hs⟩

theorem moves_bringUp (limits : Limits) :
    Moves limits pair (bringUp Injection.fromRegistry limits) .discovered .initialized := by
  intro state position hosted hm hs
  have hfirst := enacts_call limits (.inject position) hm hs
  exact hfirst.bind fun mid after _ hp => enacts_call limits (.setUp position) hp.1 hp.2

theorem moves_start (limits : Limits) :
    Moves limits (fun position => [.start position]) (start limits) .initialized .started :=
  fun _ position _ hm hs => enacts_call limits (.start position) hm hs

/-- **A pass over the modules comes to the acts on each of them**, as each module waits unchanged
for its turn and is left alone after it. -/
theorem Moves.enacts_mapM {acts : Nat → List Act} {call : Hosted → BootM Hosted}
    {stageBefore stageAfter : Stage} (h : Moves limits acts call stageBefore stageAfter)
    (hacts : ∀ position, ∀ act ∈ acts position, act.position = position) {positions : List Nat}
    (hn : positions.Nodup) (hs : state.AllIn stageBefore positions) :
    Enacts limits state (positions.flatMap acts) ((pick state.modules positions).mapM call)
      fun final answer => answer = pick final.modules positions ∧
        final.AllIn stageAfter positions := by
  induction positions generalizing state with
  | nil => exact .pure ⟨rfl, fun _ hp => absurd hp List.not_mem_nil⟩
  | cons position rest ih =>
    obtain ⟨hosted, hm, hstage⟩ := hs position List.mem_cons_self
    obtain ⟨hnotin, hnodup⟩ := List.nodup_cons.mp hn
    have hlist : pick state.modules (position :: rest) =
        hosted :: pick state.modules rest := by
      simp [pick, hm]
    rw [hlist, List.mapM_cons, List.flatMap_cons]
    refine (h state position hosted hm hstage).bind fun mid after hrun hpost => ?_
    -- The modules behind are as they were before the call.
    have hkeep : ∀ other ∈ rest, mid.modules[other]? = state.modules[other]? := by
      intro other ho
      refine hrun.getElem?_eq fun act ha he => hnotin ?_
      rw [← hacts position act ha, he]
      exact ho
    have harr : pick mid.modules rest = pick state.modules rest :=
      List.filterMap_congr hkeep
    have hin : mid.AllIn stageBefore rest := by
      intro other ho
      rw [hkeep other ho]
      exact hs other (List.mem_cons_of_mem _ ho)
    rw [← harr, ← List.append_nil (rest.flatMap acts)]
    refine (ih hnodup hin).bind fun final answer hrun' hpost' => .pure ?_
    -- The module itself is left alone by what follows.
    have hat : final.modules[position]? = some after := by
      rw [hrun'.getElem?_eq, hpost.1]
      intro act ha he
      obtain ⟨other, ho, hao⟩ := List.mem_flatMap.mp ha
      rw [hacts other act hao] at he
      exact hnotin (he ▸ ho)
    refine ⟨?_, ?_⟩
    · rw [hpost'.1]
      simp [pick, hat]
    · intro other ho
      rcases List.mem_cons.mp ho with rfl | ho
      · exact ⟨after, hat, hpost.2⟩
      · exact hpost'.2 other ho

/-- **The two passes of the loader come to the script.** -/
theorem enacts_passes {order : List Nat} (hn : order.Nodup)
    (hs : state.AllIn .discovered order) :
    Enacts limits state (script order) (do
        let ready ← (arrange state.modules order).mapM (bringUp Injection.fromRegistry limits)
        ready.mapM (start limits))
      fun final answer => answer = pick final.modules order ∧ final.AllIn .started order := by
  -- Starts come one to a module, as a pass makes them.
  have hmap : order.map Act.start = order.flatMap fun position => [.start position] :=
    List.map_eq_flatMap
  unfold script
  rw [hmap, arrange_eq_pick hn]
  refine ((moves_bringUp limits).enacts_mapM (fun _ _ => position_of_mem_pair) hn hs).bind
    fun mid ready _ hp => ?_
  rw [hp.1]
  refine (moves_start limits).enacts_mapM ?_ hn hp.2
  intro position act ha
  rw [List.mem_singleton.mp ha]
  rfl

end Passes

/-! ## Whole boots -/

/-- What booting modules answers on a host, and the host after it. -/
def outcome (limits : Limits) (modules : List Module) (host : Host) :
    Except BootError (List Hosted) × Host :=
  (boot Injection.fromRegistry limits (modules.map Hosted.fresh)).on host

/-- A boot plans, and then makes its two passes. -/
theorem boot_on (injector : Injector) (limits : Limits) (modules : List Hosted) (host : Host) :
    (boot injector limits modules).on host =
      match plan modules host.context.registry with
      | .error error => (.error error, host)
      | .ok order => BootM.on (do
          let ready ← (arrange modules order).mapM (bringUp injector limits)
          ready.mapM (start limits)) host := by
  unfold boot
  rw [BootM.on_bind, BootM.on_get]
  dsimp only
  cases plan modules host.context.registry <;> rfl

theorem plan_eq_ok_iff {modules : List Hosted} {registry : Registry} {order : List Nat} :
    plan modules registry = .ok order ↔
      ∃ graph, Graph.build modules registry = .ok graph ∧ graph.order = .ok order := by
  unfold plan
  cases Graph.build modules registry <;> simp [Except.bind]

variable {limits : Limits} {modules : List Module} {host : Host}

/-- Without an order, nothing happens to anything. -/
theorem outcome_of_plan_error {error : BootError}
    (h : plan (modules.map Hosted.fresh) host.context.registry = .error error) :
    outcome limits modules host = (.error error, host) := by
  unfold outcome
  rw [boot_on, h]

section Ordered

variable {graph : Graph} {order : List Nat}
  (hb : Graph.build (modules.map Hosted.fresh) host.context.registry = .ok graph)
  (ho : graph.order = .ok order)
include hb ho

theorem perm_of_ordered : order.Perm (List.range modules.length) := by
  have hperm := (Graph.perm_and_respects_of_order (Graph.wellFormed_of_build hb) ho).1
  rw [Graph.size_of_build hb, List.length_map] at hperm
  exact hperm

theorem nodup_of_ordered : order.Nodup :=
  (perm_of_ordered hb ho).nodup_iff.mpr List.nodup_range

theorem mem_of_ordered {position : Nat} : position ∈ order ↔ position < modules.length :=
  (perm_of_ordered hb ho).mem_iff.trans List.mem_range

/-- **With an order, a boot comes to its script.** -/
theorem enacts_boot (limits : Limits) :
    Enacts limits (State.start modules host) (script order)
      (boot Injection.fromRegistry limits (modules.map Hosted.fresh))
      fun final answer => answer = pick final.modules order ∧
        final.AllIn .started order := by
  have hfresh : (State.start modules host).AllIn .discovered order := by
    intro position hp
    have hlt := (mem_of_ordered hb ho).mp hp
    refine ⟨Hosted.fresh modules[position], ?_, rfl⟩
    simp [State.start, hlt]
  apply (enacts_passes (nodup_of_ordered hb ho) hfresh).of_eq
  have hplan := plan_eq_ok_iff.mpr ⟨graph, hb, ho⟩
  rw [boot_on, show plan (modules.map Hosted.fresh) (State.start modules host).host.context.registry
    = .ok order from hplan]
  rfl

end Ordered

/-- What every act on a module keeps of a host, the boot keeps, whether it comes up or not. -/
theorem outcome_invariant {p : Host → Prop}
    (hp : ∀ (act : Act) (hosted : Hosted), hosted.module ∈ modules →
      ∀ host, p host → p ((act.call limits hosted).on host).2) (hs : p host) :
    p (outcome limits modules host).2 := by
  cases hplan : plan (modules.map Hosted.fresh) host.context.registry with
  | error error =>
    rw [outcome_of_plan_error hplan]
    exact hs
  | ok order =>
    obtain ⟨graph, hb, ho⟩ := plan_eq_ok_iff.mp hplan
    have hrun : ∀ {acts : List Act} {final : State},
        Performs limits (State.start modules host) acts final → p final.host := by
      intro acts final run
      refine run.host_invariant (fun act _ hosted hm => ?_) hs
      exact hp act hosted (State.mem_of_moduleAt_start hm)
    cases enacts_boot hb ho limits with
    | @all final answer run eq _ =>
      have eq : outcome limits modules host = (.ok answer, final.host) := eq
      rw [eq]
      exact hrun run
    | @stopped before after act error mid final cut run fails eq =>
      have eq : outcome limits modules host = (.error error, final.host) := eq
      obtain ⟨hosted, hm, _, hcall, _⟩ := fails
      have hlast : (State.start modules host).moduleAt act.position = some hosted.module := by
        rw [← run.moduleAt_eq, State.moduleAt, hm]
        rfl
      have hkept := hp act hosted (State.mem_of_moduleAt_start hlast) mid.host (hrun run)
      rw [hcall] at hkept
      rw [eq]
      exact hkept

/-- Nothing is lost in picking modules that are all there. -/
theorem map_some_pick {modules : List Hosted} {order : List Nat}
    (h : ∀ position ∈ order, ∃ hosted, modules[position]? = some hosted) :
    (pick modules order).map some = order.map (modules[·]?) := by
  induction order with
  | nil => rfl
  | cons position rest ih =>
    obtain ⟨hosted, hm⟩ := h position List.mem_cons_self
    have ih := ih fun other ho => h other (List.mem_cons_of_mem _ ho)
    unfold pick at ih ⊢
    rw [List.filterMap_cons_some hm, List.map_cons, List.map_cons, ih, hm]

/-- What stands at the positions after a run is what stood there before it. -/
theorem Performs.map_module_pick {acts : List Act} {final : State} {order : List Nat}
    {stage : Stage} (h : Performs limits (State.start modules host) acts final)
    (hin : final.AllIn stage order) :
    (pick final.modules order).map (fun hosted => some hosted.module) =
      order.map (modules[·]?) := by
  have hsome := map_some_pick fun position hp =>
    let ⟨hosted, hm, _⟩ := hin position hp
    (⟨hosted, hm⟩ : ∃ hosted, final.modules[position]? = some hosted)
  have hmap := congrArg (List.map (Option.map Hosted.module)) hsome
  rw [List.map_map, List.map_map] at hmap
  refine hmap.trans (List.map_congr_left fun position _ => ?_)
  have hat := h.moduleAt_eq position
  rw [State.moduleAt_start] at hat
  exact hat

/-- Modules that are named by all positions, each once, are all the modules. -/
theorem perm_of_map_some {order : List Nat} {booted : List Module}
    (hp : order.Perm (List.range modules.length))
    (h : booted.map some = order.map (modules[·]?)) : booted.Perm modules := by
  have hrange : (List.range modules.length).map (modules[·]?) = modules.map some := by
    refine List.ext_getElem? fun i => ?_
    by_cases hi : i < modules.length
    · simp [hi]
    · simp [Nat.le_of_not_lt hi]
  have hperm : (booted.map some).Perm (modules.map some) := by
    rw [h, ← hrange]
    exact hp.map _
  have hid : ∀ list : List Module, (list.map some).filterMap id = list := by simp
  rw [← hid booted, ← hid modules]
  exact hperm.filterMap id

/-- **A whole boot.** Without a graph or an order it answers why, and does nothing. Otherwise the
steps that it takes are a front of its script, none of them twice. Either they are the whole
script and none has failed, and the answer is all modules in their order, each started; or the
last of them is the one that failed, and the answer is its error. -/
theorem boot_trace (limits : Limits) (modules : List Module) (host : Host) :
    (∀ error, Graph.build (modules.map Hosted.fresh) host.context.registry = .error error →
      outcome limits modules host = (.error error, host)) ∧
    (∀ graph error, Graph.build (modules.map Hosted.fresh) host.context.registry = .ok graph →
      graph.order = .error error → outcome limits modules host = (.error error, host)) ∧
    (∀ graph order, Graph.build (modules.map Hosted.fresh) host.context.registry = .ok graph →
      graph.order = .ok order → ∃ performed final,
        performed <+: script order ∧ performed.Nodup ∧
        (outcome limits modules host).2 = final.host ∧
        final.host.steps = host.steps ++
          performed.map (fun act => (act.step, (State.start modules host).nameAt act.position)) ∧
        ((performed = script order ∧
          Performs limits (State.start modules host) performed final ∧
          ∃ booted, (outcome limits modules host).1 = .ok booted ∧
            booted.map (fun hosted => some hosted.module) = order.map (modules[·]?) ∧
            (booted.map Hosted.module).Perm modules ∧
            ∀ hosted ∈ booted, hosted.stage = .started) ∨
        (∃ before act mid error, performed = before ++ [act] ∧
          Performs limits (State.start modules host) before mid ∧
          Fails limits mid act error final ∧
          (outcome limits modules host).1 = .error error))) := by
  refine ⟨?_, ?_, ?_⟩
  · intro error hb
    apply outcome_of_plan_error
    unfold plan
    rw [hb]
    rfl
  · intro graph error hb ho
    apply outcome_of_plan_error
    unfold plan
    rw [hb]
    exact ho
  · intro graph order hb ho
    have hscript := nodup_script (nodup_of_ordered hb ho)
    cases enacts_boot hb ho limits with
    | @all final answer run eq holds =>
      obtain ⟨rfl, hin⟩ := holds
      have hmods := run.map_module_pick hin
      refine ⟨script order, final, List.prefix_rfl, hscript, congrArg Prod.snd eq, run.steps,
        Or.inl ⟨rfl, run, _, congrArg Prod.fst eq, hmods, ?_, ?_⟩⟩
      · apply perm_of_map_some (perm_of_ordered hb ho)
        rw [List.map_map]
        exact hmods
      · intro hosted hh
        obtain ⟨position, hp, hat⟩ := List.mem_filterMap.mp hh
        obtain ⟨_, hm, hs⟩ := hin position hp
        cases hm.symm.trans hat
        exact hs
    | @stopped before after act error mid final cut run fails eq =>
      have hpre : before ++ [act] <+: script order := ⟨after, by simp [cut]⟩
      refine ⟨before ++ [act], final, hpre, hscript.sublist hpre.sublist, congrArg Prod.snd eq, ?_,
        Or.inr ⟨before, act, mid, error, rfl, run, fails, congrArg Prod.fst eq⟩⟩
      rw [fails.steps, run.steps, run.nameAt_eq]
      simp [State.start]

end Boot

end ServiceHost
