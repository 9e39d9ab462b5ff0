import ServiceHost.Launch.Handle
import ServiceHost.Proofs.Boot.Consumers
import ServiceHost.Proofs.Shutdown.Stops

/-!
# Startup — what may change the startup status

The startup status of a host is a cell that every module can read. Nobody can write it: no request
to the world or to a context is one that sets it, so **it is the same before and after whatever
foreign code does** (`quiet_startup`), and in the course of a boot it is at every act what it was
before the boot (`Reaches.startup_eq`).

The acts of a boot are told together with the states that they are made on (`Boot.exists_made`), so
that what holds on each of these states can be said of every call of a module.
-/

set_option autoImplicit false

namespace ServiceHost

/-- The startup status that a host shows. -/
def Host.startup (host : Host) : CheckResult :=
  host.world.startup

/-! ## The status is nobody's to write -/

theorem World.startup_perform (op : WorldOp) (world : World) :
    (world.perform op).2.startup = world.startup := by
  cases op <;> rfl

theorem Effect.startup_run {α : Type} (effect : Effect α) (world : World) :
    (effect.run world).2.startup = world.startup :=
  @Program.run_invariant _ _ _ _ World.perform (fun _ => True) (·.startup = world.startup)
    (fun op after _ h => (World.startup_perform op after).trans h)
    effect (Program.allOps_of_forall (fun _ => trivial) effect) world rfl

/-- From the one world to the other no step was taken, and the startup status is the same. -/
structure World.Undisturbed (world after : World) : Prop where
  steps : after.steps = world.steps
  startup : after.startup = world.startup

theorem World.Undisturbed.trans {world mid after : World} (h : world.Undisturbed mid)
    (h' : mid.Undisturbed after) : world.Undisturbed after :=
  ⟨h'.steps.trans h.steps, h'.startup.trans h.startup⟩

theorem Effect.undisturbed_run {α : Type} (effect : Effect α) (world : World) :
    world.Undisturbed (effect.run world).2 :=
  ⟨frames_steps_effect effect { world }, effect.startup_run world⟩

theorem quiet_startup : Quiet Host.startup where
  locate _ := fun _ => rfl
  report _ := fun _ => rfl
  effect effect := fun host => effect.startup_run host.world
  write _ _ := fun _ => rfl
  changeContext _ _ := fun _ => rfl

theorem frames_startup_register (capability : String) (service : Service) :
    Frames Host.startup (Host.register capability service) :=
  quiet_startup.calm.register fun _ => rfl

/-- **No code that is given the context changes the status.** -/
theorem frames_startup_contextEffect {α : Type} (effect : ContextEffect α) :
    Frames Host.startup (Host.contextEffect effect) :=
  @frames_contextEffect _ _ _ (fun _ => True)
    (fun _ _ => quiet_startup.perform (fun touched _ => frames_startup_register touched)
      (fun _ _ _ _ => rfl) (fun _ _ _ _ => rfl) (fun _ _ => rfl))
    effect (Program.allOps_of_forall (fun _ => trivial) effect)

namespace Boot

variable {limits : Limits} {modules : List Module} {host : Host}

theorem Act.startup_call (limits : Limits) (act : Act) (hosted : Hosted) (host : Host) :
    ((act.call limits hosted).on host).2.startup = host.startup := by
  rw [act.view_call quiet_startup.calm]
  cases act with
  | setUp _ => exact frames_startup_contextEffect _ _
  | _ => rfl

theorem Performs.startup_eq {state final : State} {acts : List Act}
    (h : Performs limits state acts final) : final.host.startup = state.host.startup :=
  @Performs.host_invariant _ _ _ _ (·.startup = state.host.startup) h
    (fun act _ hosted _ host hh => (act.startup_call limits hosted host).trans hh) rfl

theorem Fails.startup_eq {state final : State} {act : Act} {error : BootError}
    (h : Fails limits state act error final) : final.host.startup = state.host.startup := by
  obtain ⟨hosted, _, _, hc, _⟩ := h
  have hs := act.startup_call limits hosted state.host
  rw [hc] at hs
  exact hs

/-! ## The acts of a boot, each with the state it is made on -/

/-- In the boot of the modules, the act is made on that state. -/
def Reaches (limits : Limits) (modules : List Module) (host : Host) (act : Act) (mid : State) :
    Prop :=
  ∃ graph order before rest,
    Graph.build (modules.map Hosted.fresh) host.context.registry = .ok graph ∧
    graph.order = .ok order ∧ script order = before ++ act :: rest ∧
    Performs limits (State.start modules host) before mid

/-- Each act is made among the modules that are booted, where they stand. -/
theorem Reaches.moduleAt_eq {act : Act} {mid : State} (h : Reaches limits modules host act mid)
    (position : Nat) : mid.moduleAt position = modules[position]? := by
  obtain ⟨_, _, _, _, _, _, _, hrun⟩ := h
  rw [hrun.moduleAt_eq, State.moduleAt_start]

theorem Reaches.startup_eq {act : Act} {mid : State} (h : Reaches limits modules host act mid) :
    mid.host.startup = host.startup := by
  obtain ⟨_, _, _, _, _, _, _, hrun⟩ := h
  exact hrun.startup_eq

/-- The step that an act takes in the journal. -/
def stepOf (made : Act × State) : Step × String :=
  (made.1.step, made.2.nameAt made.1.position)

theorem stepOf_ne_shutdown (made : Act × State) : (stepOf made).1 ≠ .call .shutdown := by
  unfold stepOf
  cases made.1 <;> simp [Act.step]

/-- A run, taken apart: each of its acts with the state that it is made on. -/
theorem Performs.exists_made {state final : State} {acts : List Act}
    (h : Performs limits state acts final) :
    ∃ made : List (Act × State), made.map Prod.fst = acts ∧
      (∀ call ∈ made, ∃ before rest, acts = before ++ call.1 :: rest ∧
        Performs limits state before call.2) ∧
      final.host.steps = state.host.steps ++ made.map stepOf := by
  induction h with
  | nil state => exact ⟨[], rfl, by simp, by simp⟩
  | @cons state next final act acts head tail ih =>
    obtain ⟨made, hacts, hmade, hsteps⟩ := ih
    refine ⟨(act, state) :: made, by rw [List.map_cons, hacts], ?_, ?_⟩
    · intro call hcall
      rcases List.mem_cons.mp hcall with rfl | hcall
      · exact ⟨[], acts, rfl, .nil state⟩
      · obtain ⟨before, rest, heq, hrun⟩ := hmade call hcall
        exact ⟨act :: before, rest, by rw [heq, List.cons_append], .cons head hrun⟩
    · rw [hsteps, head.steps]
      simp [stepOf]

/-- **What a boot does** is acts, each made when its turn comes. If the boot comes up they are its
whole script. -/
theorem exists_made (limits : Limits) (modules : List Module) (host : Host) :
    ∃ made : List (Act × State),
      (∀ call ∈ made, Reaches limits modules host call.1 call.2) ∧
      (outcome limits modules host).2.steps = host.steps ++ made.map stepOf ∧
      (outcome limits modules host).2.startup = host.startup ∧
      ∀ booted, (outcome limits modules host).1 = .ok booted → ∃ graph order,
        Graph.build (modules.map Hosted.fresh) host.context.registry = .ok graph ∧
        graph.order = .ok order ∧ made.map Prod.fst = script order := by
  cases hp : plan (modules.map Hosted.fresh) host.context.registry with
  | error error =>
    rw [outcome_of_plan_error hp]
    exact ⟨[], by simp, by simp, rfl, fun _ h => by cases h⟩
  | ok order =>
    obtain ⟨graph, hb, ho⟩ := plan_eq_ok_iff.mp hp
    unfold outcome
    cases enacts_boot hb ho limits with
    | @all final answer run eq _ =>
      obtain ⟨made, hacts, hmade, hsteps⟩ := run.exists_made
      have eq : (boot Injection.fromRegistry limits (modules.map Hosted.fresh)).on host = _ := eq
      rw [eq]
      refine ⟨made, fun call hcall => ?_, hsteps, run.startup_eq,
        fun _ _ => ⟨graph, order, hb, ho, hacts⟩⟩
      obtain ⟨before, rest, hsplit, hrun⟩ := hmade call hcall
      exact ⟨graph, order, before, rest, hb, ho, hsplit, hrun⟩
    | @stopped before after act error mid final cut run fails eq =>
      obtain ⟨made, hacts, hmade, hsteps⟩ := run.exists_made
      have eq : (boot Injection.fromRegistry limits (modules.map Hosted.fresh)).on host = _ := eq
      rw [eq]
      -- The act that fails has begun as well, and is the last one.
      refine ⟨made ++ [(act, mid)], fun call hcall => ?_, ?_,
        fails.startup_eq.trans run.startup_eq, fun _ h => by cases h⟩
      · rcases List.mem_append.mp hcall with hcall | hcall
        · obtain ⟨front, rest, hsplit, hrun⟩ := hmade call hcall
          refine ⟨graph, order, front, rest ++ act :: after, hb, ho, ?_, hrun⟩
          rw [cut, hsplit, List.append_assoc, List.cons_append]
        · rw [List.mem_singleton.mp hcall]
          exact ⟨graph, order, before, after, hb, ho, cut, run⟩
      · show final.host.steps = _
        rw [fails.steps, hsteps]
        simp [stepOf, State.start]

theorem count_script {order : List Nat} (hn : order.Nodup) {position : Nat}
    (hm : position ∈ order) :
    (script order).count (.setUp position) = 1 ∧ (script order).count (.start position) = 1 := by
  have hscript := nodup_script hn
  refine ⟨List.count_eq_one_of_mem hscript ?_, List.count_eq_one_of_mem hscript ?_⟩
  · exact List.mem_append_left _ (mem_flatMap_pair.mpr hm)
  · exact List.mem_append_right _ (List.mem_map_of_mem hm)

end Boot

end ServiceHost
