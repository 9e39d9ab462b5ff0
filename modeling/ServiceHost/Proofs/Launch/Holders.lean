import ServiceHost.Proofs.Launch.Startup
import ServiceHost.Proofs.Shutdown.Requests

/-!
# Holders — code that was handed a shutdown hook

A host hands its shutdown hook out before it boots, to code that it does not know. What such code
may do with the hook is, again, a matter of requests (`HookOp`): ask it to run, ask whether it is
done, call it off. **A hook that has no modules stops none, whoever asks it and how often**
(`HookEffect.keeps`), and once it is done it stays so.

A hook that has its modules does one kind of thing: the steps that it takes are calls that stop a
module (`OnlyStops`), and the startup status is as little its business as that of the modules.
-/

set_option autoImplicit false

namespace ServiceHost

/-- A request of code that holds a shutdown hook. -/
inductive HookOp where
  | world (op : WorldOp)
  | run
  | isDone
  /-- Tells the hook that there is nothing to stop. -/
  | disarm

def HookOp.Result : HookOp → Type
  | .world op => op.Result
  | .run => ShutdownFailures
  | .isDone => Bool
  | .disarm => Unit

/-- A program that acts on a shutdown hook and on the world of its host. -/
abbrev HookEffect (α : Type) := Program HookOp HookOp.Result α

def HookOp.perform : (op : HookOp) → ShutdownHook × Host → op.Result × (ShutdownHook × Host)
  | .world op, (hook, host) =>
    let (answer, left) := host.world.perform op
    (answer, hook, { host with world := left })
  | .run, (hook, host) =>
    let ((hook, failures), host) := hook.run host
    (failures, hook, host)
  | .isDone, (hook, host) => (hook.isDone, hook, host)
  | .disarm, (hook, host) => ((), hook.disarm, host)

namespace HookEffect

def after {α : Type} (program : HookEffect α) (hook : ShutdownHook) (host : Host) :
    ShutdownHook × Host :=
  (Program.run HookOp.perform program (hook, host)).2

end HookEffect

/-! ## Hooks without modules -/

namespace ShutdownHook

/-- The hook holds no modules. -/
def Unarmed (hook : ShutdownHook) : Prop :=
  ∀ modules, hook.state ≠ .armed modules

theorem unarmed_disarm (hook : ShutdownHook) : hook.disarm.Unarmed := by
  intro modules h
  cases h

theorem unarmed_of_isDone {hook : ShutdownHook} (h : hook.isDone = true) : hook.Unarmed := by
  intro modules hs
  unfold isDone at h
  rw [hs] at h
  cases h

/-- A hook without modules remembers that it was asked to run, and does nothing else. -/
theorem run_of_unarmed {hook : ShutdownHook} (h : hook.Unarmed) (host : Host) :
    hook.run host = ((hook.disarm, []), host) := by
  unfold run
  cases hs : hook.state with
  | armed modules => exact absurd hs (h modules)
  | pending => rfl
  | done => rfl

/-- What code that holds a hook without modules can make of the hook and of the host. -/
structure Keeps (hook : ShutdownHook) (host : Host) (after : ShutdownHook × Host) : Prop where
  unarmed : after.1.Unarmed
  done : hook.isDone = true → after.1.isDone = true
  undisturbed : host.world.Undisturbed after.2.world

/-- **One request** to a hook without modules. -/
theorem Keeps.perform {hook : ShutdownHook} {host : Host} {state : ShutdownHook × Host}
    (h : Keeps hook host state) (op : HookOp) : Keeps hook host (op.perform state).2 := by
  obtain ⟨held, host⟩ := state
  cases op with
  | world op =>
    have hop : host.world.Undisturbed (host.world.perform op).2 :=
      ⟨World.steps_perform op host.world, World.startup_perform op host.world⟩
    exact ⟨h.unarmed, h.done, h.undisturbed.trans hop⟩
  | run =>
    unfold HookOp.perform
    dsimp only
    rw [run_of_unarmed h.unarmed]
    exact ⟨unarmed_disarm held, fun _ => rfl, h.undisturbed⟩
  | isDone => exact h
  | disarm => exact ⟨unarmed_disarm held, fun _ => rfl, h.undisturbed⟩

end ShutdownHook

/-- **A hook without modules stops none**, whatever the code does that holds it. -/
theorem HookEffect.keeps {α : Type} (program : HookEffect α) {hook : ShutdownHook}
    (h : hook.Unarmed) (host : Host) :
    ShutdownHook.Keeps hook host (program.after hook host) :=
  Program.run_invariant (fun op _ _ hk => hk.perform op)
    (Program.allOps_of_forall (fun _ => trivial) program) ⟨h, id, rfl, rfl⟩

/-! ## Hooks with modules -/

/-- The steps from one host to the other are calls that stop modules. -/
def Host.Stops (host after : Host) : Prop :=
  ∃ stopped : List String,
    after.steps = host.steps ++ stopped.map fun name => (.call .shutdown, name)

theorem Host.stops_of_eq {host after : Host} (h : after.steps = host.steps) : host.Stops after :=
  ⟨[], by rw [h, List.map_nil, List.append_nil]⟩

theorem Host.Stops.trans {host mid after : Host} (h : host.Stops mid) (h' : mid.Stops after) :
    host.Stops after := by
  obtain ⟨first, hfirst⟩ := h
  obtain ⟨second, hsecond⟩ := h'
  exact ⟨first ++ second, by rw [hsecond, hfirst, List.map_append, List.append_assoc]⟩

/-- All that an action does to the steps and to the startup status is to stop modules. -/
structure OnlyStops {α : Type} (action : HostM α) : Prop where
  stops : ∀ host : Host, host.Stops (action host).2
  startup : Frames Host.startup action

namespace OnlyStops

variable {α β : Type}

theorem of_frames {action : HostM α} (hs : Frames Host.steps action)
    (hu : Frames Host.startup action) : OnlyStops action where
  stops host := Host.stops_of_eq (hs host)
  startup := hu

theorem pure (a : α) : OnlyStops (Pure.pure a : HostM α) :=
  of_frames (.pure a) (.pure a)

theorem effect (effect : Effect α) : OnlyStops (Host.effect effect) :=
  of_frames (quiet_steps.effect effect) (quiet_startup.effect effect)

theorem bind {action : HostM α} {rest : α → HostM β} (h : OnlyStops action)
    (hr : ∀ a, OnlyStops (rest a)) : OnlyStops (action >>= rest) where
  stops host := (h.stops host).trans ((hr _).stops _)
  startup := h.startup.bind fun a => (hr a).startup

end OnlyStops

namespace ShutdownHook

variable (hook : ShutdownHook) (modules : List Hosted)

theorem startup_conclude (failures : ShutdownFailures) (host : Host) :
    (conclude failures host).startup = host.startup := by
  unfold conclude
  cases failures <;> rfl

theorem onlyStops_shutDown : OnlyStops (hook.shutDown modules) := by
  refine ⟨fun host => ⟨(Shutdown.startedOf modules).reverse.map Hosted.name, ?_⟩, fun host => ?_⟩
  · rw [shutDown_apply]
    dsimp only
    rw [steps_conclude, Shutdown.steps_stopAll, List.map_map]
    rfl
  · rw [shutDown_apply]
    exact (startup_conclude _ _).trans
      (Shutdown.frames_stopAll hook.limits quiet_startup (fun _ _ => rfl) modules host)

theorem onlyStops_arm : OnlyStops (hook.arm modules) := by
  unfold arm
  cases hook.state with
  | pending => exact .pure _
  | armed _ => exact (onlyStops_shutDown hook modules).bind fun _ => .pure _
  | done => exact (onlyStops_shutDown hook modules).bind fun _ => .pure _

theorem onlyStops_run : OnlyStops hook.run := by
  unfold run
  cases hook.state with
  | armed modules => exact (onlyStops_shutDown hook modules).bind fun _ => .pure _
  | pending => exact .pure _
  | done => exact .pure _

end ShutdownHook

end ServiceHost
