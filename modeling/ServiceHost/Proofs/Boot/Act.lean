import ServiceHost.Boot.Loader
import ServiceHost.Proofs.Host.Injection

/-!
# Acts — what a boot does to one module

A boot does three things to a module: it injects it, sets it up and starts it. Each is an `Act` on
a position of the module list. An act fails for one reason at most, which `Act.error?` tells from
the module and the host it begins on, **a failure counting before the time it took**; and the
loader's own call answers that error and no other (`Act.call_answer`). Whatever the answer, the
call has written its step and has done to the host what the module asked for, and a view that is
`Calm` shows nothing else (`Act.view_call`).
-/

set_option autoImplicit false

namespace ServiceHost

/-- The host after it wrote down that a step of a module begins. -/
def Host.enter (step : Step) (module : String) (host : Host) : Host :=
  (Host.write (.stepped step module) host).2

/-- Why a call of a module counts as failed, by what it answered and how long it took: a failure
counts before the time. -/
def callError? (limits : Limits) (phase : Phase) (module : String) :
    Except Failure Memory × Nat → Option BootError
  | (.error failure, _) => some (.failed phase module failure)
  | (.ok _, elapsed) =>
    if limits.timeout < elapsed then some (.timeout phase module elapsed limits.timeout) else none

theorem steps_enter (step : Step) (module : String) (host : Host) :
    (host.enter step module).steps = host.steps ++ [(step, module)] :=
  Host.steps_write (.stepped step module) host

/-! ## Timed calls -/

section Timed

variable {α : Type} (limits : Limits) (phase : Phase) (module : String) (call : HostM α)

/-- What a timed call comes to: the call on the host that has written its step down, the time
that the clock has moved on by, and a report where that was long. -/
theorem timed_apply (host : Host) :
    timed limits phase module call host =
      let after := call (host.enter (.call phase) module)
      let elapsed := after.2.world.clock + after.2.world.overhead - host.world.clock
      let left := (Host.effect (Effect.elapse after.2.world.overhead) after.2).2
      ((after.1, elapsed),
        if limits.warn < elapsed then
          (Host.warning (phase.name ++ " of " ++ module ++ " took " ++
            toString (millisOfNanos elapsed) ++ "ms, threshold is " ++
            toString (millisOfNanos limits.warn) ++ "ms") left).2
        else left) := by
  unfold timed
  show (if limits.warn < (call (host.enter (.call phase) module)).2.world.clock +
      (call (host.enter (.call phase) module)).2.world.overhead - host.world.clock
    then _ else _ : HostM (α × Nat)) (Host.effect (Effect.elapse _) _).2 = _
  dsimp only
  split
  · rfl
  · rfl

/-- What can be seen after a timed call is what can be seen after the call. -/
theorem Calm.timed {β : Type} {view : Host → β} (q : Calm view) (host : Host) :
    view (timed limits phase module call host).2 =
      view (call (host.enter (.call phase) module)).2 := by
  rw [timed_apply]
  dsimp only
  split
  · exact (q.report _ _).trans (q.effect _ _)
  · exact q.effect _ _

end Timed

namespace Boot

/-- What a call that is to move a module on answers: its error if it has one, and else the same
module, which has moved on if it was where the call expects it. -/
def Answers (hosted : Hosted) (stageBefore stageAfter : Stage) (error? : Option BootError)
    (answer : Except BootError Hosted) : Prop :=
  match error? with
  | some error => answer = .error error
  | none => ∃ after, answer = .ok after ∧ after.module = hosted.module ∧
      (hosted.stage = stageBefore → after.stage = stageAfter)

/-- What a timed call of a module comes to: its error, or the module with its new memory, moved on
to the next stage. -/
def settle (limits : Limits) (phase : Phase) (next : Stage) (hosted : Hosted) :
    (Except Failure Memory × Nat) × Host → Except BootError Hosted
  | ((.error failure, _), _) => .error (.failed phase hosted.name failure)
  | ((.ok memory, elapsed), after) =>
    match limits.timeoutError? phase hosted.name elapsed with
    | some error => .error error
    | none => .ok ({ hosted with memory }.advance next after).1

theorem answers_settle {stage next : Stage} (hnext : stage.canAdvanceTo next = true)
    (limits : Limits) (phase : Phase) (hosted : Hosted)
    (call : (Except Failure Memory × Nat) × Host) :
    Answers hosted stage next (callError? limits phase hosted.name call.1)
      (settle limits phase next hosted call) := by
  rcases call with ⟨⟨failure | memory, elapsed⟩, after⟩
  · rfl
  · unfold callError? settle Limits.timeoutError?
    dsimp only
    split
    · rfl
    · refine ⟨_, rfl, Hosted.module_advance _ _ _, fun hs => Hosted.stage_advance ?_ _⟩
      show hosted.stage.canAdvanceTo next = true
      rw [hs]
      exact hnext

/-! ## Injecting -/

/-- Why injecting a module fails, if it does. -/
def injectError? (hosted : Hosted) (host : Host) : Option BootError :=
  match (Injection.fromRegistry hosted (host.enter .inject hosted.name)).1.2 with
  | .error error => some (.injection error)
  | .ok () => none

theorem inject_on (injector : Injector) (hosted : Hosted) (host : Host) :
    (inject injector hosted).on host =
      match injector hosted (host.enter .inject hosted.name) with
      | ((_, .error error), host) => (.error (.injection error), host)
      | ((hosted, .ok ()), host) => (.ok hosted, host) := by
  unfold inject Host.enter
  rw [BootM.on_bind, BootM.on_lift]
  dsimp only
  rw [BootM.on_bind, BootM.on_lift]
  rcases injector hosted (Host.write (.stepped .inject hosted.name) host).2 with
    ⟨⟨hosted, error | _⟩, after⟩ <;> rfl

theorem inject_answers (hosted : Hosted) (host : Host) :
    Answers hosted .discovered .injected (injectError? hosted host)
      ((inject Injection.fromRegistry hosted).on host).1 := by
  have hm := Injection.fromRegistry_module hosted (host.enter .inject hosted.name)
  have hs := @Injection.fromRegistry_stage hosted (host.enter .inject hosted.name)
  unfold injectError?
  rw [inject_on]
  rcases hc : Injection.fromRegistry hosted (host.enter .inject hosted.name) with
    ⟨⟨after, error | _⟩, _⟩
  · rfl
  · rw [hc] at hm hs
    exact ⟨after, rfl, hm, fun h => hs h rfl⟩

theorem view_inject {β : Type} {view : Host → β} (q : Calm view) (hosted : Hosted)
    (host : Host) : view ((inject Injection.fromRegistry hosted).on host).2 =
      view (host.enter .inject hosted.name) := by
  have h := Injection.frames_fromRegistry q hosted (host.enter .inject hosted.name)
  rw [inject_on]
  rcases hc : Injection.fromRegistry hosted (host.enter .inject hosted.name) with
    ⟨⟨after, error | _⟩, _⟩
  · rw [hc] at h
    exact h
  · rw [hc] at h
    exact h

/-! ## Setting up -/

/-- Why setting a module up fails, if it does. -/
def setUpError? (limits : Limits) (hosted : Hosted) (host : Host) : Option BootError :=
  callError? limits .setUp hosted.name (timed limits .setUp hosted.name
    (Host.contextEffect (hosted.module.setUp hosted.memory)) host).1

theorem setUp_on (limits : Limits) (hosted : Hosted) (host : Host) :
    (setUp limits hosted).on host =
      match timed limits .setUp hosted.name
        (Host.contextEffect (hosted.module.setUp hosted.memory)) host with
      | ((.error failure, _), after) => (.error (.failed .setUp hosted.name failure), after)
      | ((.ok memory, elapsed), after) =>
        match limits.timeoutError? .setUp hosted.name elapsed with
        | some error => (.error error, after)
        | none =>
          (.ok ({ hosted with memory }.advance .initialized after).1,
            (Host.info ("Initialized " ++ hosted.name)
              ({ hosted with memory }.advance .initialized after).2).2) := by
  unfold setUp
  rw [BootM.on_bind, BootM.on_lift]
  rcases timed limits .setUp hosted.name
    (Host.contextEffect (hosted.module.setUp hosted.memory)) host with ⟨⟨failure | memory, elapsed⟩, after⟩
  · rfl
  · unfold checkTime
    dsimp only
    have hn := Hosted.name_advance .initialized { hosted with memory } after
    cases limits.timeoutError? .setUp hosted.name elapsed with
    | some error => simp
    | none => simp only [BootM.on_bind, BootM.on_lift, BootM.on_pure, hn]; rfl

theorem setUp_settles (limits : Limits) (hosted : Hosted) (host : Host) :
    ((setUp limits hosted).on host).1 = settle limits .setUp .initialized hosted
      (timed limits .setUp hosted.name
        (Host.contextEffect (hosted.module.setUp hosted.memory)) host) := by
  rw [setUp_on]
  rcases timed limits .setUp hosted.name
    (Host.contextEffect (hosted.module.setUp hosted.memory)) host with
    ⟨⟨failure | memory, elapsed⟩, after⟩
  · rfl
  · unfold settle
    dsimp only
    cases limits.timeoutError? .setUp hosted.name elapsed with
    | some error => rfl
    | none => rfl

theorem setUp_answers (limits : Limits) (hosted : Hosted) (host : Host) :
    Answers hosted .injected .initialized (setUpError? limits hosted host)
      ((setUp limits hosted).on host).1 := by
  rw [setUp_settles]
  exact answers_settle rfl _ _ _ _

theorem view_setUp {β : Type} {view : Host → β} (q : Calm view) (limits : Limits)
    (hosted : Hosted) (host : Host) : view ((setUp limits hosted).on host).2 =
      view (Host.contextEffect (hosted.module.setUp hosted.memory)
        (host.enter (.call .setUp) hosted.name)).2 := by
  rw [setUp_on, ← q.timed limits .setUp hosted.name]
  rcases timed limits .setUp hosted.name
    (Host.contextEffect (hosted.module.setUp hosted.memory)) host with
    ⟨⟨failure | memory, elapsed⟩, after⟩
  · rfl
  · dsimp only
    cases limits.timeoutError? .setUp hosted.name elapsed with
    | some error => rfl
    | none => exact (q.report _ _).trans (q.advance _ _ _)

/-! ## Starting -/

/-- Why starting a module fails, if it does. -/
def startError? (limits : Limits) (hosted : Hosted) (host : Host) : Option BootError :=
  callError? limits .start hosted.name (timed limits .start hosted.name
    (Host.effect (hosted.module.start hosted.memory)) host).1

theorem start_on (limits : Limits) (hosted : Hosted) (host : Host) :
    (start limits hosted).on host =
      match timed limits .start hosted.name
        (Host.effect (hosted.module.start hosted.memory)) host with
      | ((.error failure, _), after) => (.error (.failed .start hosted.name failure), after)
      | ((.ok memory, elapsed), after) =>
        match limits.timeoutError? .start hosted.name elapsed with
        | some error => (.error error, ({ hosted with memory }.advance .started after).2)
        | none =>
          (.ok ({ hosted with memory }.advance .started after).1,
            (Host.info ("Started " ++ hosted.name)
              ({ hosted with memory }.advance .started after).2).2) := by
  unfold start
  rw [BootM.on_bind, BootM.on_lift]
  rcases timed limits .start hosted.name
    (Host.effect (hosted.module.start hosted.memory)) host with ⟨⟨failure | memory, elapsed⟩, after⟩
  · rfl
  · unfold checkTime
    have hn : ({ hosted with memory }.advance .started after).1.name = hosted.name :=
      Hosted.name_advance .started { hosted with memory } after
    simp only [BootM.on_bind, BootM.on_lift, hn]
    cases limits.timeoutError? .start hosted.name elapsed with
    | some error => rfl
    | none => rfl

theorem start_settles (limits : Limits) (hosted : Hosted) (host : Host) :
    ((start limits hosted).on host).1 = settle limits .start .started hosted
      (timed limits .start hosted.name
        (Host.effect (hosted.module.start hosted.memory)) host) := by
  rw [start_on]
  rcases timed limits .start hosted.name
    (Host.effect (hosted.module.start hosted.memory)) host with
    ⟨⟨failure | memory, elapsed⟩, after⟩
  · rfl
  · unfold settle
    dsimp only
    cases limits.timeoutError? .start hosted.name elapsed with
    | some error => rfl
    | none => rfl

theorem start_answers (limits : Limits) (hosted : Hosted) (host : Host) :
    Answers hosted .initialized .started (startError? limits hosted host)
      ((start limits hosted).on host).1 := by
  rw [start_settles]
  exact answers_settle rfl _ _ _ _

theorem view_start {β : Type} {view : Host → β} (q : Calm view) (limits : Limits)
    (hosted : Hosted) (host : Host) : view ((start limits hosted).on host).2 =
      view (host.enter (.call .start) hosted.name) := by
  -- A start only reaches the world, so even the module's own work shows nothing.
  rw [start_on, ← q.effect (hosted.module.start hosted.memory) (host.enter _ _),
    ← q.timed limits .start hosted.name]
  rcases timed limits .start hosted.name
    (Host.effect (hosted.module.start hosted.memory)) host with
    ⟨⟨failure | memory, elapsed⟩, after⟩
  · rfl
  · dsimp only
    cases limits.timeoutError? .start hosted.name elapsed with
    | some error => exact q.advance _ _ _
    | none => exact (q.report _ _).trans (q.advance _ _ _)

/-! ## Acts -/

/-- What a boot does to the module at a position. -/
inductive Act where
  | inject (position : Nat)
  | setUp (position : Nat)
  | start (position : Nat)
deriving DecidableEq, Repr

namespace Act

/-- The position of the module. -/
def position : Act → Nat
  | .inject position | .setUp position | .start position => position

/-- The step of the module's life that an act takes. -/
def step : Act → Step
  | .inject _ => .inject
  | .setUp _ => .call .setUp
  | .start _ => .call .start

/-- The stage in which an act finds a module. -/
def stageBefore : Act → Stage
  | .inject _ => .discovered
  | .setUp _ => .injected
  | .start _ => .initialized

/-- The stage in which an act that does not fail leaves a module. -/
def stageAfter : Act → Stage
  | .inject _ => .injected
  | .setUp _ => .initialized
  | .start _ => .started

/-- The loader's call for an act. -/
def call (limits : Limits) : Act → Hosted → BootM Hosted
  | .inject _ => Boot.inject Injection.fromRegistry
  | .setUp _ => Boot.setUp limits
  | .start _ => Boot.start limits

/-- Why an act on a module fails on a host, if it does: a slot that cannot be filled, a call that
fails, or one that ends well but too late. -/
def error? (limits : Limits) : Act → Hosted → Host → Option BootError
  | .inject _ => injectError?
  | .setUp _ => setUpError? limits
  | .start _ => startError? limits

/-- The host after what a module itself does to it in an act: while it is set up it has the
context, and otherwise the world at most. -/
def worked (act : Act) (hosted : Hosted) (host : Host) : Host :=
  match act with
  | .setUp _ => (Host.contextEffect (hosted.module.setUp hosted.memory) host).2
  | _ => host

/-- **The loader answers the error of an act exactly if there is one**, and else the same module,
one stage further. -/
theorem call_answers (limits : Limits) (act : Act) (hosted : Hosted) (host : Host) :
    Answers hosted act.stageBefore act.stageAfter (act.error? limits hosted host)
      ((act.call limits hosted).on host).1 := by
  cases act with
  | inject _ => exact inject_answers hosted host
  | setUp _ => exact setUp_answers limits hosted host
  | start _ => exact start_answers limits hosted host

/-- **What can be seen of a host after an act** is what can be seen after the module's own work on
the host that has written the step down, whether the act fails or not. -/
theorem view_call {β : Type} {view : Host → β} (q : Calm view) (limits : Limits) (act : Act)
    (hosted : Hosted) (host : Host) :
    view ((act.call limits hosted).on host).2 =
      view (act.worked hosted (host.enter act.step hosted.name)) := by
  cases act with
  | inject _ => exact view_inject q hosted host
  | setUp _ => exact view_setUp q limits hosted host
  | start _ => exact view_start q limits hosted host

/-- An act is one step of a module's life, and nothing that the module does in it is another. -/
theorem steps_call (limits : Limits) (act : Act) (hosted : Hosted) (host : Host) :
    ((act.call limits hosted).on host).2.steps = host.steps ++ [(act.step, hosted.name)] := by
  -- What is left is the module's own work, and that never writes a step.
  rw [view_call quiet_steps.calm, ← steps_enter]
  cases act with
  | setUp _ => exact frames_steps_contextEffect _ _
  | _ => rfl

end Act

end Boot

end ServiceHost
