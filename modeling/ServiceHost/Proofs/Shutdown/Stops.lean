import ServiceHost.Boot.Shutdown
import ServiceHost.Proofs.Boot.Act

/-!
# Stops — what a shutdown does to the modules it is given

`Shutdown.stopAll` goes through a list from its end and stops what is started. What a call answers
decides nothing about the calls after it, so **which modules are called, and in which order, is
fixed by the list alone** (`steps_stopAll`): the started ones, the last first, one call each. The
calls themselves are listed by `calls`, and the failures that a shutdown answers are those of the
calls, one for each that failed or took too long (`failures_stopAll`). A module that is stopped
reaches the world at most, so all that is registered is still there when the last call has
returned (`registry_stopAll`).
-/

set_option autoImplicit false

namespace ServiceHost

namespace Shutdown

/-- The modules of a list that are started. -/
def startedOf (modules : List Hosted) : List Hosted :=
  modules.filter fun hosted => hosted.stage = .started

/-- The steps of a shutdown: one call for each module that is started, the last of them first. -/
def stepsOf (modules : List Hosted) : List (Step × String) :=
  (startedOf modules).reverse.map fun hosted => (.call .shutdown, hosted.name)

/-- The stage in which a shutdown leaves a module that it finds in a stage. -/
def stageAfter (stage : Stage) : Stage :=
  if stage = .started then .stopped else stage

/-! ## One module -/

section One

variable (limits : Limits) {hosted : Hosted}

/-- The call that stops a module: what it answers, and the time it takes. -/
def call (limits : Limits) (hosted : Hosted) : HostM (Except Failure Memory × Nat) :=
  timed limits .shutdown hosted.name (Host.effect (hosted.module.stop hosted.memory))

/-- What is kept of a call that failed or took too long, under the name of its module. -/
def failureOf (limits : Limits) (hosted : Hosted) (answer : Except Failure Memory × Nat) :
    Option (String × Failure) :=
  (failure? limits hosted.name answer.1 answer.2).map (hosted.name, ·)

/-- A module after the call that stopped it: one that failed remembers what it did before. -/
def stopped (hosted : Hosted) (answer : Except Failure Memory × Nat) : Hosted :=
  { hosted with
    memory := match answer.1 with
      | .ok memory => memory
      | .error _ => hosted.memory
    stage := .stopped }

/-- The host after it has reported how the call that stopped a module ended. -/
def reported (limits : Limits) (hosted : Hosted) (answer : Except Failure Memory × Nat)
    (host : Host) : Host :=
  let host := match failure? limits hosted.name answer.1 answer.2 with
    | some cause => (Host.report
        { level := .severe, message := "Error shutting down " ++ hosted.name, cause } host).2
    | none => host
  (Host.info ("Shutdown " ++ hosted.name) host).2

theorem stop_of_ne (h : hosted.stage ≠ .started) (host : Host) :
    stop limits hosted host = ((hosted, []), host) := by
  unfold stop
  rw [if_pos h]
  rfl

/-- What stopping a started module comes to: its call, the failure of the call if there is one,
and the module moved on in either case. -/
theorem stop_of_started (h : hosted.stage = .started) (host : Host) :
    stop limits hosted host =
      let answered := call limits hosted host
      ((stopped hosted answered.1, (failureOf limits hosted answered.1).toList),
        reported limits hosted answered.1 answered.2) := by
  obtain ⟨module, memory, stage⟩ := hosted
  obtain rfl : stage = .started := h
  unfold stop failureOf reported
  rw [if_neg fun hne => hne rfl, HostM.bind_apply]
  unfold call
  rcases timed limits .shutdown _ _ host with ⟨⟨result, elapsed⟩, after⟩
  dsimp only
  -- Whether there is a failure decides what is reported, and the answer what is remembered.
  generalize failure? limits (Hosted.name ⟨module, memory, .started⟩) result elapsed = failed
  cases failed <;> cases result <;> rfl

/-- **What can be seen after a module is stopped** is that its call began, and nothing where it
was not called. -/
theorem view_stop {β : Type} {view : Host → β} (q : Quiet view) (hosted : Hosted) (host : Host) :
    view (stop limits hosted host).2 =
      if hosted.stage = .started then view (host.enter (.call .shutdown) hosted.name)
      else view host := by
  by_cases h : hosted.stage = .started
  · rw [if_pos h, stop_of_started limits h]
    have hcall : view (call limits hosted host).2 =
        view (host.enter (.call .shutdown) hosted.name) :=
      (q.calm.timed limits .shutdown hosted.name _ host).trans (q.effect _ _)
    rw [← hcall]
    rcases call limits hosted host with ⟨answer, after⟩
    unfold reported
    dsimp only
    cases failure? limits hosted.name answer.1 answer.2 with
    | none => exact q.report _ _
    | some cause => exact (q.report _ _).trans (q.report _ _)
  · rw [if_neg h, stop_of_ne limits h]

end One

/-! ## All modules of a list -/

section All

variable (limits : Limits)

theorem stopAll_cons (hosted : Hosted) (rest : List Hosted) (host : Host) :
    stopAll limits (hosted :: rest) host =
      let others := stopAll limits rest host
      let one := stop limits hosted others.2
      ((one.1.1 :: others.1.1, others.1.2 ++ one.1.2), one.2) := rfl

/-- The calls of a shutdown in their order: the module that is called, what it answers, and the
time it takes. -/
def calls (limits : Limits) :
    List Hosted → Host → List (Hosted × (Except Failure Memory × Nat))
  | [], _ => []
  | hosted :: rest, host =>
    calls limits rest host ++
      if hosted.stage = .started then
        [(hosted, (call limits hosted (stopAll limits rest host).2).1)]
      else []

theorem startedOf_cons (hosted : Hosted) (rest : List Hosted) :
    startedOf (hosted :: rest) =
      (if hosted.stage = .started then [hosted] else []) ++ startedOf rest := by
  unfold startedOf
  by_cases h : hosted.stage = .started <;> simp [h]

/-- **Every started module is called, the last first**, whatever the calls before answered. -/
theorem map_fst_calls (modules : List Hosted) (host : Host) :
    (calls limits modules host).map Prod.fst = (startedOf modules).reverse := by
  induction modules with
  | nil => rfl
  | cons hosted rest ih =>
    rw [calls, List.map_append, ih, startedOf_cons]
    by_cases h : hosted.stage = .started <;> simp [h]

/-- **A shutdown answers the failures of its calls**, all of them and no others. -/
theorem failures_stopAll (modules : List Hosted) (host : Host) :
    (stopAll limits modules host).1.2 =
      (calls limits modules host).filterMap fun made => failureOf limits made.1 made.2 := by
  induction modules with
  | nil => rfl
  | cons hosted rest ih =>
    rw [stopAll_cons, calls, List.filterMap_append, ← ih]
    dsimp only
    by_cases h : hosted.stage = .started
    · rw [stop_of_started limits h, if_pos h]
      cases hf : failureOf limits hosted
        (call limits hosted (stopAll limits rest host).2).1 <;> simp [hf]
    · rw [stop_of_ne limits h, if_neg h]
      simp

/-- **The steps of a shutdown** are the calls of the started modules, from the last to the first,
and no others. -/
theorem steps_stopAll (modules : List Hosted) (host : Host) :
    (stopAll limits modules host).2.steps = host.steps ++ stepsOf modules := by
  induction modules with
  | nil => simp [stopAll, stepsOf, startedOf]; rfl
  | cons hosted rest ih =>
    rw [stopAll_cons]
    dsimp only
    rw [view_stop limits quiet_steps, steps_enter, ih]
    unfold stepsOf
    rw [startedOf_cons]
    by_cases h : hosted.stage = .started <;> simp [h]

/-- What is quiet, and does not show the calls either, is after a shutdown what it was before. -/
theorem frames_stopAll {β : Type} {view : Host → β} (q : Quiet view)
    (hw : ∀ event, Frames view (Host.write event)) (modules : List Hosted) :
    Frames view (stopAll limits modules) := by
  intro host
  induction modules with
  | nil => rfl
  | cons hosted rest ih =>
    have hstop := view_stop limits q hosted (stopAll limits rest host).2
    rw [stopAll_cons]
    refine hstop.trans ?_
    split
    · exact (hw _ _).trans ih
    · exact ih

/-- **When the last call has returned, all that was registered is still there.** -/
theorem registry_stopAll (modules : List Hosted) (host : Host) :
    (stopAll limits modules host).2.context.registry = host.context.registry :=
  frames_stopAll limits quiet_registry (fun _ _ => rfl) modules host

/-- A shutdown keeps every module and its place, and moves the started ones on. -/
theorem modules_stopAll (modules : List Hosted) (host : Host) :
    (stopAll limits modules host).1.1.map (fun hosted => (hosted.module, hosted.stage)) =
      modules.map fun hosted => (hosted.module, stageAfter hosted.stage) := by
  induction modules with
  | nil => rfl
  | cons hosted rest ih =>
    rw [stopAll_cons, List.map_cons, List.map_cons, ih]
    congr 1
    unfold stageAfter
    by_cases h : hosted.stage = .started
    · rw [stop_of_started limits h, if_pos h]
      rfl
    · rw [stop_of_ne limits h, if_neg h]

end All

end Shutdown

end ServiceHost
