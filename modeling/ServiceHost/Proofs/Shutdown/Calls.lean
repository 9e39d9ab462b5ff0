import ServiceHost.Proofs.Host.Journal
import ServiceHost.Proofs.Shutdown.Stops
import Mathlib.Data.List.Forall2

/-!
# Shutdown calls — one after the other, each with its reports

A shutdown is a run of calls (`Makes`): each is made on the host that the call before it left, and
what the host reports on it is a list that is told from its answer and its time (`Made.reports`).
**A failure is one severe report in that list and nothing else**: the next call is made all the
same, and the module counts as stopped.

So the journal of a shutdown is known call by call, up to what the modules write into it on their
own (`Makes.exists_journal`); and as no module is left started, a shutdown of what a shutdown has
left does nothing (`stopAll_of_none_started`).
-/

set_option autoImplicit false

namespace ServiceHost

namespace Shutdown

/-! ## One call -/

/-- A call as it was made: the module, what it answered, and the time it took. -/
abbrev Made := Hosted × (Except Failure Memory × Nat)

/-- The work of a module that is shut down, on a host that has written down that it begins, and the
time that any call takes. -/
def work (hosted : Hosted) (host : Host) : Except Failure Memory × Host :=
  let after := Host.effect (hosted.module.stop hosted.memory)
    (host.enter (.call .shutdown) hosted.name)
  (after.1, (Host.effect (Effect.elapse after.2.world.overhead) after.2).2)

/-- The call that the work of a module comes to. -/
def callOf (hosted : Hosted) (host : Host) : Made :=
  (hosted, (work hosted host).1, (work hosted host).2.world.clock - host.world.clock)

/-- The failure that is collected of a call: the one that was answered, however long it took, and
otherwise the timeout, if it took too long. -/
def Made.failure? (limits : Limits) : Made → Option (String × Failure)
  | (hosted, .error failure, _) => some (hosted.name, failure)
  | (hosted, .ok _, elapsed) =>
    if limits.timeout < elapsed then
      some (hosted.name,
        (BootError.timeout .shutdown hosted.name elapsed limits.timeout).toFailure)
    else none

/-- The report on a failure that is collected. -/
def severe (failed : String × Failure) : Report where
  level := .severe
  message := "Error shutting down " ++ failed.1
  cause := failed.2

/-- The report on a call that was slow. -/
def Made.slowReports (limits : Limits) (made : Made) : List Report :=
  if limits.warn < made.2.2 then
    [{ level := .warning
       message := "shutdown of " ++ made.1.name ++ " took " ++
        toString (millisOfNanos made.2.2) ++ "ms, threshold is " ++
        toString (millisOfNanos limits.warn) ++ "ms" }]
  else []

/-- What the host reports on a call: that it was slow, that it failed, and that the module is shut
down. -/
def Made.reports (limits : Limits) (made : Made) : List Report :=
  made.slowReports limits ++ (made.failure? limits).toList.map severe ++
    [{ level := .info, message := "Shutdown " ++ made.1.name }]

/-- **A call that failed is worth one severe report**, with the failure as its cause, and a call
that did not is worth none. -/
theorem Made.severe_reports (limits : Limits) (made : Made) :
    (made.reports limits).filter (·.level = .severe) =
      (made.failure? limits).toList.map severe := by
  unfold reports slowReports
  cases made.failure? limits <;> split <;> simp [severe]

variable {limits : Limits} {host mid after : Host} {hosted : Hosted} {modules : List Hosted}
  {made more : List Made}

theorem failureOf_eq (limits : Limits) (made : Made) :
    failureOf limits made.1 made.2 = made.failure? limits := by
  obtain ⟨hosted, failure | memory, elapsed⟩ := made
  · rfl
  · unfold failureOf failure? Limits.timeoutError? Made.failure?
    dsimp only
    split <;> rfl

/-- **What a shutdown answers are the failures of its calls**, in their order. -/
theorem failures_eq (limits : Limits) (modules : List Hosted) (host : Host) :
    (stopAll limits modules host).1.2 =
      (calls limits modules host).filterMap (Made.failure? limits) := by
  rw [failures_stopAll]
  exact congrArg (List.filterMap · _) (funext (failureOf_eq limits))

/-- What a timed call comes to: its answer, and the host of the work with a report where that was
slow. -/
theorem call_apply (limits : Limits) (hosted : Hosted) (host : Host) :
    call limits hosted host = ((callOf hosted host).2,
      (work hosted host).2.reporting ((callOf hosted host).slowReports limits)) := by
  unfold call Made.slowReports
  rw [timed_apply]
  dsimp only
  show (_, if limits.warn < (callOf hosted host).2.2 then _ else _) = _
  split <;> rfl

/-- How a call ended is reported by the rest of its reports. -/
theorem reported_eq (limits : Limits) (made : Made) (host : Host) :
    reported limits made.1 made.2 host =
      host.reporting ((made.failure? limits).toList.map severe ++
        [{ level := .info, message := "Shutdown " ++ made.1.name }]) := by
  rw [← failureOf_eq]
  unfold reported failureOf
  cases Shutdown.failure? limits made.1.name made.2.1 made.2.2 <;> rfl

/-- **A call leaves the host of the module's work, with its reports made.** -/
theorem reported_call (limits : Limits) (hosted : Hosted) (host : Host) :
    reported limits hosted (call limits hosted host).1 (call limits hosted host).2 =
      (work hosted host).2.reporting ((callOf hosted host).reports limits) := by
  rw [call_apply, Made.reports, List.append_assoc, Host.reporting_append]
  exact reported_eq limits (callOf hosted host) _

/-! ## The run of calls -/

/-- Calls are made one after the other, each on the host that the one before it left. -/
inductive Makes (limits : Limits) : Host → List Made → Host → Prop
  | done (host : Host) : Makes limits host [] host
  | next {host after : Host} {hosted : Hosted} {made : List Made}
      (rest : Makes limits
        ((work hosted host).2.reporting ((callOf hosted host).reports limits)) made after) :
      Makes limits host (callOf hosted host :: made) after

theorem Makes.append (h : Makes limits host made mid) (hmore : Makes limits mid more after) :
    Makes limits host (made ++ more) after := by
  induction h with
  | done host => exact hmore
  | next _ ih => exact .next (ih hmore)

/-- **A shutdown is the run of its calls**, and does nothing else to the host. -/
theorem makes_calls (limits : Limits) (modules : List Hosted) (host : Host) :
    Makes limits host (calls limits modules host) (stopAll limits modules host).2 := by
  induction modules with
  | nil => exact .done host
  | cons hosted rest ih =>
    rw [stopAll_cons, calls]
    dsimp only
    by_cases h : hosted.stage = .started
    · rw [stop_of_started limits h, if_pos h]
      dsimp only
      rw [reported_call, call_apply]
      exact ih.append (.next (.done _))
    · rw [stop_of_ne limits h, if_neg h, List.append_nil]
      exact ih

/-- What a call comes to in the journal: that it begins, what the module writes on its own, and the
reports of the host. -/
def entries (limits : Limits) (monitor : Monitor) (made : Made) (own : List Event) : List Event :=
  .stepped (.call .shutdown) made.1.name :: own ++ monitor.events (made.reports limits)

/-- **The journal of a run of calls, call by call.** -/
theorem Makes.exists_journal (h : Makes limits host made after) :
    ∃ owns : List (List Event), owns.length = made.length ∧
      after.world.journal = host.world.journal ++
        (List.zipWith (entries limits host.context.monitor) made owns).flatten := by
  induction h with
  | done host => exact ⟨[], rfl, by simp⟩
  | @next host after hosted made _ ih =>
    obtain ⟨own, hown⟩ := (hosted.module.stop hosted.memory).exists_journal_run
      (host.enter (.call .shutdown) hosted.name).world
    obtain ⟨owns, hlength, hjournal⟩ := ih
    refine ⟨own :: owns, by simp [hlength], ?_⟩
    have hcontext : (work hosted host).2.context = host.context := rfl
    have hwork : (work hosted host).2.world.journal =
        host.world.journal ++ .stepped (.call .shutdown) hosted.name :: own := by
      refine hown.trans ?_
      show (host.world.journal ++ [_]) ++ own = _
      rw [List.append_assoc]
      rfl
    rw [hjournal, Host.context_reporting, hcontext, Host.journal_reporting, hcontext, hwork,
      List.zipWith_cons_cons, List.flatten_cons]
    simp only [entries, List.append_assoc]
    rfl

/-! ## What is left -/

/-- What a shutdown leaves of a module: one that was started is stopped, with the memory that its
call left it with; any other one is as it was. -/
def LeftBy (made : List Made) (given left : Hosted) : Prop :=
  if given.stage = .started then
    ∃ answer, (given, answer) ∈ made ∧ left = stopped given answer
  else left = given

theorem LeftBy.mono {given left : Hosted} (h : LeftBy made given left) (hsub : made ⊆ more) :
    LeftBy more given left := by
  unfold LeftBy at h ⊢
  split
  · rename_i hstage
    rw [if_pos hstage] at h
    obtain ⟨answer, hmem, hleft⟩ := h
    exact ⟨answer, hsub hmem, hleft⟩
  · rename_i hstage
    rwa [if_neg hstage] at h

theorem leftBy_calls (limits : Limits) (modules : List Hosted) (host : Host) :
    List.Forall₂ (LeftBy (calls limits modules host)) modules (stopAll limits modules host).1.1 := by
  induction modules with
  | nil => exact .nil
  | cons hosted rest ih =>
    rw [stopAll_cons, calls]
    dsimp only
    refine .cons ?_ (ih.imp fun _ _ h => h.mono (List.subset_append_left _ _))
    by_cases h : hosted.stage = .started
    · rw [stop_of_started limits h, if_pos h, LeftBy, if_pos h]
      exact ⟨_, List.mem_append_right _ List.mem_cons_self, rfl⟩
    · rw [stop_of_ne limits h, LeftBy, if_neg h]

/-- **Where no module is started, a shutdown does nothing.** -/
theorem stopAll_of_none_started (limits : Limits) (h : ∀ hosted ∈ modules, hosted.stage ≠ .started)
    (host : Host) : stopAll limits modules host = ((modules, []), host) := by
  induction modules with
  | nil => rfl
  | cons hosted rest ih =>
    rw [stopAll_cons, ih fun other hother => h other (List.mem_cons_of_mem hosted hother)]
    dsimp only
    rw [stop_of_ne limits (h hosted List.mem_cons_self)]
    rfl

/-- A shutdown leaves no module started. -/
theorem none_started (limits : Limits) (modules : List Hosted) (host : Host) :
    ∀ hosted ∈ (stopAll limits modules host).1.1, hosted.stage ≠ .started := by
  intro hosted hmem
  have hstage := List.mem_map_of_mem (f := fun hosted => (hosted.module, hosted.stage)) hmem
  rw [modules_stopAll] at hstage
  obtain ⟨given, -, heq⟩ := List.mem_map.mp hstage
  rw [← (Prod.mk.inj heq).2]
  unfold stageAfter
  split
  · simp
  · assumption

/-- What the shutdown of some modules comes to. -/
structure StopsStarted (limits : Limits) (modules : List Hosted) (host : Host) : Prop where
  /-- The host is left by the run of the calls, and by nothing else. -/
  makes : Makes limits host (calls limits modules host) (stopAll limits modules host).2
  /-- Each module that is started is called once, the last first, and no other is called. -/
  called : (calls limits modules host).map Prod.fst =
    (modules.filter fun hosted => hosted.stage = .started).reverse
  /-- No step of a module's life is taken but these calls. -/
  steps : (stopAll limits modules host).2.steps = host.steps ++
    (calls limits modules host).map fun made => (.call .shutdown, made.1.name)
  /-- Each of them is left stopped, and every other one is left as it was. -/
  left : List.Forall₂ (LeftBy (calls limits modules host)) modules
    (stopAll limits modules host).1.1
  /-- What is answered are the failures of the calls in their order, all of them and no others. -/
  failures : (stopAll limits modules host).1.2 =
    (calls limits modules host).filterMap (Made.failure? limits)
  /-- The journal tells the calls in their order, with one severe report on each failure. -/
  journal : ∃ owns : List (List Event), owns.length = (calls limits modules host).length ∧
    (stopAll limits modules host).2.world.journal = host.world.journal ++
      (List.zipWith (entries limits host.context.monitor) (calls limits modules host) owns).flatten
  /-- The severe reports on a call are the one on its failure, if it failed. -/
  severe : ∀ made : Made, made ∈ calls limits modules host →
    (made.reports limits).filter (·.level = .severe) =
      (made.failure? limits).toList.map Shutdown.severe
  /-- A shutdown of what is left does nothing, and has no failure to answer. -/
  again : ∀ bounds, stopAll bounds (stopAll limits modules host).1.1
      (stopAll limits modules host).2 =
    (((stopAll limits modules host).1.1, []), (stopAll limits modules host).2)

/-- **A shutdown reaches every started module and no other**, whatever the modules answer and
however long they take. -/
theorem stopAll_stopsStarted (limits : Limits) (modules : List Hosted) (host : Host) :
    StopsStarted limits modules host where
  makes := makes_calls limits modules host
  called := map_fst_calls limits modules host
  steps := by
    rw [steps_stopAll, stepsOf, ← map_fst_calls limits modules host, List.map_map]
    rfl
  left := leftBy_calls limits modules host
  failures := failures_eq limits modules host
  journal := (makes_calls limits modules host).exists_journal
  severe := fun made _ => made.severe_reports limits
  again := fun bounds => stopAll_of_none_started bounds (none_started limits modules host) _

end Shutdown

end ServiceHost
