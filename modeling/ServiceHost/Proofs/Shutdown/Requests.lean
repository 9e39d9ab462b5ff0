import ServiceHost.Proofs.Shutdown.Calls

/-!
# Requests — a shutdown hook stops its modules once

A hook is shared: whoever holds it may ask it to run or whether it is done, before and after the
host hands its modules over. Each request is one step on the hook, so what happens is a history of
requests, in any order. Two facts about the history decide everything (`serve_after`): whether the
modules were handed over, and whether the hook was asked to run. **The modules are stopped at the
first moment at which both are so**, whichever comes last, and at no other — the host is as it was
until then, and as the shutdown left it from then on.
-/

set_option autoImplicit false

namespace ServiceHost

namespace ShutdownHook

/-! ## A shutdown -/

section ShutDown

variable (hook : ShutdownHook) (modules : List Hosted) (host : Host)

/-- What is done once all modules have been stopped. -/
def conclude (failures : ShutdownFailures) (host : Host) : Host :=
  let cleared := (Host.write .cleared (Host.clear host).2).2
  if failures.isEmpty then (Host.info "Shutdown complete" cleared).2
  else (Host.warning ("Shutdown complete with " ++ toString failures.length ++
    " failed extension(s)") cleared).2

theorem shutDown_apply :
    hook.shutDown modules host =
      let stopped := Shutdown.stopAll hook.limits modules host
      (stopped.1.2, conclude stopped.1.2 stopped.2) := by
  unfold shutDown conclude
  rw [HostM.bind_apply]
  rcases Shutdown.stopAll hook.limits modules host with ⟨⟨stopped, failures⟩, after⟩
  dsimp only
  cases failures <;> rfl

theorem registry_conclude (failures : ShutdownFailures) :
    (conclude failures host).context.registry = {} := by
  unfold conclude
  cases failures <;> rfl

theorem journal_conclude (failures : ShutdownFailures) :
    ∃ deliveries : List Delivery, (conclude failures host).world.journal =
      host.world.journal ++ .cleared :: deliveries.map .delivered := by
  unfold conclude
  cases failures with
  | nil => exact ⟨_, List.append_assoc _ [Event.cleared] _⟩
  | cons failure rest => exact ⟨_, List.append_assoc _ [Event.cleared] _⟩

theorem steps_conclude (failures : ShutdownFailures) :
    (conclude failures host).steps = host.steps := by
  obtain ⟨deliveries, hjournal⟩ := journal_conclude host failures
  unfold Host.steps World.steps
  rw [hjournal, List.filterMap_append]
  simp [Event.step?, List.filterMap_eq_nil_iff]

end ShutDown

/-! ## Requests -/

/-- What whoever holds a hook may ask of it. -/
inductive Call where
  | run
  | isDone
deriving DecidableEq, Repr

/-- What is asked of the hook of a host. -/
inductive Request where
  /-- The host hands its modules over. -/
  | arm (modules : List Hosted)
  | call (call : Call)

/-- What a request is answered with. -/
inductive Reply where
  | armed
  | failures (list : ShutdownFailures)
  | isDone (answer : Bool)

def serve (request : Request) (hook : ShutdownHook) : HostM (ShutdownHook × Reply) :=
  match request with
  | .arm modules => do return (← hook.arm modules, .armed)
  | .call .run => do
    let (hook, failures) ← hook.run
    return (hook, .failures failures)
  | .call .isDone => return (hook, .isDone hook.isDone)

def serveAll : List Request → ShutdownHook → HostM (ShutdownHook × List Reply)
  | [], hook => return (hook, [])
  | request :: rest, hook => do
    let (hook, reply) ← serve request hook
    let (hook, replies) ← serveAll rest hook
    return (hook, reply :: replies)

/-! ## What a history of requests decides -/

def Request.modules? : Request → Option (List Hosted)
  | .arm modules => some modules
  | .call _ => none

def Request.isRun : Request → Bool
  | .call .run => true
  | _ => false

/-- The modules that were handed over, if they were. -/
def handed? (past : List Request) : Option (List Hosted) :=
  past.findSome? Request.modules?

/-- The hook was asked to run. -/
def asked (past : List Request) : Bool :=
  past.any Request.isRun

/-- What a new hook has come to wait for. -/
def stateAfter (past : List Request) : HookState :=
  if asked past then .done
  else match handed? past with
    | some modules => .armed modules
    | none => .pending

/-- A new hook after requests. -/
def hookAfter (limits : Limits) (past : List Request) : ShutdownHook where
  limits := limits
  state := stateAfter past

/-- The modules that have been stopped: those that were handed over, once the hook was asked to
run. -/
def stopped? (past : List Request) : Option (List Hosted) :=
  if asked past then handed? past else none

/-- A host on whose modules a new hook has answered requests. -/
def hostAfter (limits : Limits) (past : List Request) (host : Host) : Host :=
  match stopped? past with
  | some modules => (shutDown { limits } modules host).2
  | none => host

/-- What a request is answered with after others. -/
def replyAfter (limits : Limits) (past : List Request) (host : Host) : Request → Reply
  | .arm _ => .armed
  | .call .run => .failures <| match asked past, handed? past with
    | false, some modules => (shutDown { limits } modules host).1
    | _, _ => []
  | .call .isDone => .isDone (asked past)

theorem handed?_append (past rest : List Request) :
    handed? (past ++ rest) = (handed? past).or (handed? rest) :=
  List.findSome?_append

theorem asked_append (past rest : List Request) :
    asked (past ++ rest) = (asked past || asked rest) :=
  List.any_append

/-- **One request** on a hook with a history: the hook and the host are what the history with the
request makes of them. The modules must not be handed over twice. -/
theorem serve_after (limits : Limits) (past : List Request) (request : Request) (host : Host)
    (once : handed? past = none ∨ handed? [request] = none) :
    serve request (hookAfter limits past) (hostAfter limits past host) =
      ((hookAfter limits (past ++ [request]), replyAfter limits past host request),
        hostAfter limits (past ++ [request]) host) := by
  unfold hookAfter stateAfter hostAfter stopped? replyAfter
  rw [asked_append, handed?_append]
  -- Whether the modules are there and whether the hook was asked to run leaves four cases, and
  -- the modules are stopped in the two in which the request brings what was missing.
  match request with
  | .arm modules =>
    have hnone : handed? past = none := once.resolve_right fun h => by cases h
    rw [hnone]
    cases ha : asked past with
    | false => rfl
    | true => rfl
  | .call .run =>
    cases ha : asked past with
    | true => cases handed? past <;> rfl
    | false => cases handed? past <;> rfl
  | .call .isDone =>
    cases ha : asked past with
    | true => cases handed? past <;> rfl
    | false => cases handed? past <;> rfl

def repliesAfter (limits : Limits) (past : List Request) (host : Host) :
    List Request → List Reply
  | [] => []
  | request :: rest =>
    replyAfter limits past host request :: repliesAfter limits (past ++ [request]) host rest

/-- The modules are handed over once at most. -/
def HandedOnce (requests : List Request) : Prop :=
  (requests.filterMap Request.modules?).length ≤ 1

theorem HandedOnce.handed?_eq_none {past rest : List Request} {request : Request}
    (h : HandedOnce (past ++ request :: rest)) :
    handed? past = none ∨ handed? [request] = none := by
  unfold HandedOnce at h
  unfold handed?
  rw [← List.head?_filterMap, ← List.head?_filterMap]
  rw [List.filterMap_append, List.length_append, List.filterMap_cons] at h
  cases hr : request.modules? with
  | none => exact Or.inr (by simp [hr])
  | some modules =>
    rw [hr] at h
    left
    rw [List.head?_eq_none_iff, ← List.length_eq_zero_iff]
    simp only [List.length_cons] at h
    omega

/-- **A run of requests**, by induction on the requests still to come. -/
theorem serveAll_after (limits : Limits) (host : Host) : ∀ {past requests : List Request},
    HandedOnce (past ++ requests) →
    serveAll requests (hookAfter limits past) (hostAfter limits past host) =
      ((hookAfter limits (past ++ requests), repliesAfter limits past host requests),
        hostAfter limits (past ++ requests) host)
  | past, [], _ => by
    rw [List.append_nil]
    rfl
  | past, request :: rest, honce => by
    have hsplit : past ++ request :: rest = (past ++ [request]) ++ rest := by simp
    rw [serveAll, HostM.bind_apply, serve_after limits past request host honce.handed?_eq_none]
    rw [hsplit] at honce ⊢
    dsimp only
    rw [HostM.bind_apply, serveAll_after limits host honce]
    rfl

theorem getElem?_repliesAfter (limits : Limits) (host : Host) (request : Request)
    (rest : List Request) : ∀ past front : List Request,
    (repliesAfter limits past host (front ++ request :: rest))[front.length]? =
      some (replyAfter limits (past ++ front) host request)
  | past, [] => by simp [repliesAfter]
  | past, first :: front => by
    simpa [repliesAfter] using
      getElem?_repliesAfter limits host request rest (past ++ [first]) front

/-! ## A host that hands its modules over once -/

/-- A new hook is asked, is handed modules, and is asked again. -/
def schedule (early : List Call) (modules : List Hosted) (late : List Call) : List Request :=
  early.map .call ++ .arm modules :: late.map .call

/-- What a new hook answers to requests, and the host after them. -/
def served (limits : Limits) (requests : List Request) (host : Host) :
    (ShutdownHook × List Reply) × Host :=
  serveAll requests { limits } host

section Schedule

variable {limits : Limits} {early late : List Call} {modules : List Hosted} {host : Host}

theorem filterMap_modules?_call (calls : List Call) :
    (calls.map Request.call).filterMap Request.modules? = [] := by
  simp [List.filterMap_eq_nil_iff, Request.modules?]

theorem filterMap_modules?_schedule :
    (schedule early modules late).filterMap Request.modules? = [modules] := by
  unfold schedule
  rw [List.filterMap_append, List.filterMap_cons, filterMap_modules?_call,
    filterMap_modules?_call]
  rfl

theorem handed?_schedule : handed? (schedule early modules late) = some modules := by
  unfold handed?
  rw [← List.head?_filterMap, filterMap_modules?_schedule]
  rfl

theorem asked_call (calls : List Call) :
    asked (calls.map .call) = true ↔ Call.run ∈ calls := by
  unfold asked
  rw [List.any_map, List.any_eq_true]
  constructor
  · rintro ⟨call, hmem, hrun⟩
    cases call with
    | run => exact hmem
    | isDone => cases hrun
  · exact fun hmem => ⟨.run, hmem, rfl⟩

theorem asked_schedule :
    asked (schedule early modules late) = true ↔ Call.run ∈ early ++ late := by
  unfold schedule
  rw [asked_append, Bool.or_eq_true, asked_call, List.mem_append, ← asked_call late]
  rfl

theorem served_eq (limits : Limits) (host : Host) {past rest : List Request}
    (h : schedule early modules late = past ++ rest) :
    served limits past host =
      ((hookAfter limits past, repliesAfter limits [] host past), hostAfter limits past host) := by
  have honce : HandedOnce ([] ++ past) := by
    have hall : (schedule early modules late).filterMap Request.modules? = [modules] :=
      filterMap_modules?_schedule
    rw [h, List.filterMap_append] at hall
    have hlength := congrArg List.length hall
    rw [List.length_append, List.length_singleton] at hlength
    unfold HandedOnce
    rw [List.nil_append]
    omega
  exact serveAll_after limits host honce

theorem handed?_front {past rest : List Request}
    (h : schedule early modules late = past ++ rest) :
    handed? past = none ∨ handed? past = some modules := by
  have hall : handed? (schedule early modules late) = some modules := handed?_schedule
  rw [h, handed?_append] at hall
  cases hp : handed? past with
  | none => exact Or.inl rfl
  | some other =>
    rw [hp] at hall
    exact Or.inr hall

/-- The failures of the calls by which some modules are stopped, in their order. -/
def collected (limits : Limits) (modules : List Hosted) (host : Host) : ShutdownFailures :=
  (Shutdown.calls limits modules host).filterMap (Shutdown.Made.failure? limits)

/-- What a schedule comes to, on a host with services of its own. -/
structure StopsOnce (limits : Limits) (early : List Call) (modules : List Hosted)
    (late : List Call) (host : Host) : Prop where
  /-- A shutdown calls each module that is started, the last of them first. -/
  called : (Shutdown.calls limits modules host).map Prod.fst =
    (Shutdown.startedOf modules).reverse
  /-- Once the hook was asked to run and has the modules, each of them that is started has had one
  call, the last of them first, and there was no other call. -/
  steps_eq : .run ∈ early ++ late →
    (served limits (schedule early modules late) host).2.steps =
      host.steps ++ Shutdown.stepsOf modules
  /-- The calls were made on the registry as it was, and it was emptied when the last of them had
  returned, whatever they answered. -/
  emptied : .run ∈ early ++ late →
    let stopped := (Shutdown.stopAll limits modules host).2
    stopped.steps = host.steps ++ Shutdown.stepsOf modules ∧
    stopped.context.registry = host.context.registry ∧
    (∃ deliveries : List Delivery,
      (served limits (schedule early modules late) host).2.world.journal =
        stopped.world.journal ++ .cleared :: deliveries.map .delivered) ∧
    (served limits (schedule early modules late) host).2.context.registry = {}
  /-- A hook that nobody asked to run has done nothing. -/
  untouched : .run ∉ early ++ late →
    (served limits (schedule early modules late) host).2 = host
  /-- The request that stops the modules, if one does, is the first one to run, and it has the
  modules; it is answered with the failures of the calls. -/
  stopping : ∀ past rest, schedule early modules late = past ++ .call .run :: rest →
    handed? past = some modules → asked past = false →
    (served limits (schedule early modules late) host).1.2[past.length]? =
      some (.failures (collected limits modules host))
  /-- Every other one is answered with no failures, and does nothing. -/
  idle : ∀ past rest, schedule early modules late = past ++ .call .run :: rest →
    ¬ (handed? past = some modules ∧ asked past = false) →
    (served limits (schedule early modules late) host).1.2[past.length]? = some (.failures []) ∧
    (served limits (past ++ [.call .run]) host).2 = (served limits past host).2
  /-- Where the modules are handed over before anybody asks the hook to run, it says that it is
  done only when they are stopped and the registry is empty; until then nothing has happened. -/
  is_done : .run ∉ early →
    ∀ past rest, schedule early modules late = past ++ .call .isDone :: rest →
    ((served limits (schedule early modules late) host).1.2[past.length]? =
        some (.isDone false) ∧
      (served limits past host).2 = host) ∨
    ((served limits (schedule early modules late) host).1.2[past.length]? =
        some (.isDone true) ∧
      (served limits past host).2.steps = host.steps ++ Shutdown.stepsOf modules ∧
      (served limits past host).2.context.registry = {})

theorem handed?_of_asked {past rest : List Request} (he : Call.run ∉ early)
    (h : schedule early modules late = past ++ rest) (ha : asked past = true) :
    handed? past = some modules := by
  unfold schedule at h
  rcases List.append_eq_append_iff.mp h with ⟨extra, rfl, hextra⟩ | ⟨extra, hearly, _⟩
  · cases extra with
    | nil =>
      rw [List.append_nil, asked_call] at ha
      exact absurd ha he
    | cons request extra =>
      obtain ⟨rfl, _⟩ := List.cons.inj hextra
      rw [handed?_append]
      unfold handed?
      rw [← List.head?_filterMap, filterMap_modules?_call]
      rfl
  · have hall := mt (asked_call early).mp he
    rw [hearly, asked_append, ha] at hall
    exact absurd rfl hall

theorem replies_schedule {past rest : List Request} {request : Request}
    (h : schedule early modules late = past ++ request :: rest) :
    (served limits (schedule early modules late) host).1.2[past.length]? =
      some (replyAfter limits past host request) := by
  have hall := served_eq limits host (List.append_nil (schedule early modules late)).symm
  rw [hall, h]
  exact getElem?_repliesAfter limits host request rest [] past

theorem hostAfter_of_stopped {past : List Request} (hh : handed? past = some modules)
    (ha : asked past = true) :
    hostAfter limits past host = conclude (collected limits modules host)
      (Shutdown.stopAll limits modules host).2 := by
  unfold hostAfter stopped? collected
  rw [if_pos ha, hh]
  dsimp only
  rw [shutDown_apply]
  dsimp only
  rw [Shutdown.failures_eq]

theorem hostAfter_of_not {past : List Request}
    (h : handed? past = none ∨ asked past = false) : hostAfter limits past host = host := by
  unfold hostAfter stopped?
  rcases h with h | h
  · rw [h, ite_self]
  · rw [h]
    rfl

/-- A run that does not bring the two things together does nothing. -/
theorem idle_of_not {past rest : List Request}
    (h : schedule early modules late = past ++ .call .run :: rest)
    (hnot : ¬ (handed? past = some modules ∧ asked past = false)) :
    (served limits (schedule early modules late) host).1.2[past.length]? = some (.failures []) ∧
    (served limits (past ++ [.call .run]) host).2 = (served limits past host).2 := by
  have hfront : schedule early modules late = (past ++ [.call .run]) ++ rest := by
    rw [h, List.append_assoc]
    rfl
  rw [replies_schedule h, served_eq limits host h, served_eq limits host hfront, replyAfter]
  rcases handed?_front h with hnone | hh
  -- There is nothing to stop yet, neither before the request nor after it.
  · have hnone' : handed? (past ++ [.call .run]) = none := by
      rw [handed?_append, hnone]
      rfl
    rw [hnone, hostAfter_of_not (Or.inl hnone), hostAfter_of_not (Or.inl hnone')]
    cases asked past <;> exact ⟨rfl, rfl⟩
  -- All is stopped already.
  · have ha : asked past = true := by
      cases ha : asked past with
      | true => rfl
      | false => exact absurd ⟨hh, ha⟩ hnot
    have hh' : handed? (past ++ [.call .run]) = some modules := by
      rw [handed?_append, hh]
      rfl
    have ha' : asked (past ++ [.call .run]) = true := by
      rw [asked_append, ha]
      rfl
    rw [hostAfter_of_stopped hh ha, hostAfter_of_stopped hh' ha', ha]
    exact ⟨rfl, rfl⟩

/-- Where no early request is one to run, what `isDone` answers tells whether the modules are
stopped. -/
theorem isDone_tells (hearly : Call.run ∉ early) {past rest : List Request}
    (h : schedule early modules late = past ++ .call .isDone :: rest) :
    ((served limits (schedule early modules late) host).1.2[past.length]? =
        some (.isDone false) ∧
      (served limits past host).2 = host) ∨
    ((served limits (schedule early modules late) host).1.2[past.length]? =
        some (.isDone true) ∧
      (served limits past host).2.steps = host.steps ++ Shutdown.stepsOf modules ∧
      (served limits past host).2.context.registry = {}) := by
  rw [replies_schedule h, served_eq limits host h, replyAfter]
  cases ha : asked past with
  | false => exact Or.inl ⟨rfl, hostAfter_of_not (Or.inr ha)⟩
  | true =>
    rw [hostAfter_of_stopped (handed?_of_asked hearly h ha) ha, steps_conclude,
      Shutdown.steps_stopAll]
    exact Or.inr ⟨rfl, rfl, registry_conclude _ _⟩

/-- **A shutdown hook stops the modules exactly once**, whatever is asked of it and in which
order. -/
theorem stops_once (limits : Limits) (early : List Call) (modules : List Hosted)
    (late : List Call) (host : Host) : StopsOnce limits early modules late host := by
  have hall := served_eq limits host (List.append_nil (schedule early modules late)).symm
  have hfinal : .run ∈ early ++ late →
      (served limits (schedule early modules late) host).2 =
        conclude (collected limits modules host) (Shutdown.stopAll limits modules host).2 := by
    intro hrun
    rw [hall]
    exact hostAfter_of_stopped handed?_schedule (asked_schedule.mpr hrun)
  have hsteps := Shutdown.steps_stopAll limits modules host
  refine ⟨Shutdown.map_fst_calls limits modules host, ?_, ?_, ?_, ?_,
    fun _ _ hsplit hnot => idle_of_not hsplit hnot,
    fun hearly _ _ hsplit => isDone_tells hearly hsplit⟩
  · intro hrun
    rw [hfinal hrun, steps_conclude, hsteps]
  · intro hrun
    rw [hfinal hrun]
    exact ⟨hsteps, Shutdown.registry_stopAll limits modules host,
      journal_conclude _ _, registry_conclude _ _⟩
  · intro hrun
    rw [hall]
    refine hostAfter_of_not (Or.inr ?_)
    exact Bool.eq_false_iff.mpr (mt asked_schedule.mp hrun)
  · intro past rest hsplit hh ha
    rw [replies_schedule hsplit, replyAfter, hh, ha]
    dsimp only
    rw [shutDown_apply]
    exact congrArg (some <| Reply.failures ·) (Shutdown.failures_eq limits modules host)

end Schedule

end ShutdownHook

end ServiceHost
