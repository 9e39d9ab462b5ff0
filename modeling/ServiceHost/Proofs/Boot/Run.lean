import ServiceHost.Proofs.Boot.Act

/-!
# Runs — a boot as one act after another

While a boot runs, its state is the modules as far as they have come and the host. An act takes a
state to the next one (`Takes`) or fails on it (`Fails`), and a run of acts is `Performs`. What a
run keeps is proved from what one act keeps: **nobody changes which module stands where**
(`Performs.moduleAt_eq`), a module changes only in acts of its own (`Performs.getElem?_eq`), and
each act is one step in the journal (`Performs.steps`).

The loader is not written as a run: it maps its calls over lists. `Enacts` says that an action
comes to a list of acts — it performs all of them, or it performs some and answers the error of
the first that fails — and is closed under sequencing, so the two passes of the loader are put
together from the calls for one module.
-/

set_option autoImplicit false

namespace ServiceHost

namespace Boot

/-- What a boot works on. -/
structure State where
  /-- The modules as they are by now, each at its position in the list to boot. -/
  modules : List Hosted
  host : Host

namespace State

/-- Modules that a host has just discovered. -/
def start (modules : List Module) (host : Host) : State where
  modules := modules.map Hosted.fresh
  host := host

/-- The module at a position. -/
def moduleAt (state : State) (position : Nat) : Option Module :=
  state.modules[position]?.map Hosted.module

@[simp] theorem moduleAt_start (modules : List Module) (host : Host) (position : Nat) :
    (start modules host).moduleAt position = modules[position]? := by
  simp [moduleAt, start, Hosted.fresh, Function.comp_def]

theorem mem_of_moduleAt_start {modules : List Module} {host : Host} {position : Nat}
    {module : Module} (h : (start modules host).moduleAt position = some module) :
    module ∈ modules := by
  rw [moduleAt_start] at h
  exact List.mem_of_getElem? h

/-- The name of the module at a position. -/
def nameAt (state : State) (position : Nat) : String :=
  ((state.moduleAt position).map Module.name).getD ""

end State

variable {limits : Limits} {state next final : State} {act : Act} {acts : List Act}

/-! ## One act -/

/-- An act is made on the module at its position, and does not fail. -/
def Takes (limits : Limits) (state : State) (act : Act) (next : State) : Prop :=
  ∃ hosted after, state.modules[act.position]? = some hosted ∧
    act.error? limits hosted state.host = none ∧
    (act.call limits hosted).on state.host = (.ok after, next.host) ∧
    next.modules = state.modules.set act.position after

/-- An act is made on the module at its position, and fails. -/
def Fails (limits : Limits) (state : State) (act : Act) (error : BootError) (next : State) :
    Prop :=
  ∃ hosted, state.modules[act.position]? = some hosted ∧
    act.error? limits hosted state.host = some error ∧
    (act.call limits hosted).on state.host = (.error error, next.host) ∧
    next.modules = state.modules

/-- What an act leaves at its position: the same module, which has moved on if it was where the
act expects it. -/
theorem Takes.exists_after (h : Takes limits state act next) :
    ∃ hosted after, state.modules[act.position]? = some hosted ∧
      next.modules[act.position]? = some after ∧ after.module = hosted.module ∧
      (hosted.stage = act.stageBefore → after.stage = act.stageAfter) ∧
      (act.call limits hosted).on state.host = (.ok after, next.host) := by
  obtain ⟨hosted, after, hm, he, hc, hn⟩ := h
  have ha := act.call_answers limits hosted state.host
  rw [he, hc] at ha
  obtain ⟨_, ho, hmod, hstage⟩ := ha
  cases ho
  have hlt := (List.getElem?_eq_some_iff.mp hm).1
  refine ⟨hosted, after, hm, ?_, hmod, hstage, hc⟩
  rw [hn, List.getElem?_set_self hlt]

/-- An act leaves the modules at other positions alone. -/
theorem Takes.getElem?_eq (h : Takes limits state act next) {position : Nat}
    (hp : act.position ≠ position) : next.modules[position]? = state.modules[position]? := by
  obtain ⟨_, _, _, _, _, hn⟩ := h
  rw [hn, List.getElem?_set_ne hp]

theorem Takes.moduleAt_eq (h : Takes limits state act next) (position : Nat) :
    next.moduleAt position = state.moduleAt position := by
  unfold State.moduleAt
  -- Elsewhere nothing changes at all, and at its own position an act keeps the module.
  by_cases hp : act.position = position
  · obtain ⟨hosted, after, hm, hn, hmod, _, _⟩ := h.exists_after
    rw [← hp, hm, hn]
    exact congrArg some hmod
  · rw [h.getElem?_eq hp]

/-- Whether it goes through or not, an act is one step of the module at its position. -/
theorem State.steps_call (limits : Limits) {hosted : Hosted}
    (hm : state.modules[act.position]? = some hosted) :
    ((act.call limits hosted).on state.host).2.steps =
      state.host.steps ++ [(act.step, state.nameAt act.position)] := by
  unfold State.nameAt State.moduleAt
  rw [hm]
  exact act.steps_call limits hosted state.host

theorem Takes.steps (h : Takes limits state act next) :
    next.host.steps = state.host.steps ++ [(act.step, state.nameAt act.position)] := by
  obtain ⟨hosted, after, hm, _, hc, _⟩ := h
  rw [← State.steps_call limits hm, hc]

theorem Fails.steps {error : BootError} (h : Fails limits state act error next) :
    next.host.steps = state.host.steps ++ [(act.step, state.nameAt act.position)] := by
  obtain ⟨hosted, hm, _, hc, _⟩ := h
  rw [← State.steps_call limits hm, hc]

/-- An act on a module that is there either goes through or fails. -/
theorem takes_or_fails (limits : Limits) (act : Act) {state : State} {hosted : Hosted}
    (hm : state.modules[act.position]? = some hosted) :
    (∃ after next, Takes limits state act next ∧ next.modules[act.position]? = some after ∧
      (act.call limits hosted).on state.host = (.ok after, next.host)) ∨
    (∃ error next, Fails limits state act error next ∧
      (act.call limits hosted).on state.host = (.error error, next.host)) := by
  have ha := act.call_answers limits hosted state.host
  rcases hc : (act.call limits hosted).on state.host with ⟨answer, host⟩
  rw [hc] at ha
  cases he : act.error? limits hosted state.host with
  | some error =>
    rw [he] at ha
    cases ha
    exact Or.inr ⟨error, { state with host }, ⟨hosted, hm, he, hc, rfl⟩, rfl⟩
  | none =>
    rw [he] at ha
    obtain ⟨after, ho, _, _⟩ := ha
    cases ho
    have hlt := (List.getElem?_eq_some_iff.mp hm).1
    exact Or.inl ⟨after, ⟨state.modules.set act.position after, host⟩,
      ⟨hosted, after, hm, he, hc, rfl⟩, List.getElem?_set_self hlt, rfl⟩

/-- What an injection that goes through leaves in the module: what its slots were given. -/
theorem Takes.memory_of_inject {position : Nat} {hosted : Hosted}
    (h : Takes limits state (.inject position) next)
    (hm : state.modules[position]? = some hosted) :
    ∃ injected, next.modules[position]? = some injected ∧
      injected.memory =
        (Injection.given state.host.context.registry hosted.module.points).reverse ++
          hosted.memory ∧
      ∀ point ∈ hosted.module.points,
        Injection.Gives state.host.context.registry hosted.module point
          (state.host.find? point.capability) := by
  obtain ⟨hosted', injected, hm', hn, _, _, hc⟩ := h.exists_after
  cases hm.symm.trans hm'
  have hc : (inject Injection.fromRegistry hosted).on state.host = (.ok injected, next.host) := hc
  rw [inject_on] at hc
  rcases hi : Injection.fromRegistry hosted (state.host.enter .inject hosted.name) with
    ⟨⟨after, error | _⟩, _⟩
  · rw [hi] at hc
    cases hc
  · rw [hi] at hc
    cases hc
    have hok : (Injection.fromRegistry hosted
        (state.host.enter .inject hosted.name)).1.2 = .ok () := by rw [hi]
    have hmemory := Injection.fromRegistry_memory hok
    rw [hi] at hmemory
    exact ⟨injected, hn, hmemory,
      (Injection.fromRegistry_ok_iff hosted (state.host.enter .inject hosted.name)).mp hok⟩

/-- An injection that fails is refused at a slot. -/
theorem Fails.refused_of_inject {position : Nat} {error : BootError}
    (h : Fails limits state (.inject position) error next) :
    ∃ hosted cause, state.modules[position]? = some hosted ∧ error = .injection cause ∧
      ∃ point ∈ hosted.module.points,
        Injection.supply state.host.context.registry hosted.module point = .refused cause := by
  obtain ⟨hosted, hm, he, _, _⟩ := h
  have he : injectError? hosted state.host = some error := he
  unfold injectError? at he
  cases hc : (Injection.fromRegistry hosted (state.host.enter .inject hosted.name)).1.2 with
  | ok _ =>
    rw [hc] at he
    cases he
  | error cause =>
    rw [hc] at he
    cases he
    exact ⟨hosted, cause, hm, rfl, @Injection.exists_refused_of_fromRegistry hosted
      (state.host.enter .inject hosted.name) cause hc⟩

/-! ## Runs -/

/-- Acts are made one after the other, and none of them fails. -/
inductive Performs (limits : Limits) : State → List Act → State → Prop where
  | nil (state : State) : Performs limits state [] state
  | cons {state next final : State} {act : Act} {acts : List Act}
      (head : Takes limits state act next) (tail : Performs limits next acts final) :
      Performs limits state (act :: acts) final

namespace Performs

variable {front back : List Act}

theorem single (h : Takes limits state act next) : Performs limits state [act] next :=
  .cons h (.nil next)

theorem append {mid : State} (hf : Performs limits state front mid)
    (hb : Performs limits mid back final) : Performs limits state (front ++ back) final := by
  induction hf with
  | nil _ => exact hb
  | cons head _ ih => exact .cons head (ih hb)

/-- A run can be cut anywhere. -/
theorem split (h : Performs limits state (front ++ back) final) :
    ∃ mid, Performs limits state front mid ∧ Performs limits mid back final := by
  -- By induction on the acts before the cut, for any state they start from.
  induction front generalizing state with
  | nil => exact ⟨state, .nil state, h⟩
  | cons act front ih =>
    cases h with
    | cons head tail =>
      obtain ⟨mid, hf, hb⟩ := ih tail
      exact ⟨mid, .cons head hf, hb⟩

/-- **Nobody changes which module stands where.** -/
theorem moduleAt_eq (h : Performs limits state acts final) (position : Nat) :
    final.moduleAt position = state.moduleAt position := by
  induction h with
  | nil _ => rfl
  | cons head _ ih => exact ih.trans (head.moduleAt_eq position)

theorem nameAt_eq (h : Performs limits state acts final) (position : Nat) :
    final.nameAt position = state.nameAt position := by
  unfold State.nameAt
  rw [h.moduleAt_eq]

/-- A module changes only in acts of its own. -/
theorem getElem?_eq (h : Performs limits state acts final) {position : Nat}
    (hp : ∀ act ∈ acts, act.position ≠ position) :
    final.modules[position]? = state.modules[position]? := by
  induction h with
  | nil _ => rfl
  | cons head _ ih =>
    rw [ih fun act ha => hp act (List.mem_cons_of_mem _ ha)]
    exact head.getElem?_eq (hp _ List.mem_cons_self)

/-- **A run writes its acts into the journal**, in order, and nothing writes any other step. -/
theorem steps (h : Performs limits state acts final) :
    final.host.steps = state.host.steps ++
      acts.map fun act => (act.step, state.nameAt act.position) := by
  induction h with
  | nil _ => simp
  | cons head tail ih =>
    -- The journal names modules as they were at the beginning, and no act renames one.
    have hname := (Performs.single head).nameAt_eq
    rw [ih, head.steps]
    simp [hname]

/-- What every act of a run keeps of the host, the run keeps. -/
theorem host_invariant {p : Host → Prop} (h : Performs limits state acts final)
    (hp : ∀ act ∈ acts, ∀ hosted, state.moduleAt act.position = some hosted.module →
      ∀ host, p host → p ((act.call limits hosted).on host).2)
    (hs : p state.host) : p final.host := by
  induction h with
  | nil _ => exact hs
  | cons head _ ih =>
    refine ih ?_ ?_
    · intro act ha hosted hm
      exact hp act (List.mem_cons_of_mem _ ha) hosted ((head.moduleAt_eq _).symm.trans hm)
    -- The first act is one of those that keep the property.
    · obtain ⟨hosted, after, hm, _, hc, _⟩ := head
      have := hp _ List.mem_cons_self hosted (by simp [State.moduleAt, hm]) _ hs
      rw [hc] at this
      exact this

end Performs

/-! ## Actions that come to a run -/

/-- What an action of the loader comes to when it is meant to make some acts: it makes all of
them and answers what can be told from the state after them, or it makes some and answers the
error of the first that fails. -/
inductive Enacts {α : Type} (limits : Limits) (state : State) (acts : List Act)
    (action : BootM α) (post : State → α → Prop) : Prop where
  | all {final : State} {answer : α} (run : Performs limits state acts final)
      (eq : action.on state.host = (.ok answer, final.host)) (holds : post final answer)
  | stopped {before after : List Act} {act : Act} {error : BootError} {mid final : State}
      (cut : acts = before ++ act :: after) (run : Performs limits state before mid)
      (fails : Fails limits mid act error final)
      (eq : action.on state.host = (.error error, final.host))

namespace Enacts

variable {α β : Type} {first second : List Act} {action : BootM α} {rest : α → BootM β}
  {post : State → α → Prop} {post' : State → β → Prop}

theorem pure {a : α} (h : post state a) : Enacts limits state [] (Pure.pure a : BootM α) post :=
  .all (.nil state) rfl h

/-- What follows an action goes on where its acts end, or not at all. -/
theorem bind (h : Enacts limits state first action post)
    (hr : ∀ mid a, Performs limits state first mid → post mid a →
      Enacts limits mid second (rest a) post') :
    Enacts limits state (first ++ second) (action >>= rest) post' := by
  cases h with
  | stopped cut run fails eq =>
    refine .stopped (by rw [cut, List.append_assoc, List.cons_append]) run fails ?_
    rw [BootM.on_bind, eq]
  | all run eq holds =>
    cases hr _ _ run holds with
    | all run' eq' holds' =>
      refine .all (run.append run') ?_ holds'
      rw [BootM.on_bind, eq]
      exact eq'
    | stopped cut' run' fails' eq' =>
      refine .stopped (by rw [cut', List.append_assoc]) (run.append run') fails' ?_
      rw [BootM.on_bind, eq]
      exact eq'

theorem imp {post' : State → α → Prop} (h : Enacts limits state acts action post)
    (hp : ∀ final a, Performs limits state acts final → post final a → post' final a) :
    Enacts limits state acts action post' := by
  cases h with
  | all run eq holds => exact .all run eq (hp _ _ run holds)
  | stopped cut run fails eq => exact .stopped cut run fails eq

/-- What comes to the acts is what an action does on the host, and not how it is written. -/
theorem of_eq {other : BootM α} (h : Enacts limits state acts action post)
    (heq : other.on state.host = action.on state.host) :
    Enacts limits state acts other post := by
  cases h with
  | all run eq holds => exact .all run (heq.trans eq) holds
  | stopped cut run fails eq => exact .stopped cut run fails (heq.trans eq)

/-- A call of the loader comes to its act. -/
theorem call (limits : Limits) (act : Act) {state : State} {hosted : Hosted}
    (hm : state.modules[act.position]? = some hosted) :
    Enacts limits state [act] (act.call limits hosted)
      fun final after => final.modules[act.position]? = some after := by
  rcases takes_or_fails limits act hm with ⟨after, next, ht, hn, hc⟩ | ⟨error, next, hf, hc⟩
  · exact .all (.single ht) hc hn
  · exact .stopped rfl (.nil state) hf hc

end Enacts

end Boot

end ServiceHost
