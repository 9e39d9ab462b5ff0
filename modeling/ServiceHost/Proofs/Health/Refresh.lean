import ServiceHost.Health.Provider
import Mathlib.Data.List.Basic

/-!
# Refreshes — a snapshot is asked, and nothing registered is lost

While a refresh asks its providers, they may change the very lists that it goes through. What one
call does is said once (`Asked`): it answers on the state that the call before it left, and what it
registers is appended to the lists. So by induction on the calls, whatever the providers are, **the
lists only grow**, by what the calls registered and in that order: the calls of a refresh are those
of its snapshot, and a provider keeps its place among those of its kind for ever
(`refresh_asks_registered`).
-/

set_option autoImplicit false

namespace ServiceHost

namespace CheckService

variable {π σ : Type} {answering : Answering π σ} {service : CheckService π} {kind : CheckKind}

/-! ## The lists of providers -/

/-- The providers of one kind, in their order. -/
def ofKind (kind : CheckKind) (providers : List (CheckKind × π)) : List π :=
  (providers.filter (·.1 = kind)).map (·.2)

theorem ofKind_append (kind : CheckKind) (some others : List (CheckKind × π)) :
    ofKind kind (some ++ others) = ofKind kind some ++ ofKind kind others := by
  simp [ofKind]

theorem ofKind_map_pair (kind other : CheckKind) (providers : List π) :
    ofKind kind (providers.map ((other, ·))) = if other = kind then providers else [] := by
  unfold ofKind
  split
  · rename_i h
    simp [List.filter_map, Function.comp_def, h]
  · rename_i h
    simp [List.filter_map, Function.comp_def, h]

theorem ofKind_snapshot (service : CheckService π) (kind : CheckKind) :
    ofKind kind service.snapshot = service.providers.get kind := by
  unfold snapshot
  rw [ofKind_append, ofKind_append, ofKind_map_pair, ofKind_map_pair, ofKind_map_pair]
  cases kind <;> simp [PerKind.get]

theorem get_providers_register (service : CheckService π) (other : CheckKind) (provider : π)
    (kind : CheckKind) : (service.register other provider).providers.get kind =
      service.providers.get kind ++ ofKind kind [(other, provider)] := by
  cases other <;> cases kind <;> simp [register, PerKind.modify, PerKind.get, ofKind]

theorem get_providers_registerAll (service : CheckService π) (providers : List (CheckKind × π))
    (kind : CheckKind) : (service.registerAll providers).providers.get kind =
      service.providers.get kind ++ ofKind kind providers := by
  induction providers generalizing service with
  | nil => simp [registerAll, ofKind]
  | cons first rest ih =>
    show ((service.register first.1 first.2).registerAll rest).providers.get kind = _
    rw [ih, get_providers_register, List.append_assoc, ← ofKind_append]
    rfl

/-! ## The calls of a refresh -/

/-- Whom a call asked. -/
def Call.asked (call : Call π) : CheckKind × π :=
  (call.kind, call.provider)

/-- What the calls registered, in order. -/
def registrations (calls : List (Call π)) : List (CheckKind × π) :=
  calls.flatMap (·.reply.registers)

/-- The calls lead from one state to the other, each made on the state that the one before it
left, and nothing else happens meanwhile. -/
inductive Asked (answering : Answering π σ) :
    CheckService π × σ → List (Call π) → CheckService π × σ → Prop where
  | none (state : CheckService π × σ) : Asked answering state [] state
  | call {service : CheckService π} {shared after : σ} {kind : CheckKind} {provider : π}
      {reply : Reply π} {calls : List (Call π)} {last : CheckService π × σ}
      (answers : answering provider service.cached shared = (reply, after))
      (others : Asked answering (service.registerAll reply.registers, after) calls last) :
      Asked answering (service, shared) (⟨kind, provider, reply⟩ :: calls) last

/-- Asking providers in order makes one call to each of them. -/
theorem exists_asked (answering : Answering π σ) (providers : List (CheckKind × π))
    (state : CheckService π × σ) :
    ∃ calls last, providers.mapM (ask answering) state = (calls, last) ∧
      Asked answering state calls last ∧ calls.map Call.asked = providers := by
  induction providers generalizing state with
  | nil => exact ⟨[], state, rfl, .none state, rfl⟩
  | cons first rest ih =>
    obtain ⟨service, shared⟩ := state
    obtain ⟨kind, provider⟩ := first
    rcases hreply : answering provider service.cached shared with ⟨reply, after⟩
    obtain ⟨calls, last, hrest, hasked, hmap⟩ := ih (service.registerAll reply.registers, after)
    have hcall : ask answering (kind, provider) (service, shared) =
        (⟨kind, provider, reply⟩, service.registerAll reply.registers, after) := by
      simp only [ask, hreply]
    refine ⟨⟨kind, provider, reply⟩ :: calls, last, ?_, .call hreply hasked, ?_⟩
    · rw [List.mapM_cons]
      show (let (call, state) := ask answering (kind, provider) (service, shared)
        let (others, state) := rest.mapM (ask answering) state
        (call :: others, state)) = _
      rw [hcall]
      dsimp only
      rw [hrest]
    · rw [List.map_cons, hmap]
      rfl

section Asked

variable {before last : CheckService π × σ} {calls : List (Call π)}

/-- The lists have grown by what the calls registered. -/
theorem Asked.providers_eq (h : Asked answering before calls last) (kind : CheckKind) :
    last.1.providers.get kind =
      before.1.providers.get kind ++ ofKind kind (registrations calls) := by
  induction h with
  | none state => simp [registrations, ofKind]
  | call answers others ih =>
    rw [ih, get_providers_registerAll, List.append_assoc, ← ofKind_append]
    rfl

end Asked

/-! ## A refresh -/

/-- The calls that asked providers of one kind. -/
def callsOf (kind : CheckKind) (calls : List (Call π)) : List (Call π) :=
  calls.filter (·.kind = kind)

theorem map_provider_callsOf (kind : CheckKind) (calls : List (Call π)) :
    (callsOf kind calls).map Call.provider = ofKind kind (calls.map Call.asked) := by
  rw [ofKind, List.filter_map, List.map_map]
  rfl

/-- The calls make up a refresh from one state to the other. -/
structure Refreshes (answering : Answering π σ) (before : CheckService π × σ)
    (calls : List (Call π)) (after : CheckService π × σ) : Prop where
  /-- Nobody is asked but the providers that were registered before, each of them once and in
  order, and nothing happens but their calls. -/
  asked : ∃ last, Asked answering before calls last ∧
    after = ({ last.1 with cached := after.1.cached }, last.2)
  snapshot : calls.map Call.asked =
    before.1.providers.liveness.map ((CheckKind.liveness, ·)) ++
      before.1.providers.readiness.map ((CheckKind.readiness, ·)) ++
      before.1.providers.startup.map ((CheckKind.startup, ·))
  /-- The statuses are what these calls answered, and nothing of what was there before. -/
  status : ∀ kind, (callsOf kind calls).map Call.provider = before.1.providers.get kind ∧
    after.1.status kind = ⟨(callsOf kind calls).map (·.reply.result)⟩
  /-- What a call registered stands behind what was registered before. -/
  providers : ∀ kind, after.1.providers.get kind =
    before.1.providers.get kind ++ ofKind kind (registrations calls)

/-- The statuses that calls leave when they were all that a refresh made. -/
def statuses (calls : List (Call π)) : PerKind HealthStatus :=
  ⟨resultsOf .liveness calls, resultsOf .readiness calls, resultsOf .startup calls⟩

theorem get_statuses (kind : CheckKind) (calls : List (Call π)) :
    (statuses calls).get kind = resultsOf kind calls := by
  cases kind <;> rfl

theorem refresh_eq {before last : CheckService π × σ} {calls : List (Call π)}
    (h : before.1.snapshot.mapM (ask answering) before = (calls, last)) :
    refresh answering before = (calls, { last.1 with cached := statuses calls }, last.2) := by
  show (let (calls, state) := before.1.snapshot.mapM (ask answering) before
    (calls, ({ state.1 with cached := statuses calls }, state.2))) = _
  rw [h]

theorem exists_refreshes (answering : Answering π σ) (before : CheckService π × σ) :
    ∃ calls after, refresh answering before = (calls, after) ∧
      Refreshes answering before calls after := by
  obtain ⟨calls, last, hmapM, hasked, hmap⟩ := exists_asked answering before.1.snapshot before
  refine ⟨calls, _, refresh_eq hmapM, ⟨last, hasked, rfl⟩, hmap, ?_, hasked.providers_eq⟩
  intro kind
  constructor
  · rw [map_provider_callsOf, hmap, ofKind_snapshot]
  · exact get_statuses kind calls

/-! ## Histories -/

/-- What is done to a service from outside. -/
inductive Request (π σ : Type) where
  | add (kind : CheckKind) (provider : π)
  | refresh
  /-- Something changes that the providers share. -/
  | meanwhile (change : σ → σ)

def Request.act (answering : Answering π σ) :
    Request π σ → CheckService π × σ → CheckService π × σ
  | .add kind provider, (service, shared) => (service.register kind provider, shared)
  | .refresh, state => (CheckService.refresh answering state).2
  | .meanwhile change, (service, shared) => (service, change shared)

/-- The service and what its providers share, after requests in order. -/
def after (answering : Answering π σ) (requests : List (Request π σ))
    (start : CheckService π × σ) : CheckService π × σ :=
  requests.foldl (fun state request => request.act answering state) start

theorem providers_prefix_act (answering : Answering π σ) (request : Request π σ)
    (state : CheckService π × σ) (kind : CheckKind) :
    state.1.providers.get kind <+: (request.act answering state).1.providers.get kind := by
  cases request with
  | add other provider => exact ⟨_, (get_providers_register state.1 other provider kind).symm⟩
  | refresh =>
    obtain ⟨calls, last, hrefresh, h⟩ := exists_refreshes answering state
    rw [Request.act, hrefresh]
    exact ⟨_, (h.providers kind).symm⟩
  | meanwhile change => exact List.prefix_rfl

/-- Nothing that is registered is ever dropped, or moves among those of its kind. -/
theorem providers_prefix_after (answering : Answering π σ) (requests : List (Request π σ))
    (start : CheckService π × σ) (kind : CheckKind) :
    start.1.providers.get kind <+: (after answering requests start).1.providers.get kind := by
  induction requests generalizing start with
  | nil => exact List.prefix_rfl
  | cons request rest ih =>
    have hact := providers_prefix_act answering request start kind
    exact hact.trans (ih (request.act answering start))

theorem cached_after_add (answering : Answering π σ) (additions : List (CheckKind × π))
    (start : CheckService π × σ) :
    (after answering (additions.map fun (kind, provider) => .add kind provider) start).1.cached =
      start.1.cached := by
  induction additions generalizing start with
  | nil => rfl
  | cons first rest ih => exact ih (start.1.register first.1 first.2, start.2)

/-- **Each refresh asks the providers that were registered when it began**, whatever was done
before it and whatever its providers do. Those that were registered at any earlier time are asked
first among their kind, in the same order; and adding providers leaves the statuses as they are. -/
theorem refresh_asks_registered (answering : Answering π σ) (start : CheckService π × σ)
    (requests : List (Request π σ)) :
    (∃ calls refreshed, refresh answering (after answering requests start) = (calls, refreshed) ∧
      Refreshes answering (after answering requests start) calls refreshed ∧
      ∀ kind, start.1.providers.get kind <+: (callsOf kind calls).map Call.provider) ∧
    ∀ additions : List (CheckKind × π), ∀ kind,
      (after answering (additions.map fun (kind, provider) => .add kind provider) start).1.status kind =
        start.1.status kind := by
  constructor
  · obtain ⟨calls, refreshed, hrefresh, h⟩ :=
      exists_refreshes answering (after answering requests start)
    refine ⟨calls, refreshed, hrefresh, h, fun kind => ?_⟩
    rw [(h.status kind).1]
    exact providers_prefix_after answering requests start kind
  · intro additions kind
    rw [status, cached_after_add]
    rfl

/-- A provider that registers itself again on every call is asked once, then twice, then four
times. -/
example :
    let again : Answering Unit Nat := fun provider _ =>
      modifyGet fun asked => (⟨.success, [(.liveness, provider)]⟩, asked + 1)
    (after again [.add .liveness (), .refresh, .refresh, .refresh] ({}, 0)).2 = 7 := by
  decide

end CheckService

end ServiceHost
