import ServiceHost.Proofs.Boot.Writers

/-!
# Stock — a registry that only fills up

Where modules honour what they declare, a boot never takes a capability away: a setup publishes
all that its module provides and leaves everything else as it is. So **what is found once is found
for the rest of the boot** (`Performs.isSome_find?`), and once a module is set up, all that it
provides is found (`Performs.isSome_of_setUp`).

The one thing that a module cannot publish is a capability that is pinned and not there, as when
the registry was emptied after the pin. Such a capability is `Sealed`, and stays so.
-/

set_option autoImplicit false

namespace ServiceHost

/-- What a host has registered, and what of it is pinned. -/
def Host.registrations (host : Host) : Registry × List String :=
  (host.context.registry, host.context.pinned)

theorem quiet_registrations : Quiet Host.registrations where
  locate _ := fun _ => rfl
  report _ := fun _ => rfl
  effect _ := fun _ => rfl
  write _ _ := fun _ => rfl
  changeContext _ h := fun host => Prod.ext (h host.context).1 (h host.context).2

/-! ## Sealed capabilities -/

/-- The capability is pinned and yet not there, so a registration of it is refused, and nothing
is found under it. -/
def Host.Sealed (host : Host) (capability : String) : Prop :=
  capability ∈ host.context.pinned ∧ host.find? capability = none

namespace Host

variable {host other : Host} {capability touched : String} {service : Service}

theorem sealed_congr (h : other.registrations = host.registrations) :
    other.Sealed capability ↔ host.Sealed capability := by
  obtain ⟨hregistry, hpinned⟩ := Prod.mk.inj h
  unfold Sealed find?
  rw [hregistry, hpinned]

theorem not_sealed_of_isSome (h : (host.find? capability).isSome = true) :
    ¬ host.Sealed capability := by
  rintro ⟨_, hnone⟩
  rw [hnone] at h
  cases h

/-- **A plain registration neither breaks a seal nor makes one.** -/
theorem sealed_register :
    (Host.register touched service host).2.Sealed capability ↔ host.Sealed capability := by
  unfold Sealed
  rw [pinned_register, Host.find?_register]
  apply and_congr_right
  intro hpinned
  rw [if_neg]
  rintro ⟨rfl, hnot⟩
  exact hnot hpinned

/-- Registered or skipped, a capability is there after its registration, unless it is sealed. -/
theorem isSome_register (h : ¬ host.Sealed capability) :
    ((Host.register capability service host).2.find? capability).isSome = true := by
  rw [Host.find?_register]
  by_cases hp : capability ∈ host.context.pinned
  · rw [if_neg fun hc => hc.2 hp]
    exact Option.isSome_iff_ne_none.mpr fun hnone => h ⟨hp, hnone⟩
  · rw [if_pos ⟨rfl, hp⟩]
    rfl

end Host

/-! ## Hosts and modules that fit together -/

/-- A host on which slots find nothing of a wrong type. -/
structure Host.Suits (points : List InjectionPoint) (host : Host) : Prop where
  type_eq : ∀ point ∈ points, ∀ service, host.find? point.capability = some service →
    service.type = point.service

theorem Host.Suits.of_registrations_eq {points : List InjectionPoint} {host other : Host}
    (h : host.Suits points) (he : other.registrations = host.registrations) :
    other.Suits points where
  type_eq := by
    intro point hp service hs
    have hfind : other.find? point.capability = host.find? point.capability :=
      congrArg (·.1.find? point.capability) he
    rw [hfind] at hs
    exact h.type_eq point hp service hs

/-- A registration of the type that slots expect leaves a host that suits them. -/
theorem Host.Suits.register {points : List InjectionPoint} {host : Host} {capability : String}
    {service : Service} (h : host.Suits points)
    (ht : ∀ point ∈ points, point.capability = capability → service.type = point.service) :
    (Host.register capability service host).2.Suits points where
  type_eq := by
    intro point hp found hf
    rw [Host.find?_register] at hf
    split at hf
    · next hc =>
      cases hf
      exact ht point hp hc.1.symm
    · exact h.type_eq point hp found hf

/-- A module that is what it declares to be, among slots that expect what they expect: its slots
are its own, it respects seals, and on a host that suits the slots it sets itself up without
failing, and leaves a host that suits them and has all that it provides and that is not sealed. -/
structure Module.Honours (points : List InjectionPoint) (module : Module) : Prop where
  keeps : module.KeepsToDeclared
  sealed_iff : ∀ memory (host : Host) capability,
    (Host.contextEffect (module.setUp memory) host).2.Sealed capability ↔ host.Sealed capability
  target_eq : ∀ point ∈ module.points, point.target = module.kind
  setUp_ok : ∀ memory host, host.Suits points →
    ∃ after, (Host.contextEffect (module.setUp memory) host).1 = .ok after
  suits : ∀ memory host, host.Suits points →
    (Host.contextEffect (module.setUp memory) host).2.Suits points
  isSome_of_provides : ∀ memory (host : Host), host.Suits points →
    ∀ capability ∈ module.provides, ¬ host.Sealed capability →
      ((Host.contextEffect (module.setUp memory) host).2.find? capability).isSome = true

theorem Module.honours_publisher {name capability : String} {service : Service}
    {slots points : List InjectionPoint} (htarget : ∀ point ∈ slots, point.target = name)
    (htype : ∀ point ∈ points, point.capability = capability → service.type = point.service) :
    (publisher name capability service slots).Honours points where
  keeps := keepsToDeclared_publisher name capability service slots
  sealed_iff _ _ _ := Host.sealed_register
  target_eq := htarget
  setUp_ok memory host _ := ⟨memory, rfl⟩
  suits _ _ h := h.register htype
  isSome_of_provides := by
    intro memory host _ other hc hsealed
    obtain rfl := List.mem_singleton.mp hc
    exact Host.isSome_register hsealed

theorem Module.honours_of_pure {module : Module} {points : List InjectionPoint}
    (htarget : ∀ point ∈ module.points, point.target = module.kind)
    (hprovides : module.provides = [])
    (h : ∀ memory, module.setUp memory = pure (.ok memory)) : module.Honours points where
  keeps := keepsToDeclared_of_pure h
  sealed_iff := by
    intro memory host capability
    rw [h]
    rfl
  target_eq := htarget
  setUp_ok := by
    intro memory host _
    rw [h]
    exact ⟨memory, rfl⟩
  suits := by
    intro memory host hs
    rw [h]
    exact hs
  isSome_of_provides := by
    intro memory host _ capability hc
    rw [hprovides] at hc
    cases hc

namespace Boot

variable {limits : Limits} {state next final : State} {acts : List Act} {act : Act}
  {hosted : Hosted} {points : List InjectionPoint} {host : Host} {capability : String}

/-! ## One act -/

theorem Act.suits_call (hh : hosted.module.Honours points) (hs : host.Suits points) :
    ((act.call limits hosted).on host).2.Suits points := by
  have hview := act.view_call quiet_registrations.calm limits hosted host
  have henter : (host.enter act.step hosted.name).Suits points := hs.of_registrations_eq rfl
  refine Host.Suits.of_registrations_eq ?_ hview
  cases act with
  | setUp _ => exact hh.suits _ _ henter
  | _ => exact henter

theorem Act.sealed_call (hh : hosted.module.Honours points) :
    ((act.call limits hosted).on host).2.Sealed capability ↔ host.Sealed capability := by
  have henter : (host.enter act.step hosted.name).Sealed capability ↔ host.Sealed capability :=
    Host.sealed_congr rfl
  rw [Host.sealed_congr (act.view_call quiet_registrations.calm limits hosted host), ← henter]
  cases act with
  | setUp _ => exact hh.sealed_iff _ _ _
  | _ => rfl

/-- A setup leaves all that its module provides and that is not sealed, whether it counts as failed
or not. -/
theorem Act.isSome_of_setUp (limits : Limits) (hh : hosted.module.Honours points)
    (hs : host.Suits points) (hc : capability ∈ hosted.module.provides)
    (hsealed : ¬ host.Sealed capability) (position : Nat) :
    ((((Act.setUp position).call limits hosted).on host).2.find? capability).isSome = true := by
  have henter : (host.enter (.call .setUp) hosted.name).Suits points := hs.of_registrations_eq rfl
  rw [Act.view_call (quiet_find? capability).calm]
  exact hh.isSome_of_provides hosted.memory _ henter capability hc hsealed

/-- What is found before an act is found after it. -/
theorem Act.isSome_find? (hh : hosted.module.Honours points) (hs : host.Suits points)
    (hf : (host.find? capability).isSome = true) :
    (((act.call limits hosted).on host).2.find? capability).isSome = true := by
  cases act with
  | setUp position =>
    -- What the module provides it publishes, and all else it leaves as it is.
    by_cases hc : capability ∈ hosted.module.provides
    · exact Act.isSome_of_setUp limits hh hs hc (Host.not_sealed_of_isSome hf) position
    · rw [Act.find?_call fun _ _ => ⟨hh.keeps, hc⟩]
      exact hf
  | _ =>
    rw [Act.find?_call fun _ he => by cases he]
    exact hf

/-! ## Runs -/

/-- All modules of a state honour what they declare. -/
def State.Honoured (state : State) (points : List InjectionPoint) : Prop :=
  ∀ position module, state.moduleAt position = some module → module.Honours points

/-- At the beginning of a boot all modules honour what they declare, if they do. -/
theorem State.honoured_start {modules : List Module} (host : Host)
    (hh : ∀ module ∈ modules, module.Honours points) :
    (State.start modules host).Honoured points := by
  intro other provider hat
  rw [State.moduleAt_start] at hat
  exact hh provider (List.mem_of_getElem? hat)

theorem Takes.honoured (h : Takes limits state act next) (hh : state.Honoured points) :
    next.Honoured points := fun position module hm =>
  hh position module ((h.moduleAt_eq position).symm.trans hm)

theorem Performs.honoured (h : Performs limits state acts final) (hh : state.Honoured points) :
    final.Honoured points := fun position module hm =>
  hh position module ((h.moduleAt_eq position).symm.trans hm)

theorem Performs.suits (h : Performs limits state acts final) (hh : state.Honoured points)
    (hs : state.host.Suits points) : final.host.Suits points := by
  refine h.host_invariant ?_ hs
  intro act _ hosted hm host hs
  exact Act.suits_call (hh _ _ hm) hs

/-- What is sealed stays sealed, and nothing else is. -/
theorem Performs.sealed_iff (h : Performs limits state acts final)
    (hh : state.Honoured points) :
    final.host.Sealed capability ↔ state.host.Sealed capability := by
  refine h.host_invariant (p := (·.Sealed capability ↔ state.host.Sealed capability)) ?_ Iff.rfl
  intro act _ hosted hm host hiff
  exact (Act.sealed_call (hh _ _ hm)).trans hiff

/-- **What is found once is found for the rest of the run.** -/
theorem Performs.isSome_find? (h : Performs limits state acts final)
    (hh : state.Honoured points) (hs : state.host.Suits points)
    (hf : (state.host.find? capability).isSome = true) :
    (final.host.find? capability).isSome = true := by
  have hboth : final.host.Suits points ∧ (final.host.find? capability).isSome = true := by
    refine h.host_invariant
      (p := fun host => host.Suits points ∧ (host.find? capability).isSome = true) ?_ ⟨hs, hf⟩
    rintro act _ hosted hm host ⟨hs, hf⟩
    exact ⟨Act.suits_call (hh _ _ hm) hs, Act.isSome_find? (hh _ _ hm) hs hf⟩
  exact hboth.2

/-- **All that a module provides is found from its setup on**, unless it was sealed before. -/
theorem Performs.isSome_of_setUp (h : Performs limits state acts final)
    (hh : state.Honoured points) (hs : state.host.Suits points) {position : Nat}
    {module : Module} (hm : state.moduleAt position = some module)
    (hin : .setUp position ∈ acts) (hc : capability ∈ module.provides)
    (hsealed : ¬ state.host.Sealed capability) :
    (final.host.find? capability).isSome = true := by
  -- The run is cut at the setup: it publishes the capability, and what follows keeps it.
  obtain ⟨front, back, rfl⟩ := List.append_of_mem hin
  obtain ⟨mid, hfront, hrest⟩ := h.split
  cases hrest with
  | @cons _ next _ _ _ htake hback =>
    have hhmid := hfront.honoured hh
    have hsmid := hfront.suits hh hs
    have hsnext := (Performs.single htake).suits hhmid hsmid
    refine hback.isSome_find? (htake.honoured hhmid) hsnext ?_
    obtain ⟨hosted, after, hat, _, hcall, _⟩ := htake
    have hmodule : state.moduleAt position = some hosted.module := by
      rw [← hfront.moduleAt_eq]
      exact congrArg (Option.map Hosted.module) hat
    cases hm.symm.trans hmodule
    have hfound := Act.isSome_of_setUp limits (hh _ _ hm) hsmid hc
      (fun hmid => hsealed ((hfront.sealed_iff hh).mp hmid)) position
    rw [hcall] at hfound
    exact hfound

end Boot

end ServiceHost
