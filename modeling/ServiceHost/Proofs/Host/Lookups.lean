import ServiceHost.Proofs.Discovery.Calls
import ServiceHost.Proofs.Host.Frame

/-!
# Lookups — what a host asks its locator

A host reaches its locator only to load one of its parts or to discover modules, and each of these
is one lookup: the settings and the vault are the one extension of their points, monitors and
modules are all of theirs (`ContextOp.lookups`). **What a request leaves of the locator is what its
lookup leaves** (`locator_perform`), however the request ends.

So a host on which nobody asked for a point has come to where it is without looking that point up
(`SoughtFrom`).
-/

set_option autoImplicit false

namespace ServiceHost

open Locator (Call LookUp)

/-- What a host looks up to answer a request. -/
def ContextOp.lookups : ContextOp → List Call
  | .loadSettings => [.one .settings false]
  | .loadVault => [.one .vault false]
  | .loadMonitor => [.all .monitor false]
  | .discover => [.all .service true]
  | _ => []

/-- The request looks up only points of a kind. -/
def ContextOp.Seeks (p : ExtensionPoint → Prop) (op : ContextOp) : Prop :=
  LookUp p op.lookups

namespace Host

/-- Where a host discovers its extensions. -/
def locator (host : Host) : Locator :=
  host.context.locator

theorem calm_locator : Calm locator :=
  calm_context.comp Context.locator

theorem frames_locator_register (capability : String) (service : Service) :
    Frames locator (Host.register capability service) :=
  calm_locator.register fun _ => rfl

/-! ## Loading a part -/

/-- What follows an action and frames a view shows what the action shows. -/
theorem view_on_bind {α β γ : Type} {view : Host → γ} {action : BootM α} {rest : α → BootM β}
    (hr : ∀ a, Frames view (rest a).run) (host : Host) :
    view ((action >>= rest).on host).2 = view (action.on host).2 := by
  rw [BootM.on_bind]
  rcases action.on host with ⟨error | a, mid⟩
  · rfl
  · exact hr a mid

theorem locator_extensionSettings (host : Host) :
    (extensionSettings.on host).2.locator =
      Locator.after [.one .settings false] host.locator := by
  -- The lookup comes first, and nothing that follows it reaches the locator.
  refine view_on_bind (fun found => ?_) host
  rcases found with error | _ | extension
  · exact Frames.bootThrow _
  · exact Frames.bootPure _
  · refine (Frames.bootLift Frames.get).bootBind fun mid =>
      (Frames.bootLift (calm_locator.effect _)).bootBind fun answer => ?_
    cases answer with
    | error error => exact Frames.bootThrow _
    | ok settings =>
      exact (Frames.bootLift (calm_locator.report _)).bootBind fun _ => Frames.bootPure _

theorem locator_loadSettings (host : Host) :
    (loadSettings.on host).2.locator = Locator.after [.one .settings false] host.locator := by
  rw [← locator_extensionSettings]
  refine view_on_bind (fun extension => ?_) host
  refine Frames.bootBind ?_ fun environment => (Frames.bootLift Frames.get).bootBind fun mid => ?_
  · refine (Frames.bootLift Frames.get).bootBind fun mid => ?_
    cases Settings.environmentLayer mid.world.surroundings.environment with
    | ok layer => exact Frames.bootPure _
    | error crash =>
      exact (Frames.bootLift (calm_locator.write _ rfl)).bootBind fun _ => Frames.bootThrow _
  · dsimp only
    split
    · exact Frames.bootThrow _
    · exact Frames.bootLift fun _ => rfl

theorem locator_findVault (host : Host) :
    (findVault.on host).2.locator = Locator.after [.one .vault false] host.locator := by
  refine view_on_bind (fun found => ?_) host
  rcases found with error | _ | extension
  · exact Frames.bootThrow _
  · exact (Frames.bootLift (calm_locator.report _)).bootBind fun _ =>
      Frames.bootLift (calm_locator.effect _)
  · refine (Frames.bootLift Frames.get).bootBind fun mid =>
      (Frames.bootLift (calm_locator.effect _)).bootBind fun answer => ?_
    cases answer with
    | error error => exact Frames.bootThrow _
    | ok _ =>
      exact (Frames.bootLift (calm_locator.report _)).bootBind fun _ =>
        Frames.bootLift (calm_locator.effect _)

theorem locator_loadVault (host : Host) :
    (loadVault.on host).2.locator = Locator.after [.one .vault false] host.locator := by
  rw [← locator_findVault]
  exact view_on_bind (fun _ => Frames.bootLift (frames_locator_register _ _)) host

/-! ## Requests of a module -/

/-- **A request does to the locator what its lookup does.** -/
theorem locator_perform (op : ContextOp) (host : Host) :
    (Host.perform op host).2.locator = Locator.after op.lookups host.locator := by
  cases op with
  | register capability service => exact frames_locator_register capability service host
  | loadSettings => exact host.locator_loadSettings
  | loadVault => exact host.locator_loadVault
  | _ => rfl

/-- The host came from a locator by looking up only points of a kind. -/
def SoughtFrom (p : ExtensionPoint → Prop) (given : Locator) (host : Host) : Prop :=
  ∃ calls, LookUp p calls ∧ host.locator = Locator.after calls given

section Sought

variable {p : ExtensionPoint → Prop} {given : Locator} {host after : Host}

theorem SoughtFrom.then (h : host.SoughtFrom p given) {more : List Call} (hmore : LookUp p more)
    (hafter : after.locator = Locator.after more host.locator) : after.SoughtFrom p given := by
  obtain ⟨calls, hcalls, hlocator⟩ := h
  refine ⟨calls ++ more, hcalls.append hmore, ?_⟩
  rw [hafter, hlocator, Locator.after_append]

/-- A program that seeks only points of a kind keeps its host within lookups of these. -/
theorem SoughtFrom.contextEffect {α : Type} {effect : ContextEffect α}
    (hall : effect.AllOps (ContextOp.Seeks p)) (h : host.SoughtFrom p given) :
    (Host.contextEffect effect host).2.SoughtFrom p given := by
  have hkeeps : ∀ op mid, ContextOp.Seeks p op → SoughtFrom p given mid →
      SoughtFrom p given (Host.perform op mid).2 := by
    intro op mid hop hmid
    exact hmid.then hop (locator_perform op mid)
  exact Program.run_invariant hkeeps hall h

end Sought

end Host

end ServiceHost
