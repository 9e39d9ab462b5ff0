import ServiceHost.Launch.InProcess
import ServiceHost.Proofs.Launch.Parts
import Mathlib.Data.List.Induction

/-!
# Requests — a program prepares its host, and launches it

Before it uses its host, a program brings services to pin, extensions and settings, and launches it,
in any order and as often as it likes (`Request`). Up to the first launch the host keeps all that
was brought (`after_of_not_launched`). **A launch takes the locator with it**, whether it goes
through or not (`locator?_after_of_launched`), and a launch that finds its monitor takes the
services as well: what a host has to pin are the services brought since the last such launch
(`services_after`).
-/

set_option autoImplicit false

namespace ServiceHost

namespace InProcess

/-- What a program may ask of its host before it uses it. -/
inductive Request where
  | pin (capability : String) (service : Service)
  | extend (extension : Extension)
  | set (key value : String)
  | launch

namespace Request

def perform : Request → InProcess → StateM World InProcess
  | .pin capability service, host => return host.pin capability service
  | .extend extension, host => host.extend extension
  | .set key value, host => return host.set key value
  | .launch, host => return (← host.launch).2

/-- The service that is brought to be pinned. -/
def mock? : Request → Option (String × Service)
  | .pin capability service => some (capability, service)
  | _ => none

def extension? : Request → Option Extension
  | .extend extension => some extension
  | _ => none

end Request

/-- A host and its world after requests. -/
def after (requests : List Request) (state : InProcess × World) : InProcess × World :=
  requests.foldl (fun state request => request.perform state.1 state.2) state

/-- The services that are brought to be pinned. -/
def mocks (requests : List Request) : List (String × Service) :=
  requests.filterMap Request.mock?

def extensions (requests : List Request) : List Extension :=
  requests.filterMap Request.extension?

/-- Extensions of a program over a locator. -/
def overlaid (delegate : Locator) (extensions : List Extension) : Locator :=
  .layered (extensions.map fun extension => { origin := "test", extension }) delegate

theorem after_concat (requests : List Request) (request : Request) (state : InProcess × World) :
    after (requests ++ [request]) state =
      request.perform (after requests state).1 (after requests state).2 := by
  simp [after]

/-- The request is a launch that finds its monitor, so it takes the services with it. -/
def UsesUp (request : Request) (state : InProcess × World) : Prop :=
  request = .launch ∧ state.1.handle? = none ∧
    (ServiceHost.launch state.1.steps state.2).1.monitor.isSome = true

/-- The requests behind the last one that used the services up. -/
inductive Behind (start : InProcess × World) : List Request → List Request → Prop where
  | nil : Behind start [] []
  | kept {requests behind : List Request} {request : Request} (earlier : Behind start requests behind)
      (h : ¬ UsesUp request (after requests start)) :
      Behind start (requests ++ [request]) (behind ++ [request])
  | used {requests : List Request} {request : Request}
      (h : UsesUp request (after requests start)) : Behind start (requests ++ [request]) []

theorem exists_behind (start : InProcess × World) (requests : List Request) :
    ∃ behind, Behind start requests behind := by
  induction requests using List.reverseRecOn with
  | nil => exact ⟨[], .nil⟩
  | append_singleton requests request ih =>
    obtain ⟨behind, hbehind⟩ := ih
    by_cases h : UsesUp request (after requests start)
    · exact ⟨[], .used h⟩
    · exact ⟨behind ++ [request], .kept hbehind h⟩

theorem mocks_concat (requests : List Request) (request : Request) :
    mocks (requests ++ [request]) = mocks requests ++ request.mock?.toList := by
  unfold mocks
  rw [List.filterMap_append, List.filterMap_cons]
  cases request.mock? <;> rfl

theorem extensions_concat (requests : List Request) (request : Request) :
    extensions (requests ++ [request]) = extensions requests ++ request.extension?.toList := by
  unfold extensions
  rw [List.filterMap_append, List.filterMap_cons]
  cases request.extension? <;> rfl

/-! ## One request -/

section One

variable (host : InProcess) (world : World)

theorem launch_of_down (h : host.handle? = none) :
    host.launch world =
      let attempt := (ServiceHost.launch host.steps world).1
      ((attempt.outcome.map fun _ => (),
        { host with
          locator? := none
          services := if attempt.monitor.isSome then [] else host.services
          handle? := attempt.outcome.toOption }),
        (ServiceHost.launch host.steps world).2) := by
  unfold launch
  rw [h]
  dsimp only
  rw [Launch.bind_apply]
  cases (ServiceHost.launch host.steps world).1.outcome with
  | error error =>
    rw [Except.toOption, ← h]
    rfl
  | ok handle => rfl

theorem launch_of_up {handle : Handle} (h : host.handle? = some handle) :
    host.launch world = ((.ok (), host), world) := by
  unfold launch
  rw [h]
  rfl

/-- A request that is no launch adds what it brings; an extension, where the locator is still
there. -/
theorem perform_of_ne_launch {request : Request} (h : request ≠ .launch) :
    (request.perform host world).1.handle? = host.handle? ∧
      (request.perform host world).1.services = host.services ++ request.mock?.toList ∧
      (request.perform host world).1.locator? = host.locator?.map fun locator =>
        request.extension?.toList.foldl
          (fun locator extension => locator.register { origin := "test", extension }) locator := by
  cases request with
  | launch => exact absurd rfl h
  | pin capability service => exact ⟨rfl, rfl, Option.map_id'.symm⟩
  | set key value => exact ⟨rfl, (List.append_nil _).symm, Option.map_id'.symm⟩
  | extend extension =>
    show (host.extend extension world).1.handle? = _ ∧ (host.extend extension world).1.services = _ ∧
      (host.extend extension world).1.locator? = _
    unfold extend
    cases hl : host.locator? with
    | none => exact ⟨rfl, (List.append_nil _).symm, hl⟩
    | some locator => exact ⟨rfl, (List.append_nil _).symm, rfl⟩

end One

/-! ## Histories -/

section History

variable (delegate : Locator) (world : World) (requests : List Request)

/-- **Before its first launch** a host has all that was brought. -/
theorem after_of_not_launched (h : .launch ∉ requests) :
    (after requests (new delegate, world)).1.handle? = none ∧
      (after requests (new delegate, world)).1.services = mocks requests ∧
      (after requests (new delegate, world)).1.locator? =
        some (overlaid delegate (extensions requests)) := by
  induction requests using List.reverseRecOn with
  | nil => exact ⟨rfl, rfl, rfl⟩
  | append_singleton requests request ih =>
    rw [List.mem_append, not_or] at h
    obtain ⟨hhandle, hservices, hlocator⟩ := ih h.1
    have hne : request ≠ .launch := by
      rintro rfl
      exact h.2 (List.mem_singleton_self _)
    obtain ⟨hhandle', hservices', hlocator'⟩ := perform_of_ne_launch
      (after requests (new delegate, world)).1 (after requests (new delegate, world)).2 hne
    rw [after_concat, hhandle', hservices', hlocator', mocks_concat, extensions_concat, hhandle,
      hservices, hlocator]
    refine ⟨rfl, rfl, ?_⟩
    cases request.extension? with
    | none => simp [overlaid]
    | some extension => simp [overlaid, Locator.register]

/-- **A launch takes the locator with it**, and no request brings it back. -/
theorem locator?_after_of_launched (h : .launch ∈ requests) :
    (after requests (new delegate, world)).1.locator? = none := by
  induction requests using List.reverseRecOn with
  | nil => cases h
  | append_singleton requests request ih =>
    rw [after_concat]
    -- After an earlier launch there is nothing to take; and the first one takes what is there.
    by_cases hearlier : .launch ∈ requests
    · have hlocator := ih hearlier
      generalize after requests (new delegate, world) = state at hlocator ⊢
      by_cases hlaunch : request = .launch
      · subst hlaunch
        show (state.1.launch state.2).1.2.locator? = none
        cases hhandle : state.1.handle? with
        | none => rw [launch_of_down _ _ hhandle]
        | some handle => rw [launch_of_up _ _ hhandle, hlocator]
      · rw [(perform_of_ne_launch state.1 state.2 hlaunch).2.2, hlocator]
        rfl
    · obtain ⟨hhandle, _, _⟩ := after_of_not_launched delegate world requests hearlier
      obtain rfl : Request.launch = request := by
        simpa [hearlier] using h
      show ((after requests (new delegate, world)).1.launch _).1.2.locator? = none
      rw [launch_of_down _ _ hhandle]

/-- **What a host has to pin** are the services that were brought since the last launch that found
its monitor. -/
theorem services_after {start : InProcess × World} {behind : List Request}
    (hstart : start.1.services = []) (h : Behind start requests behind) :
    (after requests start).1.services = mocks behind := by
  induction h with
  | nil => exact hstart
  | @kept requests behind request _ hkept ih =>
    rw [after_concat, mocks_concat, ← ih]
    generalize after requests start = state at hkept ⊢
    -- Even a launch keeps the services where the host is up, or where no monitor is found.
    by_cases hlaunch : request = .launch
    · subst hlaunch
      show (state.1.launch state.2).1.2.services = state.1.services ++ []
      rw [List.append_nil]
      cases hhandle : state.1.handle? with
      | none =>
        rw [launch_of_down _ _ hhandle]
        exact if_neg fun hmonitor => hkept ⟨rfl, hhandle, hmonitor⟩
      | some handle => rw [launch_of_up _ _ hhandle]
    · exact (perform_of_ne_launch state.1 state.2 hlaunch).2.1
  | @used requests request hused =>
    obtain ⟨rfl, hhandle, hmonitor⟩ := hused
    rw [after_concat]
    show ((after requests start).1.launch _).1.2.services = []
    rw [launch_of_down _ _ hhandle]
    exact if_pos hmonitor

end History

end InProcess

end ServiceHost
