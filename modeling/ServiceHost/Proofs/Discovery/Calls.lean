import ServiceHost.Discovery.Locator
import Mathlib.Data.List.Basic
import Mathlib.Data.List.Induction

/-!
# Calls — what becomes of a registered instance

A locator is asked to hold instances and to look points up, in any order (`Call`). A layered
locator parts with all it holds of a point **before it knows how the lookup ends**
(`perform_layered`): a lookup that goes through hands out what it held, in front of what its
delegate finds; a lookup that fails hands out nothing, and holds nothing of the point afterwards.

So an instance waits for exactly one lookup, the next of its point (`waiting`), and what a layered
locator holds after any calls is what waits after them (`exists_layered_after`).
-/

set_option autoImplicit false

namespace ServiceHost

namespace Locator

/-- What a locator may be asked to do. -/
inductive Call where
  | register (implementor : Implementor)
  /-- Looks all implementors of a point up. -/
  | all (point : ExtensionPoint) (required : Bool)
  /-- Looks the one implementor of a point up. -/
  | one (point : ExtensionPoint) (required : Bool)

namespace Call

/-- The point that a call looks up. -/
def point? : Call → Option ExtensionPoint
  | .register _ => none
  | .all point _ | .one point _ => some point

/-- The instance that a call registers. -/
def registered? : Call → Option Implementor
  | .register implementor => some implementor
  | _ => none

/-- What a call hands out, and the locator that it leaves. -/
def perform : Call → Locator → Except DiscoveryError (List Implementor) × Locator
  | .register implementor, locator => (.ok [], locator.register implementor)
  | .all point required, locator => locator.implementors point required
  | .one point required, locator =>
    ((locator.singleton point required).1.map Option.toList, (locator.singleton point required).2)

/-- The call that a layer passes on to its delegate when it holds `own`: with an instance at hand
nothing is required any more. -/
def passedOn (own : List Implementor) : Call → Call
  | .register implementor => .register implementor
  | .all point required => .all point (required && own.isEmpty)
  | .one point required => .one point (required && own.isEmpty)

/-- A call that looks nothing up registers an instance. -/
theorem exists_eq_register {call : Call} (h : call.point? = none) :
    ∃ implementor, call = .register implementor := by
  cases call with
  | register implementor => exact ⟨implementor, rfl⟩
  | all _ _ => cases h
  | one _ _ => cases h

theorem registered?_eq_none {call : Call} {looked : ExtensionPoint}
    (h : call.point? = some looked) : call.registered? = none := by
  cases call with
  | register implementor => cases h
  | all _ _ => rfl
  | one _ _ => rfl

end Call

/-- The locator that calls leave. -/
def after (calls : List Call) (locator : Locator) : Locator :=
  calls.foldl (fun locator call => (call.perform locator).2) locator

theorem after_append (calls more : List Call) (locator : Locator) :
    after (calls ++ more) locator = after more (after calls locator) :=
  List.foldl_append

/-- The calls register nothing, and look up only points of a kind. -/
def LookUp (p : ExtensionPoint → Prop) (calls : List Call) : Prop :=
  ∀ call ∈ calls, ∃ point, call.point? = some point ∧ p point

section LookUp

variable {p : ExtensionPoint → Prop} {calls more : List Call}

theorem lookUp_nil : LookUp p [] := by
  intro call hcall
  cases hcall

theorem LookUp.append (h : LookUp p calls) (h' : LookUp p more) : LookUp p (calls ++ more) := by
  intro call hcall
  rcases List.mem_append.mp hcall with hcall | hcall
  · exact h call hcall
  · exact h' call hcall

theorem lookUp_all {point : ExtensionPoint} {required : Bool} (h : p point) :
    LookUp p [.all point required] := by
  intro call hcall
  rw [List.mem_singleton.mp hcall]
  exact ⟨point, rfl, h⟩

theorem lookUp_one {point : ExtensionPoint} {required : Bool} (h : p point) :
    LookUp p [.one point required] := by
  intro call hcall
  rw [List.mem_singleton.mp hcall]
  exact ⟨point, rfl, h⟩

end LookUp

/-! ## One layer -/

section Layer

variable (point : ExtensionPoint) (required : Bool) (registered : List Implementor)
  (delegate : Locator)

theorem takePoint_eq :
    takePoint point registered =
      (registered.filter (·.point = point), registered.filter (·.point ≠ point)) := by
  simp [takePoint, List.partition_eq_filter_filter, Function.comp_def]

theorem implementors_layered :
    implementors point required (.layered registered delegate) =
      let own := registered.filter (·.point = point)
      let below := implementors point (required && own.isEmpty) delegate
      (below.1.map (own ++ ·), .layered (registered.filter (·.point ≠ point)) below.2) := by
  rw [implementors, takePoint_eq]

theorem singleton_layered :
    singleton point required (.layered registered delegate) =
      let others := registered.filter (·.point ≠ point)
      match registered.filter (·.point = point) with
      | [] =>
        let below := singleton point required delegate
        (below.1, .layered others below.2)
      | [own] =>
        let below := singleton point false delegate
        (match below.1 with
          | .error error => .error error
          | .ok none => .ok (some own)
          | .ok (some other) => .error (.multiple point [own.origin, other.origin]),
          .layered others below.2)
      | several => (.error (.multiple point (several.map Implementor.origin)),
          .layered others delegate) := by
  have htake := takePoint_eq point registered
  rw [singleton]
  generalize takePoint point registered = taken at htake ⊢
  subst htake
  cases registered.filter (·.point = point) with
  | nil => rfl
  | cons own rest =>
    cases rest with
    | nil => rfl
    | cons next rest => rfl

variable {point} {call : Call} (h : call.point? = some point)
include h

/-- **What a layer holds of a point is gone after any lookup of it**, and nothing else is; its
delegate is asked about the same point, if it is asked at all. -/
theorem exists_delegate_of_perform :
    ∃ left, (call.perform (.layered registered delegate)).2 =
        .layered (registered.filter (·.point ≠ point)) left ∧
      (left = delegate ∨
        ∃ asked : Call, asked.point? = some point ∧ left = (asked.perform delegate).2) := by
  cases call with
  | register implementor => cases h
  | all other required =>
    cases h
    have hleft := congrArg Prod.snd (implementors_layered point required registered delegate)
    exact ⟨_, hleft, .inr ⟨.all point _, rfl, rfl⟩⟩
  | one other required =>
    cases h
    show ∃ left, (singleton point required (.layered registered delegate)).2 = _ ∧ _
    rw [singleton_layered]
    generalize registered.filter (·.point = point) = own
    rcases own with _ | ⟨own, _ | ⟨next, rest⟩⟩
    · exact ⟨_, rfl, .inr ⟨.one point required, rfl, rfl⟩⟩
    · exact ⟨_, rfl, .inr ⟨.one point false, rfl, rfl⟩⟩
    · exact ⟨_, rfl, .inl rfl⟩

/-- **A lookup that goes through** hands out what the layer held of the point, in front of what
its delegate hands out. -/
theorem exists_found_of_perform {given : List Implementor}
    (hok : (call.perform (.layered registered delegate)).1 = .ok given) :
    ∃ found, ((call.passedOn (registered.filter (·.point = point))).perform delegate).1 =
        .ok found ∧
      given = registered.filter (·.point = point) ++ found := by
  cases call with
  | register implementor => cases h
  | all other required =>
    cases h
    have hok : (implementors point required (.layered registered delegate)).1 = .ok given := hok
    rw [implementors_layered] at hok
    show ∃ found, (implementors point _ delegate).1 = .ok found ∧ _
    dsimp only at hok
    cases hb : (implementors point
      (required && (registered.filter (·.point = point)).isEmpty) delegate).1 with
    | error error =>
      rw [hb] at hok
      cases hok
    | ok found =>
      rw [hb] at hok
      cases hok
      exact ⟨found, rfl, rfl⟩
  | one other required =>
    cases h
    have hok : (singleton point required (.layered registered delegate)).1.map Option.toList =
      .ok given := hok
    rw [singleton_layered] at hok
    show ∃ found, (singleton point _ delegate).1.map Option.toList = .ok found ∧ _
    generalize registered.filter (·.point = point) = own at hok ⊢
    rcases own with _ | ⟨own, _ | ⟨next, rest⟩⟩
    · exact ⟨given, by simpa using hok, rfl⟩
    · simp only [List.isEmpty_cons, Bool.and_false]
      dsimp only at hok
      generalize (singleton point false delegate).1 = below at hok ⊢
      rcases below with error | _ | other
      · cases hok
      · cases hok
        exact ⟨[], rfl, rfl⟩
      · cases hok
    · cases hok

/-- A layer that holds nothing of a point leaves the answer to its delegate. -/
theorem perform_of_filter_eq_nil (hnone : registered.filter (·.point = point) = []) :
    (call.perform (.layered registered delegate)).1 = (call.perform delegate).1 := by
  cases call with
  | register implementor => cases h
  | all other required =>
    cases h
    show (implementors point required (.layered registered delegate)).1 =
      (implementors point required delegate).1
    rw [implementors_layered, hnone]
    simp only [List.isEmpty_nil, Bool.and_true, List.nil_append]
    cases (implementors point required delegate).1 <;> rfl
  | one other required =>
    cases h
    show (singleton point required (.layered registered delegate)).1.map Option.toList = _
    rw [singleton_layered, hnone]
    rfl

end Layer

/-! ## Histories of one layer -/

/-- The call registers an instance of the point. -/
def Call.registers (point : ExtensionPoint) (call : Call) : Bool :=
  call.registered?.any (·.point = point)

theorem Call.registers_eq_false {call : Call} {looked : ExtensionPoint}
    (h : call.point? = some looked) (point : ExtensionPoint) : call.registers point = false := by
  rw [registers, registered?_eq_none h, Option.any_none]

/-- The positions of the registrations of a point that no lookup of the point has followed. -/
def waiting (point : ExtensionPoint) (calls : List Call) : List Nat :=
  (List.range calls.length).filter fun position =>
    (calls[position]?.any (·.registers point)) &&
      (calls.drop (position + 1)).all (·.point? ≠ some point)

/-- The instances that the calls at some positions register. -/
def instancesAt (calls : List Call) (positions : List Nat) : List Implementor :=
  positions.filterMap fun position => calls[position]?.bind Call.registered?

/-- An instance waits exactly if no lookup of its point has come after its registration. -/
theorem mem_waiting {point : ExtensionPoint} {calls : List Call} {position : Nat} :
    position ∈ waiting point calls ↔
      (∃ call, calls[position]? = some call ∧ call.registers point = true) ∧
        ∀ later call, position < later → calls[later]? = some call →
          call.point? ≠ some point := by
  simp only [waiting, List.mem_filter, List.mem_range, Bool.and_eq_true, Option.any_eq_true,
    List.all_eq_true, decide_eq_true_eq]
  constructor
  · rintro ⟨_, hcall, hlater⟩
    refine ⟨hcall, fun later call hlt hget => hlater call ?_⟩
    refine List.mem_of_getElem? (i := later - (position + 1)) ?_
    rw [List.getElem?_drop, Nat.add_sub_cancel' hlt, hget]
  · rintro ⟨⟨call, hget, hcall⟩, hlater⟩
    refine ⟨(List.getElem?_eq_some_iff.mp hget).1, ⟨call, hget, hcall⟩, fun other hother => ?_⟩
    obtain ⟨index, hindex⟩ := List.mem_iff_getElem?.mp hother
    rw [List.getElem?_drop] at hindex
    exact hlater _ other (by omega) hindex

/-- One more call: a lookup of the point leaves nothing waiting, and a registration waits. -/
theorem waiting_append (point : ExtensionPoint) (calls : List Call) (call : Call) :
    waiting point (calls ++ [call]) =
      if call.point? = some point then []
      else if call.registers point then waiting point calls ++ [calls.length]
      else waiting point calls := by
  -- Before the call nothing changes, but for the call itself following.
  have hbefore : ∀ position ∈ List.range calls.length,
      (((calls ++ [call])[position]?.any (·.registers point)) &&
        ((calls ++ [call]).drop (position + 1)).all (·.point? ≠ some point)) =
      (((calls[position]?.any (·.registers point)) &&
        (calls.drop (position + 1)).all (·.point? ≠ some point)) &&
          decide (call.point? ≠ some point)) := by
    intro position hp
    have hlt := List.mem_range.mp hp
    rw [List.getElem?_append_left hlt, List.drop_append_of_le_length hlt]
    simp [Bool.and_assoc]
  unfold waiting
  rw [List.length_append, List.length_singleton, List.range_succ, List.filter_append,
    List.filter_congr hbefore]
  by_cases hcall : call.point? = some point
  · simp [hcall, Call.registers_eq_false hcall point]
  · cases hr : call.registers point <;> simp [hcall, hr]

theorem instancesAt_append (calls : List Call) (call : Call) (point : ExtensionPoint) :
    instancesAt (calls ++ [call]) (waiting point calls) =
      instancesAt calls (waiting point calls) := by
  refine List.filterMap_congr fun position hp => ?_
  obtain ⟨⟨other, hget, _⟩, _⟩ := mem_waiting.mp hp
  rw [List.getElem?_append_left (List.getElem?_eq_some_iff.mp hget).1]

/-- **What a layered locator holds after any calls** is what waits after them. -/
theorem exists_layered_after (delegate : Locator) (calls : List Call) :
    ∃ registered left, after calls (.layered [] delegate) = .layered registered left ∧
      ∀ point, registered.filter (·.point = point) =
        instancesAt calls (waiting point calls) := by
  induction calls using List.reverseRecOn with
  | nil => exact ⟨[], delegate, rfl, fun _ => rfl⟩
  | append_singleton calls call ih =>
    obtain ⟨registered, left, hafter, hheld⟩ := ih
    rw [after_append, hafter]
    cases hlook : call.point? with
    | some looked =>
      obtain ⟨below, hbelow, _⟩ := exists_delegate_of_perform registered left hlook
      refine ⟨_, below, hbelow, fun point => ?_⟩
      rw [waiting_append, hlook, Call.registers_eq_false hlook]
      by_cases hsame : looked = point
      · subst hsame
        simp [instancesAt, List.filter_filter]
      · rw [if_neg (by simpa using hsame), if_neg (by simp), instancesAt_append, ← hheld,
          List.filter_filter]
        refine List.filter_congr fun implementor _ => ?_
        by_cases hpoint : implementor.point = point
        · simp [hpoint, Ne.symm hsame]
        · simp [hpoint]
    | none =>
      obtain ⟨implementor, rfl⟩ := Call.exists_eq_register hlook
      refine ⟨registered ++ [implementor], left, rfl, fun point => ?_⟩
      rw [waiting_append, if_neg (by simp [hlook]), List.filter_append, hheld]
      have hkept := instancesAt_append calls (.register implementor) point
      by_cases hpoint : implementor.point = point
      · have hnew : instancesAt (calls ++ [.register implementor])
            (waiting point calls ++ [calls.length]) =
            instancesAt calls (waiting point calls) ++ [implementor] := by
          rw [← hkept]
          simp [instancesAt, Call.registered?]
        simp [Call.registers, Call.registered?, hpoint, hnew]
      · simp [Call.registers, Call.registered?, hpoint, hkept]

end Locator

end ServiceHost
