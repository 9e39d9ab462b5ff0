import ServiceHost.Proofs.Discovery.Calls

/-!
# Handed out — which lookup an instance goes to

Registrations and lookups of a layered locator, in any order and over any delegate, are a list of
calls; an instance is told from all others by the position of the call that registered it. It is
handed out by one lookup at most, the next of its point, **and only if that lookup goes through**:
an instance that waits when a lookup of its point fails is lost, and the lookup after it goes on
with what is left (`handed_out_unless_lost`). So a lookup of one implementor that was refused for
finding two may find one of them the next time (`ambiguous_then_single`).
-/

set_option autoImplicit false

namespace ServiceHost

namespace Locator

/-- The instances that the outermost layer of a locator holds. -/
def registered : Locator → List Implementor
  | .layered registered _ => registered
  | _ => []

/-- What lies under the outermost layer of a locator. -/
def under : Locator → Locator
  | .layered _ delegate => delegate
  | locator => locator

section History

variable (delegate : Locator) (calls : List Call)

/-- A layer over the delegate, which nothing is registered in at first, as the call at a position
finds it. -/
def reached (position : Nat) : Locator :=
  after (calls.take position) (.layered [] delegate)

/-- What the call at a position hands out. -/
def answerOf (position : Nat) : Except DiscoveryError (List Implementor) :=
  match calls[position]? with
  | some call => (call.perform (reached delegate calls position)).1
  | none => .ok []

/-- The call at a position looks the point up. -/
def LooksUp (point : ExtensionPoint) (position : Nat) : Prop :=
  ∃ call, calls[position]? = some call ∧ call.point? = some point

/-- The lookup goes through, and the instance that was registered at the position is among those
that it takes from the layer. -/
def HandsOut (lookup position : Nat) : Prop :=
  ∃ point given, LooksUp calls point lookup ∧ answerOf delegate calls lookup = .ok given ∧
    position ∈ waiting point (calls.take lookup)

/-- The first lookup of a point behind a position that goes through. -/
structure FirstToSucceed (point : ExtensionPoint) (position lookup : Nat) : Prop where
  lt : position < lookup
  looks : LooksUp calls point lookup
  ok : ∃ given, answerOf delegate calls lookup = .ok given
  fails_before : ∀ between, position < between → between < lookup → LooksUp calls point between →
    ∃ error, answerOf delegate calls between = .error error

variable {delegate calls} {point : ExtensionPoint} {position lookup : Nat}

theorem reached_succ {call : Call} (h : calls[position]? = some call) :
    reached delegate calls (position + 1) = (call.perform (reached delegate calls position)).2 := by
  unfold reached
  rw [List.take_add_one, h, after_append]
  rfl

theorem answerOf_eq {call : Call} (h : calls[position]? = some call) :
    answerOf delegate calls position = (call.perform (reached delegate calls position)).1 := by
  unfold answerOf
  rw [h]

/-- What a call finds: a layer that holds what waits for the call. -/
theorem exists_reached (delegate : Locator) (calls : List Call) (position : Nat) :
    ∃ registered left, reached delegate calls position = .layered registered left ∧
      ∀ point, registered.filter (·.point = point) =
        instancesAt (calls.take position) (waiting point (calls.take position)) :=
  exists_layered_after delegate (calls.take position)

theorem instancesAt_eq_nil_iff (calls : List Call) (point : ExtensionPoint) :
    instancesAt calls (waiting point calls) = [] ↔ waiting point calls = [] := by
  unfold instancesAt
  rw [List.filterMap_eq_nil_iff, List.eq_nil_iff_forall_not_mem]
  refine forall_congr' fun position => ⟨fun h hw => ?_, fun h hw => absurd hw h⟩
  obtain ⟨⟨call, hget, hcall⟩, _⟩ := mem_waiting.mp hw
  have hnone := h hw
  rw [hget, Option.bind_some] at hnone
  simp [Call.registers, hnone] at hcall

/-- An instance waits for a lookup exactly if no other of its point has come between. -/
theorem mem_waiting_take (hregisters : ∃ call, calls[position]? = some call ∧
      call.registers point = true) (hlt : position < lookup) :
    position ∈ waiting point (calls.take lookup) ↔
      ∀ between, position < between → between < lookup → ¬ LooksUp calls point between := by
  obtain ⟨call, hget, hcall⟩ := hregisters
  rw [mem_waiting]
  constructor
  · rintro ⟨_, hnone⟩ between hbefore hbehind ⟨other, hother, hlooks⟩
    exact hnone between other hbefore (by rw [List.getElem?_take_of_lt hbehind, hother]) hlooks
  · intro hnone
    refine ⟨⟨call, by rw [List.getElem?_take_of_lt hlt, hget], hcall⟩, ?_⟩
    intro between other hbefore hother hlooks
    have hbehind : between < lookup := by
      have := (List.getElem?_eq_some_iff.mp hother).1
      rw [List.length_take] at this
      omega
    rw [List.getElem?_take_of_lt hbehind] at hother
    exact hnone between hbefore hbehind ⟨other, hother, hlooks⟩

theorem instancesAt_take (calls : List Call) (point : ExtensionPoint) (lookup : Nat) :
    instancesAt (calls.take lookup) (waiting point (calls.take lookup)) =
      instancesAt calls (waiting point (calls.take lookup)) := by
  refine List.filterMap_congr fun position hp => ?_
  obtain ⟨⟨call, hget, _⟩, _⟩ := mem_waiting.mp hp
  have hlt := (List.getElem?_eq_some_iff.mp hget).1
  rw [List.length_take] at hlt
  rw [List.getElem?_take_of_lt (by omega)]

/-- What a lookup that goes through hands out: the instances that wait for it, in the order of
their registrations, in front of what the delegate hands out. -/
theorem exists_found_of_answerOf {call : Call} (hget : calls[lookup]? = some call)
    (hlooks : call.point? = some point) {given : List Implementor}
    (hok : answerOf delegate calls lookup = .ok given) :
    ∃ found, given = instancesAt calls (waiting point (calls.take lookup)) ++ found ∧
      ((call.passedOn (instancesAt calls (waiting point (calls.take lookup)))).perform
        (reached delegate calls lookup).under).1 = .ok found := by
  obtain ⟨registered, left, hreached, hheld⟩ := exists_reached delegate calls lookup
  rw [answerOf_eq hget, hreached] at hok
  obtain ⟨found, hfound, hgiven⟩ := exists_found_of_perform registered left hlooks hok
  rw [hheld, instancesAt_take] at hfound hgiven
  rw [hreached]
  exact ⟨found, hgiven, hfound⟩

theorem registers_of_mem_waiting (h : position ∈ waiting point (calls.take lookup)) :
    position < lookup ∧ ∃ call, calls[position]? = some call ∧ call.registers point = true := by
  obtain ⟨⟨call, hget, hcall⟩, _⟩ := mem_waiting.mp h
  have hlt := (List.getElem?_eq_some_iff.mp hget).1
  rw [List.length_take] at hlt
  rw [List.getElem?_take_of_lt (by omega)] at hget
  exact ⟨by omega, call, hget, hcall⟩

/-- An instance is of one point. -/
theorem Call.point_eq_of_registers {call : Call} {other : ExtensionPoint}
    (h : call.registers point = true) (h' : call.registers other = true) : point = other := by
  cases call with
  | register implementor =>
    simp only [registers, registered?, Option.any_some, decide_eq_true_eq] at h h'
    exact h.symm.trans h'
  | all _ _ => cases h
  | one _ _ => cases h

/-- **No instance is handed out twice.** -/
theorem HandsOut.unique {other : Nat} (h : HandsOut delegate calls lookup position)
    (h' : HandsOut delegate calls other position) : other = lookup := by
  obtain ⟨point, _, hlooks, _, hwaits⟩ := h
  obtain ⟨point', _, hlooks', _, hwaits'⟩ := h'
  obtain ⟨hlt, call, hget, hcall⟩ := registers_of_mem_waiting hwaits
  obtain ⟨hlt', call', hget', hcall'⟩ := registers_of_mem_waiting hwaits'
  cases hget.symm.trans hget'
  cases Call.point_eq_of_registers hcall hcall'
  -- Of two lookups the first would stand between the registration and the second.
  have hnone := (mem_waiting_take ⟨call, hget, hcall⟩ hlt).mp hwaits
  have hnone' := (mem_waiting_take ⟨call, hget, hcall⟩ hlt').mp hwaits'
  rcases Nat.lt_trichotomy other lookup with hbefore | hsame | hbehind
  · exact absurd hlooks' (hnone other hlt' hbefore)
  · exact hsame
  · exact absurd hlooks (hnone' lookup hlt hbehind)

/-- **The first lookup that goes through hands an instance out exactly if none has failed.** -/
theorem FirstToSucceed.handsOut_iff (h : FirstToSucceed delegate calls point position lookup)
    (hregisters : ∃ call, calls[position]? = some call ∧ call.registers point = true) :
    HandsOut delegate calls lookup position ↔
      ∀ between error, position < between → between < lookup → LooksUp calls point between →
        answerOf delegate calls between ≠ .error error := by
  constructor
  · rintro ⟨point', _, hlooks', _, hwaits⟩ between error hbefore hbehind hlooks
    obtain ⟨_, call, hget, hcall⟩ := registers_of_mem_waiting hwaits
    obtain ⟨call', hget', hcall'⟩ := hregisters
    cases hget.symm.trans hget'
    cases Call.point_eq_of_registers hcall hcall'
    exact absurd hlooks ((mem_waiting_take ⟨call, hget, hcall⟩ h.lt).mp hwaits _ hbefore hbehind)
  · intro hnone
    obtain ⟨given, hok⟩ := h.ok
    refine ⟨point, given, h.looks, hok, (mem_waiting_take hregisters h.lt).mpr ?_⟩
    intro between hbefore hbehind hlooks
    obtain ⟨error, herror⟩ := h.fails_before between hbefore hbehind hlooks
    exact hnone between error hbefore hbehind hlooks herror

/-- **A lookup leaves the instances as they were exactly if none waited for it.** -/
theorem registered_reached_succ_iff {call : Call} (hget : calls[lookup]? = some call)
    (hlooks : call.point? = some point) :
    (reached delegate calls (lookup + 1)).registered =
        (reached delegate calls lookup).registered ↔
      waiting point (calls.take lookup) = [] := by
  obtain ⟨registered, left, hreached, hheld⟩ := exists_reached delegate calls lookup
  obtain ⟨below, hbelow, _⟩ := exists_delegate_of_perform registered left hlooks
  rw [reached_succ hget, hreached, hbelow, ← instancesAt_eq_nil_iff, ← hheld]
  show registered.filter (·.point ≠ point) = registered ↔ _
  rw [List.filter_eq_self, List.filter_eq_nil_iff]
  simp

/-- The same lookup once more is left to the delegate. -/
theorem perform_again {call : Call} (hget : calls[lookup]? = some call)
    (hlooks : call.point? = some point) :
    (call.perform (reached delegate calls (lookup + 1))).1 =
      (call.perform (reached delegate calls (lookup + 1)).under).1 := by
  obtain ⟨registered, left, hreached, _⟩ := exists_reached delegate calls lookup
  obtain ⟨below, hbelow, _⟩ := exists_delegate_of_perform registered left hlooks
  rw [reached_succ hget, hreached, hbelow]
  refine perform_of_filter_eq_nil _ _ hlooks ?_
  simp [List.filter_filter]

end History

/-- **An instance is handed out once, unless it is lost.** Whatever the delegate and the calls are:
a lookup that goes through hands out the instances that wait for it, in order, and then what the
delegate hands out. No instance is handed out by two lookups, and the first lookup that goes
through after its registration hands it out exactly if no lookup of its point has failed in
between. A lookup that fails leaves the instances as they were exactly if none waited for it, and
the same lookup once more is answered by the delegate alone. -/
theorem handed_out_unless_lost (delegate : Locator) (calls : List Call) :
    (∀ lookup call point given, calls[lookup]? = some call → call.point? = some point →
      answerOf delegate calls lookup = .ok given →
      ∃ found, given = instancesAt calls (waiting point (calls.take lookup)) ++ found ∧
        ((call.passedOn (instancesAt calls (waiting point (calls.take lookup)))).perform
          (reached delegate calls lookup).under).1 = .ok found) ∧
    (∀ position lookup other, HandsOut delegate calls lookup position →
      HandsOut delegate calls other position → other = lookup) ∧
    (∀ position lookup point, FirstToSucceed delegate calls point position lookup →
      (∃ call, calls[position]? = some call ∧ call.registers point = true) →
      (HandsOut delegate calls lookup position ↔
        ∀ between error, position < between → between < lookup → LooksUp calls point between →
          answerOf delegate calls between ≠ .error error)) ∧
    (∀ lookup call point error, calls[lookup]? = some call → call.point? = some point →
      answerOf delegate calls lookup = .error error →
      ((reached delegate calls (lookup + 1)).registered =
          (reached delegate calls lookup).registered ↔
        waiting point (calls.take lookup) = []) ∧
      (call.perform (reached delegate calls (lookup + 1))).1 =
        (call.perform (reached delegate calls (lookup + 1)).under).1) := by
  refine ⟨?_, ?_, ?_, ?_⟩
  · intro lookup call point given hget hlooks hok
    exact exists_found_of_answerOf hget hlooks hok
  · intro position lookup other h h'
    exact h.unique h'
  · intro position lookup point hfirst hregisters
    exact hfirst.handsOut_iff hregisters
  · intro lookup call point error hget hlooks _
    exact ⟨registered_reached_succ_iff hget hlooks, perform_again hget hlooks⟩

/-- A manifest with one vault. -/
def oneVault : Locator :=
  .manifest [{ name := "file", extension := .vault { name := "file", vault := Effect.newVault {} } }]

/-- Another vault is registered over it, and the one vault there is looked up twice. -/
def twoVaultsTwice : List Call :=
  [.register { origin := "test", extension := .vault { name := "mock", vault := Effect.newVault {} } },
    .one .vault false, .one .vault false]

/-- **What was ambiguous is found at the second try.** The first lookup is refused for finding two
vaults, and its failure takes the registered one away. The second is the first to go through, and
finds the other; the registered one is handed out by neither. -/
theorem ambiguous_then_single :
    (answerOf oneVault twoVaultsTwice 1).map (·.map Implementor.origin) =
      .error (.multiple .vault ["test", "manifest:file"]) ∧
    (answerOf oneVault twoVaultsTwice 2).map (·.map Implementor.origin) = .ok ["manifest:file"] ∧
    (reached oneVault twoVaultsTwice 1).registered.map Implementor.origin = ["test"] ∧
    (reached oneVault twoVaultsTwice 2).registered.map Implementor.origin = [] ∧
    FirstToSucceed oneVault twoVaultsTwice .vault 0 2 ∧
    ∀ lookup, ¬ HandsOut oneVault twoVaultsTwice lookup 0 := by
  have hfirst : (answerOf oneVault twoVaultsTwice 1).map (·.map Implementor.origin) =
      .error (.multiple .vault ["test", "manifest:file"]) := by decide +kernel
  have hsecond : (answerOf oneVault twoVaultsTwice 2).map (·.map Implementor.origin) =
      .ok ["manifest:file"] := by decide +kernel
  refine ⟨hfirst, hsecond, by decide +kernel, by decide +kernel, ⟨by decide, ⟨_, rfl, rfl⟩, ?_, ?_⟩,
    ?_⟩
  · cases h : answerOf oneVault twoVaultsTwice 2 with
    | ok given => exact ⟨given, rfl⟩
    | error _ =>
      rw [h] at hsecond
      cases hsecond
  · intro between hbefore hbehind _
    obtain rfl : between = 1 := by omega
    cases h : answerOf oneVault twoVaultsTwice 1 with
    | error error => exact ⟨error, rfl⟩
    | ok _ =>
      rw [h] at hfirst
      cases hfirst
  · rintro lookup ⟨point, given, ⟨call, hget, hlooks⟩, hok, hwaits⟩
    have hlt : lookup < 3 := (List.getElem?_eq_some_iff.mp hget).1
    obtain ⟨hpos, _⟩ := registers_of_mem_waiting hwaits
    obtain rfl | rfl : lookup = 1 ∨ lookup = 2 := by omega
    · rw [hok] at hfirst
      cases hfirst
    -- Between the registration and the second lookup stands the first.
    · obtain rfl : call = .one .vault false := (Option.some.inj hget).symm
      exact (mem_waiting.mp hwaits).2 1 (.one .vault false) (by decide) rfl hlooks

end Locator

end ServiceHost
