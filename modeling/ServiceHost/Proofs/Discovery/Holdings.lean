import ServiceHost.Proofs.Discovery.Candidates

/-!
# Holdings — what a locator can hand out at all

A locator hands out what is somewhere in it: an entry of a manifest, an instance of a layer, or an
answer (`Has`). Lookups only ever take something away, so **whatever is looked up before, what is
found was there from the beginning** (`exists_has_of_loadAll`).
-/

set_option autoImplicit false

namespace ServiceHost

namespace Locator

/-- The implementor is somewhere in the locator. -/
def Has (implementor : Implementor) : Locator → Prop
  | .manifest entries => ∃ entry ∈ entries, entry.implementor = implementor
  | .layered registered delegate => implementor ∈ registered ∨ delegate.Has implementor
  | .answering all one => ∃ point required,
      (∃ found, all point required = .ok found ∧ implementor ∈ found) ∨
        one point required = .ok (some implementor)

variable {locator : Locator} {call : Call} {calls : List Call} {point : ExtensionPoint}
  {implementor : Implementor} {p : ExtensionPoint → Prop}

theorem has_of_mem_entriesOf {entries : List ManifestEntry}
    (h : implementor ∈ entriesOf point entries) : Has implementor (.manifest entries) := by
  obtain ⟨entry, hentry, rfl⟩ := List.mem_map.mp h
  rw [List.mem_mergeSort] at hentry
  exact ⟨entry, (List.mem_filter.mp hentry).1, rfl⟩

/-- A manifest hands out entries of its own. -/
theorem mem_entriesOf_of_perform (h : call.point? = some point) {entries : List ManifestEntry}
    {given : List Implementor} (hok : (call.perform (.manifest entries)).1 = .ok given)
    (hmem : implementor ∈ given) : implementor ∈ entriesOf point entries := by
  obtain ⟨candidates, hcandidates⟩ := (Nested.manifest entries).exists_candidates point
  rw [hcandidates.eq_entriesOf]
  cases call with
  | register _ => cases h
  | all other required =>
    cases h
    have hok : (implementors point required (.manifest entries)).1 = .ok given := hok
    rw [hcandidates.implementors_eq, answerAll] at hok
    split at hok
    · cases hok
    · cases hok
      exact hmem
  | one other required =>
    cases h
    have hok : (singleton point required (.manifest entries)).1.map Option.toList = .ok given := hok
    have hone := hcandidates.singleton_answers required
    generalize (singleton point required (.manifest entries)).1 = answer at hok hone
    cases hone with
    | missing => cases hok
    | several => cases hok
    | absent =>
      cases hok
      cases hmem
    | single candidate =>
      cases hok
      exact hmem

/-- What a lookup hands out was there. -/
theorem has_of_perform (h : call.point? = some point) {given : List Implementor}
    (hok : (call.perform locator).1 = .ok given) (hmem : implementor ∈ given) :
    locator.Has implementor := by
  induction locator generalizing call given with
  | manifest entries => exact has_of_mem_entriesOf (mem_entriesOf_of_perform h hok hmem)
  | layered registered delegate ih =>
    obtain ⟨found, hfound, rfl⟩ := exists_found_of_perform registered delegate h hok
    rcases List.mem_append.mp hmem with hown | hbelow
    · exact .inl (List.mem_filter.mp hown).1
    · refine .inr (ih ?_ hfound hbelow)
      cases call <;> exact h
  | answering all one =>
    cases call with
    | register _ => cases h
    | all other required => exact ⟨other, required, .inl ⟨given, hok, hmem⟩⟩
    | one other required =>
      have hok : (one other required).map Option.toList = .ok given := hok
      cases hone : one other required with
      | error error =>
        rw [hone] at hok
        cases hok
      | ok found =>
        rw [hone] at hok
        cases hok
        exact ⟨other, required, .inr (hone.trans (congrArg Except.ok (Option.mem_toList.mp hmem)))⟩

/-- What a lookup leaves was there. -/
theorem has_of_has_perform (h : call.point? = some point)
    (hhas : (call.perform locator).2.Has implementor) : locator.Has implementor := by
  induction locator generalizing call with
  | manifest entries => cases call <;> exact hhas
  | answering all one => cases call <;> exact hhas
  | layered registered delegate ih =>
    obtain ⟨left, hleft, hasked⟩ := exists_delegate_of_perform registered delegate h
    rw [hleft] at hhas
    rcases hhas with hown | hbelow
    · exact .inl (List.mem_filter.mp hown).1
    · rcases hasked with rfl | ⟨asked, hpoint, rfl⟩
      · exact .inr hbelow
      · exact .inr (ih hpoint hbelow)

theorem has_of_has_after (h : LookUp p calls) (hhas : (after calls locator).Has implementor) :
    locator.Has implementor := by
  induction calls generalizing locator with
  | nil => exact hhas
  | cons call rest ih =>
    obtain ⟨point, hpoint, _⟩ := h call List.mem_cons_self
    exact has_of_has_perform hpoint (ih (fun other hother => h other (List.mem_cons_of_mem _ hother)) hhas)

/-- Lookups leave a manifest as it is. -/
theorem after_manifest (h : LookUp p calls) (entries : List ManifestEntry) :
    after calls (.manifest entries) = .manifest entries := by
  induction calls with
  | nil => rfl
  | cons call rest ih =>
    have hcall : (call.perform (.manifest entries)).2 = .manifest entries := by
      cases call <;> rfl
    show after rest (call.perform (.manifest entries)).2 = _
    rw [hcall]
    exact ih fun other hother => h other (List.mem_cons_of_mem _ hother)

section Views

variable {α : Type} {cast? : Extension → Option α}

theorem cast_of_typed {view : α} (h : typed point cast? implementor = .ok view) :
    cast? implementor.extension = some view := by
  unfold typed at h
  cases hcast : cast? implementor.extension with
  | none =>
    rw [hcast] at h
    cases h
  | some other =>
    rw [hcast] at h
    cases h
    rfl

theorem exists_of_mem_mapM {found : List Implementor} {views : List α}
    (h : found.mapM (typed point cast?) = .ok views) {view : α} (hview : view ∈ views) :
    ∃ implementor ∈ found, cast? implementor.extension = some view := by
  induction found generalizing views with
  | nil =>
    cases h
    cases hview
  | cons first rest ih =>
    rw [List.mapM_cons] at h
    cases hf : typed point cast? first with
    | error error =>
      rw [hf] at h
      cases h
    | ok other =>
      cases hr : rest.mapM (typed point cast?) with
      | error error =>
        rw [hf, hr] at h
        cases h
      | ok others =>
        rw [hf, hr] at h
        cases h
        rcases List.mem_cons.mp hview with rfl | hrest
        · exact ⟨first, List.mem_cons_self, cast_of_typed hf⟩
        · obtain ⟨implementor, hmem, hcast⟩ := ih hr hrest
          exact ⟨implementor, List.mem_cons_of_mem _ hmem, hcast⟩

/-- **What is found was there from the beginning**, whatever was looked up before. -/
theorem exists_has_of_loadAll (h : LookUp p calls) {required : Bool} {views : List α}
    (hok : ((after calls locator).loadAll point cast? required).1 = .ok views) {view : α}
    (hview : view ∈ views) :
    ∃ implementor, locator.Has implementor ∧ cast? implementor.extension = some view := by
  have hok : ((after calls locator).implementors point required).1.bind
    (fun found => found.mapM (typed point cast?)) = .ok views := hok
  cases hfound : ((after calls locator).implementors point required).1 with
  | error error =>
    rw [hfound] at hok
    cases hok
  | ok found =>
    rw [hfound] at hok
    obtain ⟨implementor, hmem, hcast⟩ := exists_of_mem_mapM hok hview
    have hlook : (Call.all point required).point? = some point := rfl
    exact ⟨implementor, has_of_has_after h (has_of_perform hlook hfound hmem), hcast⟩

end Views

end Locator

end ServiceHost
