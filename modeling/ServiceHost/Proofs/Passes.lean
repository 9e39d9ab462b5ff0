import Mathlib.Data.List.Basic

/-!
# Passes — steps that may fail, one after the other

Much of a host is a pass over a list that ends at its first failure: declarations are checked,
settings are read, layers are laid over each other. What such a pass answers is told here once.
A pass of checks goes through if all of them do and **fails as its first failing check does**
(`forM_eq_ok_iff`, `forM_eq_error_iff`), and a pass that checks and gathers at the same time is the
pass of its checks, with what is gathered told apart from it (`foldlM_checked`, `mapM_checked`).
-/

set_option autoImplicit false

namespace ServiceHost

variable {α β γ ε : Type}

/-! ## One step -/

theorem bind_eq_ok_iff {first : Except ε α} {next : α → Except ε β} {answer : β} :
    (first >>= next) = .ok answer ↔ ∃ value, first = .ok value ∧ next value = .ok answer := by
  cases first <;> simp [bind, Except.bind]

theorem map_eq_ok_iff {f : α → β} {answer : Except ε α} {b : β} :
    answer.map f = .ok b ↔ ∃ a, answer = .ok a ∧ f a = b := by
  cases answer <;> simp [Except.map]

theorem map_eq_error_iff {f : α → β} {answer : Except ε α} {error : ε} :
    answer.map f = .error error ↔ answer = .error error := by
  cases answer <;> simp [Except.map]

/-! ## Passes of checks -/

theorem forM_flatMap (parts : α → List β) (check : β → Except ε Unit) (items : List α) :
    (items.flatMap parts).forM check = items.forM fun item => (parts item).forM check := by
  simp only [List.forM_eq_forM]
  induction items with
  | nil => rfl
  | cons item rest ih =>
    rw [List.flatMap_cons, List.forM_append, List.forM_cons, ih]

/-- A check of the items alone passes over their positions. -/
theorem forM_zipIdx (check : α → Except ε Unit) (items : List α) :
    (items.zipIdx.forM fun entry => check entry.1) = items.forM check := by
  conv_rhs => rw [← List.zipIdx_map_fst 0 items]
  simp only [List.forM_eq_forM, List.forM_map]

theorem forM_cons (check : α → Except ε Unit) (item : α) (rest : List α) :
    (item :: rest).forM check = (check item >>= fun _ => rest.forM check) :=
  rfl

/-- A pass of checks goes through if and only if every one of them does. -/
theorem forM_eq_ok_iff {check : α → Except ε Unit} {items : List α} :
    items.forM check = .ok () ↔ ∀ item ∈ items, check item = .ok () := by
  induction items with
  | nil => simp [pure, Except.pure]
  | cons item rest ih =>
    rw [forM_cons, bind_eq_ok_iff, List.forall_mem_cons]
    constructor
    · rintro ⟨_, hc, hrest⟩
      exact ⟨hc, ih.mp hrest⟩
    · rintro ⟨hc, hrest⟩
      exact ⟨(), hc, ih.mpr hrest⟩

/-- **A pass of checks fails as its first failing check does.** -/
theorem forM_eq_error_iff {check : α → Except ε Unit} {items : List α} {error : ε} :
    items.forM check = .error error ↔
      ∃ before item after, items = before ++ item :: after ∧
        (∀ earlier ∈ before, check earlier = .ok ()) ∧ check item = .error error := by
  induction items with
  | nil => simp [pure, Except.pure]
  | cons item rest ih =>
    rw [forM_cons]
    cases hc : check item with
    | error found =>
      simp only [bind, Except.bind, Except.error.injEq]
      constructor
      · intro h
        exact ⟨[], item, rest, rfl, by simp, h ▸ hc⟩
      · rintro ⟨before, other, after, heq, hbefore, ho⟩
        cases before with
        | nil =>
          obtain ⟨rfl, _⟩ := List.cons.inj heq
          exact Except.error.inj (hc.symm.trans ho)
        | cons first before =>
          obtain ⟨rfl, _⟩ := List.cons.inj heq
          have := hbefore item List.mem_cons_self
          rw [hc] at this
          cases this
    | ok _ =>
      simp only [bind, Except.bind, ih]
      constructor
      · rintro ⟨before, other, after, rfl, hbefore, ho⟩
        exact ⟨item :: before, other, after, rfl,
          List.forall_mem_cons.mpr ⟨hc, hbefore⟩, ho⟩
      · rintro ⟨before, other, after, heq, hbefore, ho⟩
        cases before with
        | nil =>
          obtain ⟨rfl, _⟩ := List.cons.inj heq
          rw [hc] at ho
          cases ho
        | cons first before =>
          obtain ⟨rfl, rfl⟩ := List.cons.inj heq
          exact ⟨before, other, after, rfl, (List.forall_mem_cons.mp hbefore).2, ho⟩

/-! ## Passes that gather -/

theorem mapM_eq_ok {f : α → Except ε β} {g : α → β} {items : List α}
    (h : ∀ item ∈ items, f item = .ok (g item)) : items.mapM f = .ok (items.map g) := by
  induction items with
  | nil => rfl
  | cons item rest ih =>
    rw [List.mapM_cons, h item List.mem_cons_self,
      ih fun other hmem => h other (List.mem_cons_of_mem item hmem)]
    rfl

theorem exists_mapM {f : α → Except ε β} {p : β → Prop} {items : List α}
    (h : ∀ item ∈ items, ∃ result, f item = .ok result ∧ p result) :
    ∃ results, items.mapM f = .ok results ∧ ∀ result ∈ results, p result := by
  induction items with
  | nil => exact ⟨[], rfl, by simp⟩
  | cons item rest ih =>
    obtain ⟨result, hresult, hp⟩ := h item List.mem_cons_self
    obtain ⟨results, hresults, hall⟩ :=
      ih fun other hmem => h other (List.mem_cons_of_mem item hmem)
    refine ⟨result :: results, ?_, List.forall_mem_cons.mpr ⟨hp, hall⟩⟩
    rw [List.mapM_cons, hresult, hresults]
    rfl

variable {check : α → Except ε Unit}

/-- **Where each step checks its item and goes on**, the checks decide whether the pass goes
through, and what it has gathered by then does not. -/
theorem foldlM_checked {step : γ → α → γ} {act : γ → α → Except ε γ}
    (h : ∀ found item, act found item = (check item).map fun _ => step found item)
    (items : List α) (found : γ) :
    items.foldlM act found = (items.forM check).map fun _ => items.foldl step found := by
  induction items generalizing found with
  | nil => rfl
  | cons item rest ih =>
    rw [forM_cons, List.foldlM_cons, h]
    cases check item with
    | error error => rfl
    | ok _ => exact ih _

theorem mapM_checked {f : α → β} {act : α → Except ε β}
    (h : ∀ item, act item = (check item).map fun _ => f item) (items : List α) :
    items.mapM act = (items.forM check).map fun _ => items.map f := by
  induction items with
  | nil => rfl
  | cons item rest ih =>
    rw [forM_cons, List.mapM_cons, h, ih]
    cases check item with
    | error error => rfl
    | ok _ =>
      cases rest.forM check with
      | error error => rfl
      | ok _ => rfl

end ServiceHost
