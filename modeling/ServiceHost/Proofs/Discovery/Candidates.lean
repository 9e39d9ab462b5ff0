import ServiceHost.Proofs.Discovery.Calls
import ServiceHost.Proofs.Text.ByteOrder
import Mathlib.Data.List.Sort

/-!
# Candidates — layers answer as one list

Layers over a manifest have one list of candidates for a point: what each layer holds of it, from
the outermost inwards, and then the entries of the manifest, **by the bytes of their names and then
by position** (`Ranking`, `Candidates`). The first lookup of a point answers as a lookup in that
list would, wherever in the layers its candidates sit; what was looked up of other points before
makes no difference (`first_lookup_answers`).
-/

set_option autoImplicit false

namespace ServiceHost

/-- **A stable sort** keeps the order of what it could put either way. -/
theorem pairwise_mergeSort_of_pairwise {α : Type} {le : α → α → Bool} {R : α → α → Prop}
    (trans : ∀ a b c, le a b = true → le b c = true → le a c = true)
    (total : ∀ a b, (le a b || le b a) = true) {items : List α} (h : items.Pairwise R) :
    (items.mergeSort le).Pairwise fun a b => le a b = true ∧ (le b a = true → R a b) := by
  rw [← List.mergeSort_zipIdx, List.pairwise_map]
  have hsorted := List.pairwise_mergeSort (List.zipIdxLE_trans trans) (List.zipIdxLE_total total)
    items.zipIdx
  have hperm := List.mergeSort_perm items.zipIdx (List.zipIdxLE le)
  have hdistinct : (items.zipIdx.mergeSort (List.zipIdxLE le)).Pairwise (·.2 ≠ ·.2) := by
    have hnodup : (items.zipIdx.map Prod.snd).Nodup := by
      rw [List.zipIdx_map_snd]
      exact List.nodup_range'
    exact List.pairwise_map.mp ((hperm.map Prod.snd).nodup_iff.mpr hnodup)
  refine (hsorted.and hdistinct).imp_of_mem ?_
  rintro ⟨a, i⟩ ⟨b, j⟩ ha hb ⟨hle, hne⟩
  have hi := List.mk_mem_zipIdx_iff_getElem?.mp (hperm.mem_iff.mp ha)
  have hj := List.mk_mem_zipIdx_iff_getElem?.mp (hperm.mem_iff.mp hb)
  unfold List.zipIdxLE at hle
  dsimp only at hle hne
  split at hle
  · rename_i hab
    refine ⟨hab, fun hba => ?_⟩
    rw [if_pos hba] at hle
    have hlt : i < j := Nat.lt_of_le_of_ne (of_decide_eq_true hle) hne
    obtain ⟨hi', rfl⟩ := List.getElem?_eq_some_iff.mp hi
    obtain ⟨hj', rfl⟩ := List.getElem?_eq_some_iff.mp hj
    exact List.pairwise_iff_getElem.mp h i j hi' hj' hlt
  · cases hle

/-! ## The entries of a manifest -/

/-- An entry as it is found. -/
def ManifestEntry.implementor (entry : ManifestEntry) : Implementor :=
  { origin := "manifest:" ++ entry.name, extension := entry.extension }

namespace Locator

/-- The entry at `i` comes before the one at `j`: by the bytes of its name, or by its position if
they have one name. -/
def Before (entries : List ManifestEntry) (i j : Nat) : Prop :=
  ∃ entry other, entries[i]? = some entry ∧ entries[j]? = some other ∧
    (Text.bytes entry.name < Text.bytes other.name ∨ entry.name = other.name ∧ i < j)

/-- The positions of the entries of a point, in order. -/
structure Ranking (entries : List ManifestEntry) (point : ExtensionPoint) (positions : List Nat) :
    Prop where
  mem_iff : ∀ position, position ∈ positions ↔
    ∃ entry, entries[position]? = some entry ∧ entry.extension.point = point
  ordered : positions.Pairwise (Before entries)

/-- The implementors at some positions of a manifest. -/
def implementorsAt (entries : List ManifestEntry) (positions : List Nat) : List Implementor :=
  positions.filterMap fun position => entries[position]?.map ManifestEntry.implementor

section Manifest

variable {entries : List ManifestEntry} {point : ExtensionPoint}

theorem Before.asymm {i j : Nat} (h : Before entries i j) : ¬ Before entries j i := by
  obtain ⟨entry, other, hi, hj, hbefore⟩ := h
  rintro ⟨other', entry', hj', hi', hbehind⟩
  obtain rfl : entry = entry' := Option.some.inj (hi.symm.trans hi')
  obtain rfl : other = other' := Option.some.inj (hj.symm.trans hj')
  rcases hbefore with hlt | ⟨hname, hlt⟩ <;> rcases hbehind with hgt | ⟨hname', hgt⟩
  · exact List.lt_asymm hlt hgt
  · rw [hname'] at hlt
    exact List.lt_irrefl _ hlt
  · rw [hname] at hgt
    exact List.lt_irrefl _ hgt
  · omega

theorem Ranking.unique {positions others : List Nat} (h : Ranking entries point positions)
    (h' : Ranking entries point others) : positions = others := by
  have : Std.Asymm (Before entries) := ⟨fun _ _ => Before.asymm⟩
  refine h.ordered.eq_of_mem_iff h'.ordered fun position => ?_
  rw [h.mem_iff, h'.mem_iff]

/-- **A manifest answers in order**: by the bytes of the names and then by position. -/
theorem exists_ranking (entries : List ManifestEntry) (point : ExtensionPoint) :
    ∃ positions, Ranking entries point positions ∧
      entriesOf point entries = implementorsAt entries positions := by
  -- The entries are sorted together with their positions.
  let indexed := entries.zipIdx.filter (·.1.extension.point = point)
  let sorted := indexed.mergeSort (·.1.name ≤ ·.1.name)
  have hmem : ∀ entry position, (entry, position) ∈ sorted ↔
      entries[position]? = some entry ∧ entry.extension.point = point := by
    intro entry position
    rw [List.mem_mergeSort, List.mem_filter, List.mk_mem_zipIdx_iff_getElem?, decide_eq_true_eq]
  refine ⟨sorted.map Prod.snd, ⟨fun position => ?_, ?_⟩, ?_⟩
  · simp only [List.mem_map, Prod.exists, exists_eq_right, hmem]
  · have hindexed : indexed.Pairwise (·.2 < ·.2) := by
      refine List.Pairwise.filter _ (List.pairwise_map.mp ?_)
      rw [List.zipIdx_map_snd]
      exact List.pairwise_lt_range'
    rw [List.pairwise_map]
    refine (pairwise_mergeSort_of_pairwise ?_ ?_ hindexed).imp_of_mem ?_
    · intro a b c hab hbc
      exact decide_eq_true (le_trans (of_decide_eq_true hab) (of_decide_eq_true hbc))
    · intro a b
      simpa using le_total a.1.name b.1.name
    · rintro ⟨entry, i⟩ ⟨other, j⟩ hi hj ⟨hle, hlt⟩
      refine ⟨entry, other, ((hmem _ _).mp hi).1, ((hmem _ _).mp hj).1, ?_⟩
      rw [Text.bytes_lt_iff]
      rcases lt_or_eq_of_le (of_decide_eq_true hle) with hname | hname
      · exact .inl hname
      · exact .inr ⟨hname, hlt (decide_eq_true (le_of_eq hname.symm))⟩
  · have hsorted : (entries.filter (·.extension.point = point)).mergeSort (·.name ≤ ·.name) =
        sorted.map Prod.fst := by
      rw [List.map_mergeSort (s := fun a b => decide (a.name ≤ b.name)) (by simp)]
      conv_lhs => rw [← List.zipIdx_map_fst 0 entries, List.filter_map]
      rfl
    have hfound : implementorsAt entries (sorted.map Prod.snd) =
        sorted.filterMap (some ∘ fun e => e.1.implementor) := by
      rw [implementorsAt, List.filterMap_map]
      refine List.filterMap_congr fun e he => ?_
      simp [((hmem e.1 e.2).mp he).1]
    rw [hfound, List.filterMap_eq_map, entriesOf, hsorted, List.map_map]
    rfl

end Manifest

/-! ## Layers -/

/-- Layers over a manifest. -/
inductive Nested : Locator → Prop
  | manifest (entries : List ManifestEntry) : Nested (.manifest entries)
  | layered (registered : List Implementor) {delegate : Locator} (below : Nested delegate) :
      Nested (.layered registered delegate)

/-- The candidates of a point. -/
inductive Candidates (point : ExtensionPoint) : Locator → List Implementor → Prop
  | manifest {entries : List ManifestEntry} {positions : List Nat}
      (ranking : Ranking entries point positions) :
      Candidates point (.manifest entries) (implementorsAt entries positions)
  | layered (registered : List Implementor) {delegate : Locator} {below : List Implementor}
      (delegated : Candidates point delegate below) :
      Candidates point (.layered registered delegate)
        (registered.filter (·.point = point) ++ below)

/-- What a lookup of all implementors answers to the candidates there are. -/
def answerAll (point : ExtensionPoint) (required : Bool) (candidates : List Implementor) :
    Except DiscoveryError (List Implementor) :=
  if candidates.isEmpty && required then .error (.notFound point) else .ok candidates

/-- What a lookup of one implementor may answer to the candidates there are. Of several it names
some, but never less than two. -/
inductive AnswersOne (point : ExtensionPoint) (required : Bool) :
    List Implementor → Except DiscoveryError (Option Implementor) → Prop
  | missing (h : required = true) : AnswersOne point required [] (.error (.notFound point))
  | absent (h : required = false) : AnswersOne point required [] (.ok none)
  | single (candidate : Implementor) : AnswersOne point required [candidate] (.ok (some candidate))
  | several {candidates named : List Implementor} (sub : named.Sublist candidates)
      (two : 2 ≤ named.length) :
      AnswersOne point required candidates
        (.error (.multiple point (named.map Implementor.origin)))

section Answers

variable {point : ExtensionPoint} {locator : Locator} {candidates : List Implementor}

theorem Nested.exists_candidates (h : Nested locator) (point : ExtensionPoint) :
    ∃ candidates, Candidates point locator candidates := by
  induction h with
  | manifest entries =>
    obtain ⟨_, hranking, _⟩ := exists_ranking entries point
    exact ⟨_, .manifest hranking⟩
  | layered registered _ ih =>
    obtain ⟨_, hbelow⟩ := ih
    exact ⟨_, .layered registered hbelow⟩

theorem Candidates.unique {others : List Implementor} (h : Candidates point locator candidates)
    (h' : Candidates point locator others) : others = candidates := by
  induction h generalizing others with
  | manifest ranking =>
    cases h' with
    | manifest ranking' => rw [ranking.unique ranking']
  | layered registered _ ih =>
    cases h' with
    | layered _ below' => rw [ih below']

/-- What a manifest finds are its candidates. -/
theorem Candidates.eq_entriesOf {entries : List ManifestEntry}
    (h : Candidates point (.manifest entries) candidates) :
    entriesOf point entries = candidates := by
  obtain ⟨_, hranking, hfound⟩ := exists_ranking entries point
  rw [hfound]
  exact h.unique (.manifest hranking)

theorem Candidates.point_eq (h : Candidates point locator candidates) :
    ∀ candidate ∈ candidates, candidate.point = point := by
  induction h with
  | manifest ranking =>
    intro candidate hmem
    obtain ⟨position, hposition, hfound⟩ := List.mem_filterMap.mp hmem
    obtain ⟨entry, hget, hpoint⟩ := (ranking.mem_iff position).mp hposition
    rw [hget] at hfound
    cases hfound
    exact hpoint
  | layered registered _ ih =>
    intro candidate hmem
    rcases List.mem_append.mp hmem with hown | hbelow
    · exact of_decide_eq_true (List.mem_filter.mp hown).2
    · exact ih candidate hbelow

/-- **All implementors are the candidates**, in order. -/
theorem Candidates.implementors_eq (h : Candidates point locator candidates) (required : Bool) :
    (implementors point required locator).1 = answerAll point required candidates := by
  induction h generalizing required with
  | manifest ranking =>
    rw [← (Candidates.manifest ranking).eq_entriesOf]
    rfl
  | @layered registered delegate below _ ih =>
    rw [implementors_layered]
    dsimp only
    rw [ih]
    -- The delegate is asked for one only where the layer holds none.
    cases registered.filter (·.point = point) with
    | nil =>
      rw [List.isEmpty_nil, Bool.and_true, List.nil_append]
      cases answerAll point required below <;> rfl
    | cons own rest =>
      rw [List.isEmpty_cons, Bool.and_false]
      simp [answerAll, Except.map]

/-- **The one implementor is the one candidate**, if there is just one. -/
theorem Candidates.singleton_answers (h : Candidates point locator candidates) (required : Bool) :
    AnswersOne point required candidates (singleton point required locator).1 := by
  induction h generalizing required with
  | @manifest entries positions ranking =>
    rw [← (Candidates.manifest ranking).eq_entriesOf]
    rcases hfound : entriesOf point entries with _ | ⟨first, _ | ⟨second, rest⟩⟩ <;>
      simp only [singleton, hfound]
    · cases required with
      | true => exact .missing rfl
      | false => exact .absent rfl
    · exact .single first
    · exact .several (List.Sublist.refl _) (Nat.le_add_left 2 rest.length)
  | @layered registered delegate below _ ih =>
    rw [singleton_layered]
    generalize registered.filter (·.point = point) = own
    rcases own with _ | ⟨own, _ | ⟨next, rest⟩⟩
    · exact ih required
    · have hbelow := ih false
      dsimp only
      generalize (singleton point false delegate).1 = answer at hbelow ⊢
      cases hbelow with
      | missing hrequired => cases hrequired
      | absent => exact .single own
      | single other => exact .several (List.Sublist.refl [own, other]) (le_refl 2)
      | several sub two => exact .several (sub.trans (List.sublist_cons_self own _)) two
    · exact .several (List.sublist_append_left (own :: next :: rest) below)
        (Nat.le_add_left 2 rest.length)

end Answers

/-! ## Before the first lookup -/

/-- A locator with nothing of other points held in its layers. -/
def only (point : ExtensionPoint) : Locator → Locator
  | .layered registered delegate =>
    .layered (registered.filter (·.point = point)) (delegate.only point)
  | locator => locator

/-- A locator with the instances that calls register in it behind those that it holds, and nothing
else done by the calls. -/
def registeredBy (calls : List Call) : Locator → Locator
  | .layered registered delegate =>
    .layered (registered ++ calls.filterMap Call.registered?) delegate
  | locator => locator

section Only

variable {point : ExtensionPoint} {locator : Locator}

theorem only_register (point : ExtensionPoint) (implementor : Implementor) (locator : Locator) :
    (locator.register implementor).only point =
      if implementor.point = point then (locator.only point).register implementor
      else locator.only point := by
  cases locator with
  | layered registered delegate =>
    by_cases h : implementor.point = point <;> simp [register, only, h]
  | manifest entries => simp [register, only]
  | answering all one => simp [register, only]

theorem Nested.perform (h : Nested locator) (call : Call) : Nested (call.perform locator).2 := by
  induction h generalizing call with
  | manifest entries => cases call <;> exact .manifest entries
  | @layered registered delegate below ih =>
    cases hlook : call.point? with
    | none =>
      obtain ⟨implementor, rfl⟩ := Call.exists_eq_register hlook
      exact .layered _ below
    | some point =>
      obtain ⟨left, hleft, hasked⟩ := exists_delegate_of_perform registered delegate hlook
      rw [hleft]
      rcases hasked with rfl | ⟨asked, _, rfl⟩
      · exact .layered _ below
      · exact .layered _ (ih asked)

/-- Lookups of other points change nothing of a point. -/
theorem Nested.only_perform (h : Nested locator) {call : Call} {other : ExtensionPoint}
    (hlooks : call.point? = some other) (hne : other ≠ point) :
    (call.perform locator).2.only point = locator.only point := by
  induction h generalizing call with
  | manifest entries => cases call <;> rfl
  | @layered registered delegate below ih =>
    obtain ⟨left, hleft, hasked⟩ := exists_delegate_of_perform registered delegate hlooks
    have hbelow : left.only point = delegate.only point := by
      rcases hasked with rfl | ⟨asked, hpoint, rfl⟩
      · rfl
      · exact ih hpoint
    have hown : (registered.filter (·.point ≠ other)).filter (·.point = point) =
        registered.filter (·.point = point) := by
      rw [List.filter_filter]
      refine List.filter_congr fun implementor _ => ?_
      by_cases hpoint : implementor.point = point
      · simp [hpoint, Ne.symm hne]
      · simp [hpoint]
    rw [hleft, only, only, hbelow, hown]

theorem nested_registeredBy (h : Nested locator) (calls : List Call) :
    Nested (registeredBy calls locator) := by
  cases h with
  | manifest entries => exact .manifest entries
  | layered registered below => exact .layered _ below

theorem registeredBy_nil (locator : Locator) : registeredBy [] locator = locator := by
  cases locator with
  | layered registered delegate => simp [registeredBy]
  | _ => rfl

/-- What is registered last is registered in the locator with all that was registered before. -/
theorem registeredBy_append_register (calls : List Call) (implementor : Implementor)
    (locator : Locator) : registeredBy (calls ++ [.register implementor]) locator =
      (registeredBy calls locator).register implementor := by
  cases locator with
  | layered registered delegate => simp [registeredBy, register, Call.registered?]
  | _ => rfl

theorem registeredBy_append_lookup (calls : List Call) {call : Call} {looked : ExtensionPoint}
    (h : call.point? = some looked) (locator : Locator) :
    registeredBy (calls ++ [call]) locator = registeredBy calls locator := by
  cases locator with
  | layered registered delegate => simp [registeredBy, Call.registered?_eq_none h]
  | _ => rfl

/-- **Until a point is looked up**, all that happens to it are the registrations. -/
theorem Nested.only_after (h : Nested locator) (calls : List Call)
    (hnone : ∀ call ∈ calls, call.point? ≠ some point) :
    Nested (after calls locator) ∧
      (after calls locator).only point = (registeredBy calls locator).only point := by
  induction calls using List.reverseRecOn with
  | nil =>
    rw [registeredBy_nil]
    exact ⟨h, rfl⟩
  | append_singleton calls call ih =>
    obtain ⟨hnested, honly⟩ := ih fun other hother => hnone other (List.mem_append_left _ hother)
    rw [after_append]
    refine ⟨hnested.perform call, ?_⟩
    show (call.perform (after calls locator)).2.only point = _
    cases hlook : call.point? with
    | some other =>
      have hne : other ≠ point := by
        rintro rfl
        exact hnone call (by simp) hlook
      rw [hnested.only_perform hlook hne, honly, registeredBy_append_lookup calls hlook]
    | none =>
      obtain ⟨implementor, rfl⟩ := Call.exists_eq_register hlook
      show ((after calls locator).register implementor).only point = _
      rw [registeredBy_append_register, only_register, only_register, honly]

theorem Candidates.only {candidates : List Implementor} (h : Candidates point locator candidates) :
    Candidates point (locator.only point) candidates := by
  induction h with
  | manifest ranking => exact .manifest ranking
  | layered registered _ ih =>
    simpa [Locator.only] using Candidates.layered (registered.filter (·.point = point)) ih

/-- Locators that hold the same of a point have the same candidates for it. -/
theorem Nested.candidates_of_only_eq (h : Nested locator) {other : Locator}
    {candidates : List Implementor} (honly : locator.only point = other.only point)
    (hother : Candidates point other candidates) : Candidates point locator candidates := by
  obtain ⟨own, hown⟩ := h.exists_candidates point
  have hsame := hown.only
  rw [honly] at hsame
  rw [hsame.unique hother.only]
  exact hown

end Only

/-! ## Typed questions -/

/-- The points that are asked about by type, each with its view of an extension. -/
inductive Typed : (α : Type) → ExtensionPoint → (Extension → Option α) → Prop
  | module : Typed Module .service Extension.toModule?
  | vault : Typed VaultExtension .vault Extension.toVault?
  | monitor : Typed MonitorExtension .monitor Extension.toMonitor?
  | settings : Typed SettingsExtension .settings Extension.toSettings?
  | itself (point : ExtensionPoint) : Typed Extension point (asPoint? point)

section TypedQuestions

variable {α : Type} {point : ExtensionPoint} {cast? : Extension → Option α}

theorem Typed.exists_cast (h : Typed α point cast?) {extension : Extension}
    (hpoint : extension.point = point) : ∃ view, cast? extension = some view := by
  cases h with
  | itself => exact ⟨extension, if_pos hpoint⟩
  | _ =>
    -- One of the four kinds of extensions is of the point.
    cases extension <;> first
      | exact ⟨_, rfl⟩
      | simp [Extension.point, ExtensionPoint.service, ExtensionPoint.vault,
          ExtensionPoint.monitor, ExtensionPoint.settings] at hpoint

/-- Implementors of the point that is asked for can all be viewed as asked. -/
theorem Typed.exists_mapM (h : Typed α point cast?) {found : List Implementor}
    (hpoint : ∀ implementor ∈ found, implementor.point = point) :
    ∃ views, found.mapM (typed point cast?) = .ok views ∧
      views.map some = found.map fun implementor => cast? implementor.extension := by
  induction found with
  | nil => exact ⟨[], rfl, rfl⟩
  | cons first rest ih =>
    obtain ⟨view, hview⟩ := h.exists_cast (hpoint first List.mem_cons_self)
    obtain ⟨views, hviews, hmap⟩ := ih fun other hother =>
      hpoint other (List.mem_cons_of_mem _ hother)
    refine ⟨view :: views, ?_, ?_⟩
    · simp [List.mapM_cons, typed, hview, hviews, bind, Except.bind, pure, Except.pure]
    · simp [hmap, hview]

variable {locator : Locator} {required : Bool}

/-- **A typed lookup of all** finds what the untyped one does, viewed as asked. -/
theorem Typed.loadAll_eq (h : Typed α point cast?) {candidates : List Implementor}
    (hpoint : ∀ candidate ∈ candidates, candidate.point = point)
    (hall : (implementors point required locator).1 = answerAll point required candidates) :
    (loadAll point cast? required locator).1.map (·.map some) =
      (implementors point required locator).1.map
        (·.map fun implementor => cast? implementor.extension) := by
  obtain ⟨views, hviews, hmap⟩ := h.exists_mapM hpoint
  show ((implementors point required locator).1.bind _).map _ = _
  rw [hall, answerAll]
  split
  · rfl
  · show (candidates.mapM (typed point cast?)).map _ = _
    rw [hviews]
    exact congrArg Except.ok hmap

/-- **A typed lookup of one** finds what the untyped one does, viewed as asked. -/
theorem Typed.loadOne_eq (h : Typed α point cast?) {candidates : List Implementor}
    (hpoint : ∀ candidate ∈ candidates, candidate.point = point)
    (hone : AnswersOne point required candidates (singleton point required locator).1) :
    (loadOne point cast? required locator).1.map (·.map some) =
      (singleton point required locator).1.map
        (·.map fun implementor => cast? implementor.extension) := by
  show ((singleton point required locator).1.bind _).map _ = _
  generalize (singleton point required locator).1 = answer at hone ⊢
  cases hone with
  | missing => rfl
  | absent => rfl
  | several => rfl
  | single candidate =>
    obtain ⟨view, hview⟩ := h.exists_cast (hpoint candidate List.mem_cons_self)
    simp [Except.bind, Except.map, typed, hview]

end TypedQuestions

/-- A lookup found nothing of another point than was asked for. -/
def NoMismatch {β : Type} (answer : Except DiscoveryError β) : Prop :=
  ∀ requested found origin, answer ≠ .error (.typeMismatch requested found origin)

theorem noMismatch_answerAll (point : ExtensionPoint) (required : Bool)
    (candidates : List Implementor) : NoMismatch (answerAll point required candidates) := by
  intro requested found origin h
  unfold answerAll at h
  split at h <;> cases h

theorem AnswersOne.noMismatch {point : ExtensionPoint} {required : Bool}
    {candidates : List Implementor} {answer : Except DiscoveryError (Option Implementor)}
    (h : AnswersOne point required candidates answer) : NoMismatch answer := by
  intro requested found origin heq
  subst heq
  cases h

theorem NoMismatch.of_map_eq {β γ δ : Type} {answer : Except DiscoveryError β}
    {other : Except DiscoveryError γ} {f : β → δ} {g : γ → δ} (h : NoMismatch other)
    (heq : answer.map f = other.map g) : NoMismatch answer := by
  rintro requested found origin rfl
  cases other with
  | ok _ => cases heq
  | error error =>
    cases heq
    exact h requested found origin rfl

/-- **Layers answer as one list.** Whatever is registered and whatever other points are looked up
before, the first lookup of a point answers as a lookup in the list of its candidates would: all of
them in order, or the one there is. Typed lookups answer the same, and never find an extension of
another point. -/
theorem first_lookup_answers {locator : Locator} (hnested : Nested locator)
    {point : ExtensionPoint} {earlier : List Call}
    (hfirst : ∀ call ∈ earlier, call.point? ≠ some point) :
    ∃ candidates,
      (∀ other, Candidates point (registeredBy earlier locator) other ↔ other = candidates) ∧
      ∀ required,
        (implementors point required (after earlier locator)).1 =
          answerAll point required candidates ∧
        AnswersOne point required candidates
          (singleton point required (after earlier locator)).1 ∧
        ∀ (α : Type) (cast? : Extension → Option α), Typed α point cast? →
          (loadAll point cast? required (after earlier locator)).1.map (·.map some) =
            (implementors point required (after earlier locator)).1.map
              (·.map fun implementor => cast? implementor.extension) ∧
          (loadOne point cast? required (after earlier locator)).1.map (·.map some) =
            (singleton point required (after earlier locator)).1.map
              (·.map fun implementor => cast? implementor.extension) ∧
          NoMismatch (loadAll point cast? required (after earlier locator)).1 ∧
          NoMismatch (loadOne point cast? required (after earlier locator)).1 := by
  obtain ⟨hafter, honly⟩ := hnested.only_after earlier hfirst
  obtain ⟨candidates, hcandidates⟩ := (nested_registeredBy hnested earlier).exists_candidates point
  have hheld := hafter.candidates_of_only_eq honly hcandidates
  refine ⟨candidates, fun other => ⟨hcandidates.unique, ?_⟩, fun required => ?_⟩
  · rintro rfl
    exact hcandidates
  have hall := hheld.implementors_eq required
  have hone := hheld.singleton_answers required
  refine ⟨hall, hone, fun α cast? htyped => ?_⟩
  have hmany := htyped.loadAll_eq hheld.point_eq hall
  have hsingle := htyped.loadOne_eq hheld.point_eq hone
  refine ⟨hmany, hsingle, .of_map_eq ?_ hmany, .of_map_eq hone.noMismatch hsingle⟩
  rw [hall]
  exact noMismatch_answerAll point required candidates

/-- An extension of the vault point. -/
def vaultNamed (name : String) : Extension :=
  .vault { name, vault := Effect.newVault {} }

/-- A vault in the lower of two layers, and another in the manifest under them. -/
def vaultsApart : Locator :=
  .layered []
    (.layered [{ origin := "lower", extension := vaultNamed "memory" }]
      (.manifest [{ name := "file", extension := vaultNamed "file" }]))

/-- A vault is registered, and monitors are looked up. -/
def vaultRegistered : List Call :=
  [.register { origin := "test", extension := vaultNamed "mock" }, .all .monitor false]

/-- **Candidates of different layers are too many.** The one vault is looked for after another was
registered; all three that there are, are candidates, and some of them are named. -/
theorem first_lookup_vaultsApart :
    ∃ candidates,
      (∀ other, Candidates .vault (registeredBy vaultRegistered vaultsApart) other ↔
        other = candidates) ∧
      candidates.map Implementor.origin = ["test", "lower", "manifest:file"] ∧
      ∀ required, AnswersOne .vault required candidates
        (singleton .vault required (after vaultRegistered vaultsApart)).1 := by
  have hnested : Nested vaultsApart := .layered _ (.layered _ (.manifest _))
  have hfirst : ∀ call ∈ vaultRegistered, call.point? ≠ some .vault := by decide
  obtain ⟨candidates, hcandidates, hanswers⟩ := first_lookup_answers hnested hfirst
  refine ⟨candidates, hcandidates, ?_, fun required => (hanswers required).2.1⟩
  have hall := congrArg (Except.map (·.map Implementor.origin)) (hanswers false).1
  rw [answerAll, Bool.and_false] at hall
  have hfound : (implementors .vault false (after vaultRegistered vaultsApart)).1.map
      (·.map Implementor.origin) = .ok ["test", "lower", "manifest:file"] := by decide +kernel
  exact Except.ok.inj (hall.symm.trans hfound)

end Locator

end ServiceHost
