import ServiceHost.Proofs.Json.Written

/-!
# Written brackets — the two loops are read back

What stands between brackets is read by a step that is applied along a list, to its items or to its
members. So a round trip is said of the step (`TakesItem`, `TakesMember`) and lifted to the loop once
for each kind of bracket. **Nothing between brackets goes on with what stands before it**, since a
comma or a closing bracket follows, so the last item needs no more than the others.
-/

set_option autoImplicit false

namespace ServiceHost.Json

/-- The relation leads from one state to the other along a list. -/
inductive Along {α σ : Type} (takes : σ → α → σ → Prop) : σ → List α → σ → Prop where
  | nil (state : σ) : Along takes state [] state
  | cons {state next last : σ} {item : α} {items : List α} (first : takes state item next)
      (others : Along takes next items last) : Along takes state (item :: items) last

/-- A relation that a function fits leads where the function does. -/
theorem along_foldl {α σ : Type} {takes : σ → α → σ → Prop} {f : σ → α → σ} {items : List α}
    (h : ∀ state, ∀ item ∈ items, takes state item (f state item)) (state : σ) :
    Along takes state items (items.foldl f state) := by
  induction items generalizing state with
  | nil => exact .nil state
  | cons item rest ih =>
    refine .cons (h state item List.mem_cons_self) (ih ?_ _)
    exact fun state other hmem => h state other (List.mem_cons_of_mem item hmem)

theorem Along.map {α β σ : Type} {takes : σ → β → σ → Prop} {f : α → β} {state last : σ}
    {items : List α} (h : Along (fun state item => takes state (f item)) state items last) :
    Along takes state (items.map f) last := by
  induction h with
  | nil state => exact .nil state
  | cons first others ih => exact .cons first ih

/-- A value may start like this, and no closing bracket does. -/
def Starts (cs : List Char) : Prop :=
  ∃ c rest, cs = c :: rest ∧ isSpace c = false ∧ c ≠ ']'

theorem starts_cons {c : Char} {rest : List Char} (hspace : isSpace c = false) (hclose : c ≠ ']') :
    Starts (c :: rest) :=
  ⟨c, rest, rfl, hspace, hclose⟩

theorem starts_append {cs : List Char} (h : Starts cs) (rest : List Char) : Starts (cs ++ rest) := by
  obtain ⟨c, others, rfl, hspace, hclose⟩ := h
  exact starts_cons hspace hclose

theorem starts_of_startsNumber {c : Char} {rest : List Char} (h : startsNumber c = true) :
    Starts (c :: rest) := by
  refine starts_cons ?_ ?_
  · rw [Bool.eq_false_iff]
    intro hspace
    simp only [isSpace, Bool.or_eq_true, decide_eq_true_eq] at hspace
    rcases hspace with ((rfl | rfl) | rfl) | rfl <;> cases h
  · rintro rfl
    cases h

section Loops

variable {σ : Type} {state last : σ}

/-! ## Items -/

/-- The step takes the item from one state to the other. -/
def TakesItem (step : σ → Reader σ) (state : σ) (item : Json) (next : σ) : Prop :=
  Starts item.text ∧ ∀ rest, Ends rest → step state (item.text ++ rest) = .ok (next, rest)

theorem ends_moreItemsText (items : List Json) (rest : List Char) :
    Ends (moreItemsText items ++ rest) := by
  cases items <;> simp [moreItemsText, Ends]

theorem length_lt_moreItemsText (items : List Json) :
    items.length < (moreItemsText items).length := by
  induction items with
  | nil => simp [moreItemsText]
  | cons item rest ih =>
    simp only [moreItemsText, List.length_cons, List.length_append]
    omega

theorem length_le_itemsText (items : List Json) : items.length ≤ (itemsText items).length := by
  cases items with
  | nil => simp
  | cons item rest =>
    have hrest := length_lt_moreItemsText rest
    simp only [itemsText, List.length_cons, List.length_append]
    omega

section Item

variable {step : σ → Reader σ} {next : σ} {cs after : List Char}

theorem foldItems_first (hstarts : Starts cs) (hstep : step state cs = .ok (next, after))
    (fuel : Nat) :
    foldItems step (fuel + 1) true state cs = foldItems step fuel false next after := by
  obtain ⟨c, rest, rfl, hspace, hclose⟩ := hstarts
  rw [foldItems, skipSpace_cons_of_not_isSpace hspace]
  simp [hstep]

theorem foldItems_further (hstarts : Starts cs) (hstep : step state cs = .ok (next, after))
    (fuel : Nat) :
    foldItems step (fuel + 1) false state (',' :: cs) = foldItems step fuel false next after := by
  obtain ⟨c, rest, rfl, hspace, hclose⟩ := hstarts
  rw [foldItems, skipSpace_cons_of_not_isSpace (by decide)]
  simp [skipSpace_cons_of_not_isSpace hspace, hclose, hstep]

end Item

theorem foldItems_moreItemsText {step : σ → Reader σ} {items : List Json}
    (h : Along (TakesItem step) state items last) {fuel : Nat} (hfuel : items.length < fuel)
    (rest : List Char) :
    foldItems step fuel false state (moreItemsText items ++ rest) = .ok (last, rest) := by
  induction h generalizing fuel with
  | nil state =>
    obtain ⟨fuel, rfl⟩ := Nat.exists_eq_add_one_of_ne_zero (Nat.ne_of_gt hfuel)
    rfl
  | @cons state next last item items first others ih =>
    obtain ⟨fuel, rfl⟩ := Nat.exists_eq_add_one_of_ne_zero (Nat.ne_zero_of_lt hfuel)
    have hstep := first.2 _ (ends_moreItemsText items rest)
    rw [moreItemsText, List.cons_append, List.append_assoc,
      foldItems_further (starts_append first.1 _) hstep]
    exact ih (by simpa using hfuel)

/-- The items of a written list are taken one after another; there are enough characters to count
them by. -/
theorem foldItems_itemsText {step : σ → Reader σ} {items : List Json}
    (h : Along (TakesItem step) state items last) (rest : List Char) :
    foldItems step ((itemsText items ++ rest).length + 1) true state (itemsText items ++ rest) =
      .ok (last, rest) := by
  have hlength := length_le_itemsText items
  cases h with
  | nil => rfl
  | @cons _ next _ item items first others =>
    have hstep := first.2 _ (ends_moreItemsText items rest)
    have hfuel : items.length < (itemsText (item :: items) ++ rest).length := by
      rw [List.length_append]
      exact Nat.lt_of_lt_of_le hlength (Nat.le_add_right _ _)
    have hmore := foldItems_moreItemsText others hfuel rest
    rw [← hmore]
    have htext : itemsText (item :: items) ++ rest = item.text ++ (moreItemsText items ++ rest) := by
      rw [itemsText, List.append_assoc]
    rw [htext, foldItems_first (starts_append first.1 _) hstep]

/-! ## Members -/

theorem expectColon_colon (cs : List Char) : expectColon (':' :: cs) = .ok cs := rfl

/-- The step takes the member from one state to the other, from its colon on. -/
def TakesMember (step : σ → String → Reader σ) (state : σ) (member : String × Json) (next : σ) :
    Prop :=
  ∀ rest, Ends rest → step state member.1 (':' :: (member.2.text ++ rest)) = .ok (next, rest)

theorem ends_moreMembersText (members : List (String × Json)) (rest : List Char) :
    Ends (moreMembersText members ++ rest) := by
  cases members <;> simp [moreMembersText, Ends]

theorem length_lt_moreMembersText (members : List (String × Json)) :
    members.length < (moreMembersText members).length := by
  induction members with
  | nil => simp [moreMembersText]
  | cons member rest ih =>
    simp only [moreMembersText, List.length_cons, List.length_append]
    omega

theorem length_le_membersText (members : List (String × Json)) :
    members.length ≤ (membersText members).length := by
  cases members with
  | nil => simp
  | cons member rest =>
    have hrest := length_lt_moreMembersText rest
    simp only [membersText, List.length_cons, List.length_append]
    omega

section Member

variable {κ : Type} {key : Reader κ} {step : σ → κ → Reader σ} {name : κ} {next : σ}
  {cs rest after : List Char}

theorem foldMembers_first (hkey : key cs = .ok (name, rest))
    (hstep : step state name rest = .ok (next, after)) (fuel : Nat) :
    foldMembers key step (fuel + 1) true state ('"' :: cs) =
      foldMembers key step fuel false next after := by
  rw [foldMembers, skipSpace_cons_of_not_isSpace (by decide)]
  simp [hkey, hstep]

theorem foldMembers_further (hkey : key cs = .ok (name, rest))
    (hstep : step state name rest = .ok (next, after)) (fuel : Nat) :
    foldMembers key step (fuel + 1) false state (',' :: '"' :: cs) =
      foldMembers key step fuel false next after := by
  rw [foldMembers, skipSpace_cons_of_not_isSpace (by decide)]
  simp [skipSpace_cons_of_not_isSpace, isSpace, hkey, hstep]

end Member

theorem foldMembers_moreMembersText {step : σ → String → Reader σ} {members : List (String × Json)}
    (h : Along (TakesMember step) state members last) {fuel : Nat} (hfuel : members.length < fuel)
    (rest : List Char) :
    foldMembers readStringRest step fuel false state (moreMembersText members ++ rest) =
      .ok (last, rest) := by
  induction h generalizing fuel with
  | nil state =>
    obtain ⟨fuel, rfl⟩ := Nat.exists_eq_add_one_of_ne_zero (Nat.ne_of_gt hfuel)
    rfl
  | @cons state next last member members first others ih =>
    obtain ⟨fuel, rfl⟩ := Nat.exists_eq_add_one_of_ne_zero (Nat.ne_zero_of_lt hfuel)
    have hstep := first _ (ends_moreMembersText members rest)
    rw [moreMembersText, List.cons_append, List.append_assoc, List.cons_append, List.append_assoc,
      stringText_append, foldMembers_further (readStringRest_written _ _) hstep]
    exact ih (by simpa using hfuel)

/-- The members of a written object are taken one after another. -/
theorem foldMembers_membersText {step : σ → String → Reader σ} {members : List (String × Json)}
    (h : Along (TakesMember step) state members last) (rest : List Char) :
    foldMembers readStringRest step ((membersText members ++ rest).length + 1) true state
      (membersText members ++ rest) = .ok (last, rest) := by
  have hlength := length_le_membersText members
  cases h with
  | nil => rfl
  | @cons _ next _ member members first others =>
    have hstep := first _ (ends_moreMembersText members rest)
    have hfuel : members.length < (membersText (member :: members) ++ rest).length := by
      rw [List.length_append]
      exact Nat.lt_of_lt_of_le hlength (Nat.le_add_right _ _)
    have hmore := foldMembers_moreMembersText others hfuel rest
    rw [← hmore]
    have htext : membersText (member :: members) ++ rest =
        '"' :: (member.1.toList.flatMap escapeChar ++
          '"' :: ':' :: (member.2.text ++ (moreMembersText members ++ rest))) := by
      rw [membersText, List.append_assoc, List.cons_append, List.append_assoc, stringText_append]
    rw [htext, foldMembers_first (readStringRest_written _ _) hstep]

end Loops

end ServiceHost.Json
