import ServiceHost.Proofs.Settings.Keys

/-!
# Leaves — the settings of a tree, looked up by their paths

A tree of settings is flattened leaf by leaf, each under the dotted path of its names. Looking a key
up in the outcome is then **walking the tree along the path of the key** (`getElem?_ofTree`),
provided that no name of the tree is empty, holds a dot or stands twice in one object
(`WellNamed`): then no two leaves have one key, so the order in which they are put into the map says
nothing.
-/

set_option autoImplicit false

namespace ServiceHost

namespace Settings

mutual

/-- The members of every object of the tree have names by which a key can lead, no two the same. -/
def WellNamed : Json → Prop
  | .object members => WellNamedMembers members
  | _ => True

def WellNamedMembers : List (String × Json) → Prop
  | [] => True
  | (name, value) :: rest =>
    IsName name ∧ (∀ member ∈ rest, member.1 ≠ name) ∧ WellNamed value ∧ WellNamedMembers rest

end

/-- The text of the leaf that the names lead to. -/
def leafAt? : Json → (names : List String) → Option String
  | .object members, name :: rest => (Json.find? members name).bind fun value => leafAt? value rest
  | .object _, [] => none
  | value, [] => some (leafText value)
  | _, _ :: _ => none

/-- A value that is no object. -/
def IsLeaf : Json → Prop
  | .object _ => False
  | _ => True

variable {tree value : Json} {members : List (String × Json)} {name key text : String}
  {names : List String}

theorem isLeaf_or_object (value : Json) : IsLeaf value ∨ ∃ members, value = .object members := by
  cases value with
  | object members => exact Or.inr ⟨members, rfl⟩
  | _ => exact Or.inl trivial

theorem IsLeaf.leaves_eq (h : IsLeaf value) (above : String) :
    leaves above value = if above = "" then [] else [(above, leafText value)] := by
  cases value with
  | object members => exact h.elim
  | _ => rfl

theorem IsLeaf.leafAt?_nil (h : IsLeaf value) : leafAt? value [] = some (leafText value) := by
  cases value with
  | object members => exact h.elim
  | _ => rfl

theorem IsLeaf.leafAt?_cons (h : IsLeaf value) (name : String) (names : List String) :
    leafAt? value (name :: names) = none := by
  cases value with
  | object members => exact h.elim
  | _ => rfl

theorem IsLeaf.mem_leaves (h : IsLeaf value) (above : String) :
    (key, text) ∈ leaves above value ↔
      ∃ names, leafAt? value names = some text ∧ key = keyBelow above names ∧ key ≠ "" := by
  rw [h.leaves_eq above]
  constructor
  · intro hmem
    split at hmem
    · exact absurd hmem List.not_mem_nil
    · rename_i hne
      obtain ⟨rfl, rfl⟩ := Prod.mk.inj (List.mem_singleton.mp hmem)
      exact ⟨[], h.leafAt?_nil, rfl, hne⟩
  · rintro ⟨names, hleaf, rfl, hne⟩
    cases names with
    | nil =>
      have hne : above ≠ "" := hne
      rw [h.leafAt?_nil, Option.some.injEq] at hleaf
      rw [if_neg hne, ← hleaf]
      exact List.mem_singleton_self _
    | cons name rest => rw [h.leafAt?_cons] at hleaf; cases hleaf

/-! ## Members -/

theorem WellNamedMembers.of_mem (h : WellNamedMembers members) (hmem : (name, value) ∈ members) :
    IsName name ∧ WellNamed value := by
  induction members with
  | nil => exact absurd hmem List.not_mem_nil
  | cons first rest ih =>
    obtain ⟨other, old⟩ := first
    rcases List.mem_cons.mp hmem with heq | hrest
    · obtain ⟨rfl, rfl⟩ := Prod.mk.inj heq
      exact ⟨h.1, h.2.2.1⟩
    · exact ih h.2.2.2 hrest

theorem find?_eq_some_iff (h : WellNamedMembers members) :
    Json.find? members name = some value ↔ (name, value) ∈ members := by
  induction members with
  | nil => simp
  | cons first rest ih =>
    obtain ⟨other, old⟩ := first
    rw [Json.find?_cons, List.mem_cons]
    by_cases hname : other = name
    · subst hname
      have hnot : (other, value) ∉ rest := fun hmem => h.2.1 _ hmem rfl
      simp [hnot, eq_comm]
    · have hne : (name, value) ≠ (other, old) := fun heq => hname (Prod.mk.inj heq).1.symm
      simp only [if_neg hname, hne, false_or]
      exact ih h.2.2.2

theorem WellNamedMembers.of_find? (h : WellNamedMembers members)
    (hfind : Json.find? members name = some value) : IsName name ∧ WellNamed value :=
  h.of_mem ((find?_eq_some_iff h).mp hfind)

/-- What leads to a leaf are names. -/
theorem isName_of_leafAt? (h : WellNamed tree) (hleaf : leafAt? tree names = some text) :
    ∀ name ∈ names, IsName name := by
  induction names generalizing tree with
  | nil => simp
  | cons first rest ih =>
    cases tree with
    | object members =>
      obtain ⟨value, hfind, hrest⟩ := Option.bind_eq_some_iff.mp hleaf
      obtain ⟨hname, hvalue⟩ := WellNamedMembers.of_find? h hfind
      intro name hmem
      rcases List.mem_cons.mp hmem with rfl | hmem
      · exact hname
      · exact ih hvalue hrest name hmem
    | _ => cases hleaf

/-! ## All leaves -/

mutual

/-- **The leaves of a tree are what its paths lead to.** -/
theorem mem_leaves : ∀ {tree : Json}, WellNamed tree → ∀ above : String,
    ((key, text) ∈ leaves above tree ↔
      ∃ names, leafAt? tree names = some text ∧ key = keyBelow above names ∧ key ≠ "")
  | .object members, h, above => by
    rw [leaves, mem_memberLeaves h above]
    constructor
    · rintro ⟨name, value, names, hmem, hleaf, hkey⟩
      refine ⟨name :: names, ?_, hkey⟩
      rw [leafAt?, (find?_eq_some_iff h).mpr hmem]
      exact hleaf
    · rintro ⟨names, hleaf, hkey⟩
      cases names with
      | nil => cases hleaf
      | cons name rest =>
        obtain ⟨value, hfind, hrest⟩ := Option.bind_eq_some_iff.mp hleaf
        exact ⟨name, value, rest, (find?_eq_some_iff h).mp hfind, hrest, hkey⟩
  | .null, _, above => IsLeaf.mem_leaves (by trivial) above
  | .bool _, _, above => IsLeaf.mem_leaves (by trivial) above
  | .integer _, _, above => IsLeaf.mem_leaves (by trivial) above
  | .real _, _, above => IsLeaf.mem_leaves (by trivial) above
  | .string _, _, above => IsLeaf.mem_leaves (by trivial) above
  | .array _, _, above => IsLeaf.mem_leaves (by trivial) above

theorem mem_memberLeaves : ∀ {members : List (String × Json)}, WellNamedMembers members →
    ∀ above : String, ((key, text) ∈ memberLeaves above members ↔
      ∃ name value names, (name, value) ∈ members ∧ leafAt? value names = some text ∧
        key = keyBelow (memberPath above name) names ∧ key ≠ "")
  | [], _, above => by simp [memberLeaves]
  | (name, value) :: rest, h, above => by
    rw [memberLeaves, List.mem_append, mem_leaves h.2.2.1, mem_memberLeaves h.2.2.2]
    constructor
    · rintro (⟨names, hleaf⟩ | ⟨other, old, names, hmem, hleaf⟩)
      · exact ⟨name, value, names, List.mem_cons_self, hleaf⟩
      · exact ⟨other, old, names, List.mem_cons_of_mem _ hmem, hleaf⟩
    · rintro ⟨other, old, names, hmem, hleaf⟩
      rcases List.mem_cons.mp hmem with heq | hmem
      · obtain ⟨rfl, rfl⟩ := Prod.mk.inj heq
        exact Or.inl ⟨names, hleaf⟩
      · exact Or.inr ⟨other, old, names, hmem, hleaf⟩

end

/-! ## The settings of a tree -/

/-- What a map made of entries has under a key, if no two entries of one key differ. -/
theorem getElem?_ofList {entries : List (String × String)}
    (hone : ∀ key one other, (key, one) ∈ entries → (key, other) ∈ entries → one = other) :
    (ofList entries).entries[key]? = some text ↔ (key, text) ∈ entries := by
  show (Std.TreeMap.ofList entries)[key]? = some text ↔ _
  rw [Std.TreeMap.ofList_eq_insertMany_empty, Std.TreeMap.getElem?_insertMany_list,
    Std.TreeMap.getElem?_emptyc, Option.or_none, List.findSomeRev?_eq_findSome?_reverse]
  constructor
  · intro h
    obtain ⟨⟨other, old⟩, hmem, hfound⟩ := List.exists_of_findSome?_eq_some h
    simp only [Std.LawfulEqCmp.compare_eq_iff_eq, Option.ite_none_right_eq_some,
      Option.some.injEq] at hfound
    obtain ⟨rfl, rfl⟩ := hfound
    exact List.mem_reverse.mp hmem
  · intro hmem
    cases hfind : List.findSome? _ entries.reverse with
    | some other =>
      obtain ⟨⟨found, old⟩, hold, hfound⟩ := List.exists_of_findSome?_eq_some hfind
      simp only [Std.LawfulEqCmp.compare_eq_iff_eq, Option.ite_none_right_eq_some,
        Option.some.injEq] at hfound
      obtain ⟨rfl, rfl⟩ := hfound
      rw [hone _ _ _ (List.mem_reverse.mp hold) hmem]
    | none =>
      have := List.findSome?_eq_none_iff.mp hfind (key, text) (List.mem_reverse.mpr hmem)
      simp at this

/-- The leaves of a whole tree stand under the keys of their paths. -/
theorem mem_leaves_iff_leafAt? (h : WellNamed tree) :
    (key, text) ∈ leaves "" tree ↔ leafAt? tree (path key) = some text := by
  rw [mem_leaves h]
  constructor
  · rintro ⟨names, hleaf, rfl, hne⟩
    have hnames : names ≠ [] := by
      rintro rfl
      exact hne rfl
    rwa [path_keyBelow_empty hnames (isName_of_leafAt? h hleaf)]
  · intro hleaf
    have hflat : IsFlat key := fun segment hmem => (isName_of_leafAt? h hleaf segment hmem).1
    exact ⟨path key, hleaf, (keyBelow_path hflat).symm, hflat.ne_empty⟩

/-- **A key is looked up by walking the tree along its path.** -/
theorem getElem?_ofTree (h : WellNamed tree) (key : String) :
    (ofTree tree).entries[key]? = leafAt? tree (path key) := by
  refine Option.ext fun text => ?_
  rw [ofTree, getElem?_ofList, mem_leaves_iff_leafAt? h]
  intro key one other hone hother
  rw [mem_leaves_iff_leafAt? h] at hone hother
  exact Option.some.inj (hone.symm.trans hother)

end Settings

end ServiceHost
