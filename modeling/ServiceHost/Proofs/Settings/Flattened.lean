import ServiceHost.Proofs.Settings.Leaves
import Mathlib.Data.List.Nodup

/-!
# Flattened trees — one setting for each leaf

What a tree of settings says is which value stands behind which names (`Holds`), for the values that
are no objects; an object says nothing of its own. Flattening keeps just that: **the settings are
the leaves, one for one, under their names joined by dots**. Names without dots can be told apart in
the joined key, so two leaves never meet in one key, and it makes no difference in which order the
members of an object are visited, nor whether there are empty objects among them (`Alike`).
-/

set_option autoImplicit false

namespace ServiceHost

namespace Settings

/-! ## What a tree says -/

/-- The value, which is no object, stands in the tree behind the names. -/
inductive Holds : (tree : Json) → (names : List String) → (leaf : Json) → Prop where
  | leaf {value : Json} (h : IsLeaf value) : Holds value [] value
  | member {members : List (String × Json)} {name : String} {value leaf : Json}
    {names : List String} (hmem : (name, value) ∈ members) (h : Holds value names leaf) :
    Holds (.object members) (name :: names) leaf

/-- The text of a leaf as a setting: a string is itself, null is empty, and anything else is its
JSON text. -/
inductive ShownAs : Json → String → Prop where
  | string (text : String) : ShownAs (.string text) text
  | null : ShownAs .null ""
  | bool (value : Bool) : ShownAs (.bool value) (Json.bool value).render
  | integer (value : Int) : ShownAs (.integer value) (Json.integer value).render
  | real (value : Binary64) : ShownAs (.real value) (Json.real value).render
  | array (items : List Json) : ShownAs (.array items) (Json.array items).render

/-- Trees that are the same but for the order in which the members of their objects stand, and for
empty objects among these. -/
inductive Alike : Json → Json → Prop where
  | refl (tree : Json) : Alike tree tree
  | trans {first second third : Json} (h : Alike first second) (h' : Alike second third) :
    Alike first third
  | order {members others : List (String × Json)} (h : members.Perm others) :
    Alike (.object members) (.object others)
  | hollow (name : String) (members : List (String × Json)) :
    Alike (.object ((name, .object []) :: members)) (.object members)
  | inside (name : String) {value other : Json} (members : List (String × Json))
    (h : Alike value other) :
    Alike (.object ((name, value) :: members)) (.object ((name, other) :: members))

variable {tree other value leaf : Json} {members : List (String × Json)} {name key text : String}
  {names : List String}

theorem shownAs_iff : ShownAs value text ↔ IsLeaf value ∧ text = leafText value := by
  constructor
  · intro h
    cases h <;> exact ⟨trivial, rfl⟩
  · rintro ⟨hleaf, rfl⟩
    cases value with
    | object members => exact hleaf.elim
    | string text => exact .string text
    | null => exact .null
    | bool value => exact .bool value
    | integer value => exact .integer value
    | real value => exact .real value
    | array items => exact .array items

theorem exists_holds_of_leafAt? (h : WellNamed tree) (hleaf : leafAt? tree names = some text) :
    ∃ leaf, Holds tree names leaf ∧ ShownAs leaf text := by
  induction names generalizing tree with
  | nil =>
    rcases isLeaf_or_object tree with hvalue | ⟨members, rfl⟩
    · rw [hvalue.leafAt?_nil, Option.some.injEq] at hleaf
      exact ⟨tree, .leaf hvalue, shownAs_iff.mpr ⟨hvalue, hleaf.symm⟩⟩
    · cases hleaf
  | cons name rest ih =>
    rcases isLeaf_or_object tree with hvalue | ⟨members, rfl⟩
    · rw [hvalue.leafAt?_cons] at hleaf
      cases hleaf
    · obtain ⟨value, hfind, hrest⟩ := Option.bind_eq_some_iff.mp hleaf
      obtain ⟨leaf, hholds, hshown⟩ := ih (WellNamedMembers.of_find? h hfind).2 hrest
      exact ⟨leaf, .member ((find?_eq_some_iff h).mp hfind) hholds, hshown⟩

theorem Holds.leafAt?_eq (h : WellNamed tree) (hholds : Holds tree names leaf) :
    leafAt? tree names = some (leafText leaf) := by
  induction hholds with
  | leaf hvalue => exact hvalue.leafAt?_nil
  | member hmem _ ih =>
    rw [leafAt?, (find?_eq_some_iff h).mpr hmem]
    exact ih (WellNamedMembers.of_mem h hmem).2

/-- The walk along names finds the text of what the tree holds behind them. -/
theorem leafAt?_eq_some_iff (h : WellNamed tree) :
    leafAt? tree names = some text ↔ ∃ leaf, Holds tree names leaf ∧ ShownAs leaf text := by
  refine ⟨exists_holds_of_leafAt? h, ?_⟩
  rintro ⟨leaf, hholds, hshown⟩
  rw [hholds.leafAt?_eq h, (shownAs_iff.mp hshown).2]

/-- Behind some names a tree holds one value at most. -/
theorem Holds.unique (h : WellNamed tree) (hleaf : Holds tree names leaf)
    (hother : Holds tree names other) : leaf = other := by
  induction hleaf with
  | leaf hvalue =>
    cases hother with
    | leaf => rfl
  | member hmem _ ih =>
    cases hother with
    | member hmem' hother =>
      have hsame := ((find?_eq_some_iff h).mpr hmem).symm.trans ((find?_eq_some_iff h).mpr hmem')
      cases hsame
      exact ih (WellNamedMembers.of_mem h hmem).2 hother

theorem Holds.isName (h : WellNamed tree) (hholds : Holds tree names leaf) :
    ∀ name ∈ names, IsName name :=
  isName_of_leafAt? h (hholds.leafAt?_eq h)

/-! ## Joined keys -/

theorem path_intercalate (hne : names ≠ []) (hnames : ∀ name ∈ names, IsName name) :
    path (".".intercalate names) = names := by
  induction names with
  | nil => exact absurd rfl hne
  | cons name rest ih =>
    obtain ⟨hname, hrest⟩ := List.forall_mem_cons.mp hnames
    cases rest with
    | nil => exact path_of_isName hname
    | cons next others =>
      rw [String.intercalate_cons_cons, path_append, path_of_isName hname,
        ih (List.cons_ne_nil next others) hrest]
      rfl

/-- In an object something stands behind at least one name. -/
theorem Holds.ne_nil (h : Holds (.object members) names leaf) : names ≠ [] := by
  cases h with
  | leaf hvalue => exact hvalue.elim
  | member _ _ => exact List.cons_ne_nil _ _

theorem Holds.path_eq (h : WellNamed (.object members))
    (hholds : Holds (.object members) names leaf) :
    path (".".intercalate names) = names :=
  path_intercalate hholds.ne_nil (hholds.isName h)

/-! ## The entries, one by one -/

theorem memberLeaves_eq_flatMap (above : String) (members : List (String × Json)) :
    memberLeaves above members =
      members.flatMap fun member => leaves (memberPath above member.1) member.2 := by
  induction members with
  | nil => rfl
  | cons member rest ih =>
    rw [memberLeaves, ih, List.flatMap_cons]

/-- **Alike trees have the same leaves**, in some order. -/
theorem Alike.leaves_perm (h : Alike tree other) (above : String) :
    (leaves above tree).Perm (leaves above other) := by
  induction h generalizing above with
  | refl tree => exact List.Perm.refl _
  | trans _ _ ih ih' => exact (ih above).trans (ih' above)
  | order h =>
    simp only [leaves, memberLeaves_eq_flatMap]
    exact h.flatMap_right _
  | hollow name members => exact List.Perm.refl _
  | inside name members _ ih => exact (ih _).append_right _

/-- The segments of a key, and none of the empty one. -/
def pathBelow (above : String) : List String :=
  if above = "" then [] else path above

theorem path_memberPath (above : String) (hname : IsName name) :
    path (memberPath above name) = pathBelow above ++ [name] := by
  unfold memberPath pathBelow
  split
  · exact path_of_isName hname
  · rw [path_append, path_of_isName hname]

/-- The keys of the leaves below a name go through that name. -/
theorem exists_path_eq_of_mem_leaves (hname : IsName name) (h : WellNamed value) (above : String)
    (hmem : key ∈ (leaves (memberPath above name) value).map Prod.fst) :
    ∃ names, path key = pathBelow above ++ name :: names := by
  obtain ⟨⟨_, text⟩, hentry, rfl⟩ := List.mem_map.mp hmem
  obtain ⟨names, hleaf, rfl, -⟩ := (mem_leaves h _).mp hentry
  refine ⟨names, ?_⟩
  rw [path_keyBelow (memberPath_ne_empty above hname) (isName_of_leafAt? h hleaf),
    path_memberPath above hname, List.append_assoc]
  rfl

theorem IsLeaf.nodup_leaves (h : IsLeaf value) (above : String) :
    ((leaves above value).map Prod.fst).Nodup := by
  rw [h.leaves_eq]
  split
  · exact List.nodup_nil
  · exact List.nodup_singleton _

mutual

/-- **No two leaves have one key.** -/
theorem nodup_leaves : ∀ {tree : Json}, WellNamed tree → ∀ above : String,
    ((leaves above tree).map Prod.fst).Nodup
  | .object members, h, above => nodup_memberLeaves h above
  | .null, _, above | .bool _, _, above | .integer _, _, above | .real _, _, above
  | .string _, _, above | .array _, _, above => IsLeaf.nodup_leaves (by trivial) above

theorem nodup_memberLeaves : ∀ {members : List (String × Json)}, WellNamedMembers members →
    ∀ above : String, ((memberLeaves above members).map Prod.fst).Nodup
  | [], _, _ => List.nodup_nil
  | (name, value) :: rest, h, above => by
    rw [memberLeaves, List.map_append, List.nodup_append]
    refine ⟨nodup_leaves h.2.2.1 _, nodup_memberLeaves h.2.2.2 above, ?_⟩
    rintro key hkey _ hother rfl
    obtain ⟨names, hnames⟩ := exists_path_eq_of_mem_leaves h.1 h.2.2.1 above hkey
    rw [memberLeaves_eq_flatMap, List.map_flatMap, List.mem_flatMap] at hother
    obtain ⟨⟨other, old⟩, hmem, hother⟩ := hother
    obtain ⟨hname, hvalue⟩ := WellNamedMembers.of_mem h.2.2.2 hmem
    obtain ⟨others, hothers⟩ := exists_path_eq_of_mem_leaves hname hvalue above hother
    -- The two paths part at the members that they go through.
    have hcons := List.append_cancel_left (hothers.symm.trans hnames)
    exact h.2.1 _ hmem (List.cons.inj hcons).1

end

/-- The text under a key of the outcome, found among the leaves. -/
theorem getElem?_ofTree_iff_mem (h : ((leaves "" tree).map Prod.fst).Nodup) :
    (ofTree tree).entries[key]? = some text ↔ (key, text) ∈ leaves "" tree := by
  rw [ofTree, getElem?_ofList]
  intro key one other hone hother
  exact (Prod.mk.inj (List.inj_on_of_nodup_map h hone hother rfl)).2

/-- Alike trees have the same settings. -/
theorem Alike.toList_eq (h : Alike tree other) (hnodup : ((leaves "" tree).map Prod.fst).Nodup) :
    (ofTree other).entries.toList = (ofTree tree).entries.toList := by
  have hperm := h.leaves_perm ""
  have hnodup' := (hperm.map Prod.fst).nodup_iff.mp hnodup
  have hequiv : (ofTree other).entries.Equiv (ofTree tree).entries := by
    refine Std.TreeMap.Equiv.of_forall_constGet?_eq fun key => Option.ext fun text => ?_
    show (ofTree other).entries[key]? = some text ↔ (ofTree tree).entries[key]? = some text
    rw [getElem?_ofTree_iff_mem hnodup', getElem?_ofTree_iff_mem hnodup, hperm.mem_iff]
  exact hequiv.toList_eq

/-- **Flattening takes the leaves of a tree one to one.** In an object of any depth whose names are
not empty and hold no dot, what stands under a key is the text of the leaf whose names the key
joins, and there is nothing else; no two leaves have one key, so none that is put into the map takes
the place of another; and the outcome is the same for every tree that differs only in the order of
the members of its objects, or in empty objects. -/
theorem flattened_one_to_one (members : List (String × Json)) (h : WellNamed (.object members)) :
    (∀ key text, (ofTree (.object members)).entries[key]? = some text ↔
      ∃ names leaf, Holds (.object members) names leaf ∧ key = ".".intercalate names ∧
        ShownAs leaf text) ∧
    (∀ names leaf others other, Holds (.object members) names leaf →
      Holds (.object members) others other →
      ".".intercalate names = ".".intercalate others → names = others ∧ leaf = other) ∧
    ((leaves "" (.object members)).map Prod.fst).Nodup ∧
    (∀ other, Alike (.object members) other →
      (ofTree other).entries.toList = (ofTree (.object members)).entries.toList) := by
  refine ⟨?_, ?_, nodup_leaves h "", fun other halike => halike.toList_eq (nodup_leaves h "")⟩
  · intro key text
    rw [getElem?_ofTree h, leafAt?_eq_some_iff h]
    constructor
    · rintro ⟨leaf, hholds, hshown⟩
      refine ⟨path key, leaf, hholds, ?_, hshown⟩
      exact (eq_of_path_eq (hholds.path_eq h)).symm
    · rintro ⟨names, leaf, hholds, rfl, hshown⟩
      rw [hholds.path_eq h]
      exact ⟨leaf, hholds, hshown⟩
  · intro names leaf others other hleaf hother hkey
    have hnames : names = others := by
      rw [← hleaf.path_eq h, hkey, hother.path_eq h]
    subst hnames
    exact ⟨rfl, hleaf.unique h hother⟩

/-- Three settings of two groups, and a group of none. -/
def groupedTree : Json :=
  .object [("edc", .object [("spare", .object []), ("name", .string "provider"),
    ("web", .object [("port", .integer 8181), ("tags", .array [.string "a", .null])])])]

/-- The same tree with its members in another order, and without the group of none. -/
def regroupedTree : Json :=
  .object [("edc", .object [
    ("web", .object [("port", .integer 8181), ("tags", .array [.string "a", .null])]),
    ("name", .string "provider")])]

theorem flattened_groupedTree : WellNamed groupedTree ∧
    (ofTree groupedTree).entries["edc.web.tags"]? = some "[\"a\",null]" ∧
    (ofTree groupedTree).entries["edc.spare"]? = none ∧
    (ofTree regroupedTree).entries.toList = (ofTree groupedTree).entries.toList := by
  have hnamed : WellNamed groupedTree := by
    simp [groupedTree, WellNamed, WellNamedMembers, IsName]
  have hholds : Holds groupedTree ["edc", "web", "tags"] (.array [.string "a", .null]) :=
    .member (.head _) (.member (.tail _ (.tail _ (.head _)))
      (.member (.tail _ (.head _)) (.leaf trivial)))
  have hshown : ShownAs (.array [.string "a", .null]) "[\"a\",null]" :=
    shownAs_iff.mpr ⟨trivial, by decide +kernel⟩
  have hmoved : Alike groupedTree regroupedTree :=
    .inside "edc" [] (.trans (.hollow "spare" _) (.order (.swap _ _ [])))
  obtain ⟨hentries, -, -, halike⟩ := flattened_one_to_one _ hnamed
  refine ⟨hnamed, ?_, ?_, halike _ hmoved⟩
  · exact (hentries _ _).mpr ⟨_, _, hholds, by decide, hshown⟩
  · rw [getElem?_ofTree hnamed]
    decide +kernel

end Settings

end ServiceHost
