import ServiceHost.Proofs.Passes
import ServiceHost.Proofs.Settings.Overlay

/-!
# Flat settings as a layer — what the tree of their keys keeps

Flat settings are a source like any other: each key is cut into a path, and the paths are laid over
each other into one tree, in ascending order of the keys. A tree has no place for a text where it
has members, so **a setting is lost if another one stands below it**, and no other is
(`survives_iff_unshadowed`). The settings that nothing is lost of are those of which no key stands
above another.
-/

set_option autoImplicit false

namespace ServiceHost

namespace Settings

/-- All keys are flat. -/
def Flat (s : Settings) : Prop :=
  ∀ key ∈ s.entries, IsFlat key

/-- The tree of one setting. -/
def entryTree (entry : String × String) : Json :=
  nest (.string entry.2) (path entry.1)

/-- The tree of all settings, laid over each other in ascending order of their keys. -/
def flatTree (s : Settings) : Json :=
  stack (s.entries.toList.map entryTree)

variable {s : Settings} {key text upper lower : String}

theorem Above.lt (h : Above upper lower) : upper < lower := by
  obtain ⟨rest, rfl⟩ := h
  rw [String.lt_iff]
  have hlt : ∀ cs : List Char, cs < cs ++ '.' :: rest.toList := by
    intro cs
    induction cs with
    | nil => exact List.nil_lt_cons _ _
    | cons c others ih => exact List.cons_lt_cons_self.mpr ih
  simpa using hlt upper.toList

theorem mem_toList_iff : (key, text) ∈ s.entries.toList ↔ s.entries[key]? = some text :=
  Std.TreeMap.mem_toList_iff_getElem?_eq_some

theorem mem_entries_iff : key ∈ s.entries ↔ ∃ text, s.entries[key]? = some text := by
  rw [Std.TreeMap.mem_iff_isSome_getElem?, Option.isSome_iff_exists]

theorem forall_mem_entries_iff {p : String → Prop} :
    (∀ key ∈ s.entries, p key) ↔ ∀ entry ∈ s.entries.toList, p entry.1 := by
  constructor
  · intro h entry hmem
    exact h entry.1 (mem_entries_iff.mpr ⟨entry.2, mem_toList_iff.mp hmem⟩)
  · intro h key hkey
    obtain ⟨text, htext⟩ := mem_entries_iff.mp hkey
    exact h (key, text) (mem_toList_iff.mpr htext)

instance (s : Settings) (p : String → Prop) [DecidablePred p] :
    Decidable (∀ key ∈ s.entries, p key) :=
  decidable_of_iff _ forall_mem_entries_iff.symm

instance : DecidablePred Flat := fun s =>
  inferInstanceAs (Decidable (∀ key ∈ s.entries, IsFlat key))

/-- Settings that stand in the list in this order have ascending keys. -/
theorem lt_of_toList_eq {before after : List (String × String)} {entry : String × String}
    (h : s.entries.toList = before ++ entry :: after) :
    (∀ other ∈ before, other.1 < entry.1) ∧ ∀ other ∈ after, entry.1 < other.1 := by
  have hsorted := Std.TreeMap.ordered_keys_toList (t := s.entries)
  rw [h, List.pairwise_append, List.pairwise_cons] at hsorted
  obtain ⟨-, ⟨hafter, -⟩, hbefore⟩ := hsorted
  constructor
  · intro other hmem
    exact compare_lt_iff_lt.mp (hbefore other hmem entry List.mem_cons_self)
  · intro other hmem
    exact compare_lt_iff_lt.mp (hafter other hmem)

/-- A greater key stands behind a smaller one. -/
theorem mem_after_of_lt {before after : List (String × String)} {entry other : String × String}
    (h : s.entries.toList = before ++ entry :: after) (hmem : other ∈ s.entries.toList)
    (hlt : entry.1 < other.1) : other ∈ after := by
  rw [h] at hmem
  rcases List.mem_append.mp hmem with hfront | hback
  · exact absurd ((lt_of_toList_eq h).1 other hfront) (lt_asymm hlt)
  · rcases List.mem_cons.mp hback with rfl | hafter
    · exact absurd hlt (lt_irrefl _)
    · exact hafter

/-! ## The tree of one setting -/

theorem isLeaf_string (text : String) : IsLeaf (.string text) := trivial

theorem leafAt?_entryTree (h : IsFlat key) (text : String) (names : List String) :
    leafAt? (entryTree (key, text)) names = if names = path key then some text else none :=
  leafAt?_nest (isLeaf_string text) (fun _ => isName_of_mem_path h) names

theorem decides_entryTree (h : IsFlat key) (text : String) (names : List String) :
    decides (entryTree (key, text)) names = true ↔ Comparable (path key) names :=
  decides_nest (isLeaf_string text) (fun _ => isName_of_mem_path h) names

theorem entryLayer_eq (h : IsFlat key) (text : String) :
    entryLayer key (.string text) = .ok (entryTree (key, text)) := by
  have hnest : entryTree (key, text) = nest (.string text) (Text.segments '.' key) := rfl
  rw [entryLayer, ← hnest, entryTree]
  cases hpath : path key with
  | nil => exact absurd hpath (path_ne_nil key)
  | cons name rest =>
    have hname : name ∈ path key := hpath ▸ List.mem_cons_self
    rw [nest_cons (isName_of_mem_path h hname)]

/-! ## The layer -/

theorem Flat.of_mem (h : s.Flat) (hmem : (key, text) ∈ s.entries.toList) : IsFlat key :=
  forall_mem_entries_iff.mp h (key, text) hmem

theorem Flat.orderly_entryTree (h : s.Flat) :
    ∀ tree ∈ s.entries.toList.map entryTree, Orderly tree := by
  intro tree hmem
  obtain ⟨⟨key, text⟩, hentry, rfl⟩ := List.mem_map.mp hmem
  exact orderly_nest (isLeaf_string text) fun _ => isName_of_mem_path (h.of_mem hentry)

theorem Flat.orderly_flatTree (h : s.Flat) : Orderly s.flatTree :=
  orderly_stack h.orderly_entryTree

/-- Flat settings are a layer, the tree of their keys. -/
theorem Flat.layer_eq (h : s.Flat) : s.layer = .ok s.flatTree := by
  unfold layer
  rw [mapM_eq_ok fun entry hmem => entryLayer_eq (h.of_mem hmem) entry.2]
  rfl

/-- **What the tree keeps**: the settings that nothing stands below. -/
theorem Flat.leafAt?_flatTree (h : s.Flat) (key text : String) :
    leafAt? s.flatTree (path key) = some text ↔
      s.entries[key]? = some text ∧ ∀ other ∈ s.entries, ¬ Above key other := by
  rw [flatTree, leafAt?_stack h.orderly_entryTree]
  constructor
  · rintro ⟨before, tree, after, heq, hleaf, hafter⟩
    obtain ⟨front, rest, hsplit, rfl, hrest⟩ := List.map_eq_append_iff.mp heq
    obtain ⟨⟨found, value⟩, behind, rfl, rfl, rfl⟩ := List.map_eq_cons_iff.mp hrest
    have hfound : (found, value) ∈ s.entries.toList := by simp [hsplit]
    rw [leafAt?_entryTree (h.of_mem hfound)] at hleaf
    obtain ⟨hpath, rfl⟩ : path key = path found ∧ value = text := by simpa using hleaf
    obtain rfl := eq_of_path_eq hpath
    refine ⟨mem_toList_iff.mp hfound, ?_⟩
    intro other hother habove
    obtain ⟨below, hbelow⟩ := mem_entries_iff.mp hother
    have hmem := mem_toList_iff.mpr hbelow
    have hdecides := (decides_entryTree (h.of_mem hmem) below (path key)).mpr
      (Or.inr (above_iff.mp habove).1)
    -- A key below this one comes after it, where nothing decides its path.
    have hbehind := mem_after_of_lt hsplit hmem habove.lt
    rw [hafter _ (List.mem_map_of_mem hbehind)] at hdecides
    cases hdecides
  · rintro ⟨hentry, hnone⟩
    have hkey := mem_toList_iff.mpr hentry
    obtain ⟨before, after, hsplit⟩ := List.append_of_mem hkey
    refine ⟨before.map entryTree, entryTree (key, text), after.map entryTree, by simp [hsplit],
      ?_, ?_⟩
    · rw [leafAt?_entryTree (h.of_mem hkey), if_pos rfl]
    · intro later hlater
      obtain ⟨⟨other, below⟩, hmem, rfl⟩ := List.mem_map.mp hlater
      have hother : (other, below) ∈ s.entries.toList := by simp [hsplit, hmem]
      have hlt : key < other := (lt_of_toList_eq hsplit).2 _ hmem
      have hnot : ¬ Comparable (path other) (path key) := by
        refine not_comparable_of_not_above (ne_of_gt hlt) (fun habove => lt_asymm hlt habove.lt) ?_
        exact hnone other (mem_entries_iff.mpr ⟨below, mem_toList_iff.mp hother⟩)
      rw [← decides_entryTree (h.of_mem hother) below] at hnot
      simpa using hnot

theorem exists_last {α : Type} {p : α → Prop} {items : List α} (h : ∃ item ∈ items, p item) :
    ∃ before item after, items = before ++ item :: after ∧ p item ∧ ∀ other ∈ after, ¬ p other := by
  induction items with
  | nil => simp at h
  | cons first rest ih =>
    by_cases hrest : ∃ item ∈ rest, p item
    · obtain ⟨before, item, after, rfl, hitem⟩ := ih hrest
      exact ⟨first :: before, item, after, rfl, hitem⟩
    · obtain ⟨item, hmem, hitem⟩ := h
      rcases List.mem_cons.mp hmem with rfl | hmem
      · exact ⟨[], item, rest, rfl, hitem, fun other hother hp => hrest ⟨other, hother, hp⟩⟩
      · exact absurd ⟨item, hmem, hitem⟩ hrest

/-- The path of a key is decided by the tree: there is a leaf at it or behind it, the one of the
last key that the path is a front of. -/
theorem Flat.decides_flatTree (h : s.Flat) (hkey : key ∈ s.entries) :
    decides s.flatTree (path key) = true := by
  obtain ⟨text, hentry⟩ := mem_entries_iff.mp hkey
  obtain ⟨before, ⟨last, value⟩, after, hsplit, hfront, hafter⟩ :=
    exists_last (p := fun entry : String × String => path key <+: path entry.1)
      ⟨(key, text), mem_toList_iff.mpr hentry, List.prefix_rfl⟩
  have hlast : (last, value) ∈ s.entries.toList := by simp [hsplit]
  have hnone : ∀ other ∈ s.entries, ¬ Above last other := by
    intro other hother habove
    obtain ⟨below, hbelow⟩ := mem_entries_iff.mp hother
    have hbehind := mem_after_of_lt hsplit (mem_toList_iff.mpr hbelow) habove.lt
    exact hafter _ hbehind (hfront.trans (above_iff.mp habove).1)
  have hleaf := (h.leafAt?_flatTree last value).mpr ⟨mem_toList_iff.mp hlast, hnone⟩
  obtain ⟨behind, hbehind⟩ := hfront
  rw [← hbehind] at hleaf
  exact decides_of_leafAt?_append hleaf

/-! ## Read back -/

theorem leafAt?_stack_singleton {tree : Json} (h : Orderly tree) (names : List String) :
    leafAt? (stack [tree]) names = leafAt? tree names := by
  refine Option.ext fun text => ?_
  rw [leafAt?_stack (by simpa using h)]
  constructor
  · rintro ⟨before, found, after, heq, hleaf, -⟩
    obtain rfl : found = tree := by
      have hmem : found ∈ [tree] := heq ▸ List.mem_append_right before List.mem_cons_self
      exact List.mem_singleton.mp hmem
    exact hleaf
  · intro hleaf
    exact ⟨[], tree, [], rfl, hleaf, by simp⟩

/-- What is read back from the layer. -/
theorem Flat.getElem?_ofLayers (h : s.Flat) (key text : String) :
    (ofLayers [s.flatTree]).entries[key]? = some text ↔
      s.entries[key]? = some text ∧ ∀ lower ∈ s.entries, ¬ Above key lower := by
  have hstack : Orderly (stack [s.flatTree]) := orderly_stack (by simpa using h.orderly_flatTree)
  rw [ofLayers, getElem?_ofTree hstack.wellNamed, leafAt?_stack_singleton h.orderly_flatTree,
    h.leafAt?_flatTree]

/-- **A setting survives being a layer exactly if no other one stands below it**, so nothing is lost
exactly if no key stands above another. -/
theorem survives_iff_unshadowed (hflat : s.Flat) :
    ∃ tree, s.layer = .ok tree ∧
      (∀ key text, (ofLayers [tree]).entries[key]? = some text ↔
        s.entries[key]? = some text ∧ ∀ lower ∈ s.entries, ¬ Above key lower) ∧
      ((∀ key : String, (ofLayers [tree]).entries[key]? = s.entries[key]?) ↔
        ∀ upper ∈ s.entries, ∀ lower ∈ s.entries, ¬ Above upper lower) := by
  have hread := hflat.getElem?_ofLayers
  refine ⟨s.flatTree, hflat.layer_eq, hread, ?_⟩
  constructor
  · intro hall upper hupper
    obtain ⟨text, htext⟩ := mem_entries_iff.mp hupper
    exact ((hread upper text).mp ((hall upper).trans htext)).2
  · intro hnone key
    refine Option.ext fun text => ?_
    rw [hread]
    exact and_iff_left_of_imp fun htext => hnone key (mem_entries_iff.mpr ⟨text, htext⟩)

/-- A setting with another one below it. -/
def switchedPort : Settings :=
  ofList [("web", "on"), ("web.port", "8181")]

theorem survives_port : switchedPort.Flat ∧ ∃ tree, switchedPort.layer = .ok tree ∧
    (ofLayers [tree]).entries["web.port"]? = some "8181" := by
  have hflat : switchedPort.Flat := by decide
  obtain ⟨tree, hlayer, hread, -⟩ := survives_iff_unshadowed hflat
  exact ⟨hflat, tree, hlayer, (hread _ _).mpr ⟨by decide, by decide⟩⟩

/-- **The setting with another one below it is lost.** -/
theorem shadowed_web : switchedPort.Flat ∧ switchedPort.entries["web"]? = some "on" ∧
    ∃ tree, switchedPort.layer = .ok tree ∧ (ofLayers [tree]).entries["web"]? = none := by
  have hflat : switchedPort.Flat := by decide
  refine ⟨hflat, by decide, switchedPort.flatTree, hflat.layer_eq, ?_⟩
  rw [Option.eq_none_iff_forall_not_mem]
  intro text htext
  exact ((hflat.getElem?_ofLayers "web" text).mp htext).2 "web.port" (by decide) (by decide)

end Settings

end ServiceHost
