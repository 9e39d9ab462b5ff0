import ServiceHost.Proofs.Settings.Flat

/-!
# Layers of settings — the last layer that has a key wins

What a stack of layers comes to is told key by key (`Layered`): a key of the outcome has the text of
the **last layer that has the key**, and that text is in the outcome unless this layer or one behind
it has a key above or below it. Each layer is a tree, and all that is asked of the tree is that it
carries the settings of the layer (`Carries`); the tree of flat settings does, and so does any
orderly tree for the settings that are read from it.
-/

set_option autoImplicit false

namespace ServiceHost

namespace Settings

/-- The layer is the last one that has the key, it has the text under it, and the others follow. -/
structure SetLast (layers : List Settings) (key text : String) (layer : Settings)
    (behind : List Settings) : Prop where
  split : ∃ before, layers = before ++ layer :: behind
  entry : layer.entries[key]? = some text
  silent : ∀ later ∈ behind, later.entries[key]? = none

/-- The settings are what the layers come to when they are laid over each other. -/
structure Layered (layers : List Settings) (result : Settings) : Prop where
  of_mem : ∀ key text, result.entries[key]? = some text →
    ∃ layer behind, SetLast layers key text layer behind
  kept : ∀ key text layer behind, SetLast layers key text layer behind →
    (∀ later ∈ layer :: behind, ∀ other ∈ later.entries, ¬ Above other key ∧ ¬ Above key other) →
    result.entries[key]? = some text

/-- The tree says of each key what the settings say, unless the settings have a key below it. -/
structure Carries (tree : Json) (s : Settings) : Prop where
  orderly : Orderly tree
  topless : leafAt? tree [] = none
  text_of_leaf : ∀ key text, leafAt? tree (path key) = some text → s.entries[key]? = some text
  leaf_of_text : ∀ key text, s.entries[key]? = some text →
    (∀ other ∈ s.entries, ¬ Above key other) → leafAt? tree (path key) = some text
  decides_of_mem : ∀ key ∈ s.entries, decides tree (path key) = true

variable {tree : Json} {s : Settings} {key : String}

/-- A key that the tree decides has a key of the settings on its path. -/
theorem Carries.exists_comparable (h : Carries tree s) (hdecides : decides tree (path key) = true) :
    ∃ other ∈ s.entries, Comparable (path other) (path key) := by
  have hne : tree ≠ .object [] := by
    rintro rfl
    cases hpath : path key with
    | nil => exact path_ne_nil key hpath
    | cons name rest =>
      rw [hpath] at hdecides
      cases hdecides
  obtain ⟨names, text, hleaf, hcomparable⟩ := exists_comparable_of_decides h.orderly hne hdecides
  have hnames : names ≠ [] := by
    rintro rfl
    rw [h.topless] at hleaf
    cases hleaf
  have hpath := path_keyBelow_empty hnames (isName_of_leafAt? h.orderly.wellNamed hleaf)
  rw [← hpath] at hleaf hcomparable
  exact ⟨_, mem_entries_iff.mpr ⟨text, h.text_of_leaf _ text hleaf⟩, hcomparable⟩

section Stack

variable {layers : List (Json × Settings)}

theorem orderly_of_carries (h : ∀ layer ∈ layers, Carries layer.1 layer.2) :
    ∀ tree ∈ layers.map Prod.fst, Orderly tree := by
  intro tree hmem
  obtain ⟨layer, hlayer, rfl⟩ := List.mem_map.mp hmem
  exact (h layer hlayer).orderly

theorem getElem?_ofLayers_iff (h : ∀ layer ∈ layers, Carries layer.1 layer.2) (key text : String) :
    (ofLayers (layers.map Prod.fst)).entries[key]? = some text ↔
      ∃ before tree after, layers.map Prod.fst = before ++ tree :: after ∧
        leafAt? tree (path key) = some text ∧
          ∀ later ∈ after, decides later (path key) = false := by
  have horderly := orderly_of_carries h
  have hlook := getElem?_ofTree (orderly_stack horderly).wellNamed key
  rw [ofLayers, hlook]
  exact leafAt?_stack horderly (path key) text

/-- What is in the outcome comes from the last layer that has the key: the layers behind it do not
decide its path, and they would if they had it. -/
theorem exists_setLast_of_ofLayers (h : ∀ layer ∈ layers, Carries layer.1 layer.2)
    {key text : String} (htext : (ofLayers (layers.map Prod.fst)).entries[key]? = some text) :
    ∃ layer behind, SetLast (layers.map Prod.snd) key text layer behind := by
  obtain ⟨before, tree, after, heq, hleaf, hafter⟩ := (getElem?_ofLayers_iff h key text).mp htext
  obtain ⟨front, rest, rfl, rfl, hrest⟩ := List.map_eq_append_iff.mp heq
  obtain ⟨⟨found, s⟩, behind, rfl, rfl, rfl⟩ := List.map_eq_cons_iff.mp hrest
  refine ⟨s, behind.map Prod.snd, ⟨front.map Prod.snd, by simp⟩, ?_, ?_⟩
  · exact (h (found, s) (by simp)).text_of_leaf key text hleaf
  · intro later hlater
    obtain ⟨⟨other, t⟩, hmem, rfl⟩ := List.mem_map.mp hlater
    have hcarries := h (other, t) (by simp [hmem])
    have hundecided := hafter other (List.mem_map_of_mem hmem)
    refine Option.eq_none_iff_forall_not_mem.mpr fun old hold => ?_
    rw [hcarries.decides_of_mem key (mem_entries_iff.mpr ⟨old, hold⟩)] at hundecided
    cases hundecided

/-- A layer without the key and without one above or below it does not decide its path. -/
theorem Carries.decides_eq_false (h : Carries tree s) (hsilent : s.entries[key]? = none)
    (hclear : ∀ other ∈ s.entries, ¬ Above other key ∧ ¬ Above key other) :
    decides tree (path key) = false := by
  rw [Bool.eq_false_iff]
  intro hdecides
  obtain ⟨other, hother, hcomparable⟩ := h.exists_comparable hdecides
  obtain ⟨hnot, hnot'⟩ := hclear other hother
  refine not_comparable_of_not_above ?_ hnot hnot' hcomparable
  rintro rfl
  obtain ⟨old, hold⟩ := mem_entries_iff.mp hother
  rw [hsilent] at hold
  cases hold

theorem ofLayers_of_setLast (h : ∀ layer ∈ layers, Carries layer.1 layer.2) {key text : String}
    {layer : Settings} {behind : List Settings}
    (hlast : SetLast (layers.map Prod.snd) key text layer behind)
    (hclear : ∀ later ∈ layer :: behind, ∀ other ∈ later.entries,
      ¬ Above other key ∧ ¬ Above key other) :
    (ofLayers (layers.map Prod.fst)).entries[key]? = some text := by
  obtain ⟨⟨before, hsplit⟩, hentry, hsilent⟩ := hlast
  obtain ⟨front, rest, rfl, rfl, hrest⟩ := List.map_eq_append_iff.mp hsplit
  obtain ⟨⟨tree, s⟩, after, rfl, rfl, rfl⟩ := List.map_eq_cons_iff.mp hrest
  have hcarries := h (tree, s) (by simp)
  refine (getElem?_ofLayers_iff h key text).mpr
    ⟨front.map Prod.fst, tree, after.map Prod.fst, by simp, ?_, ?_⟩
  · exact hcarries.leaf_of_text key text hentry fun other hother =>
      (hclear s List.mem_cons_self other hother).2
  · intro later hlater
    obtain ⟨⟨found, t⟩, hmem, rfl⟩ := List.mem_map.mp hlater
    have hbehind : t ∈ after.map Prod.snd := List.mem_map_of_mem hmem
    exact (h (found, t) (by simp [hmem])).decides_eq_false (hsilent t hbehind)
      (hclear t (List.mem_cons_of_mem _ hbehind))

/-- **Layers that are laid over each other come to what the last of them say.** -/
theorem layered_stack (h : ∀ layer ∈ layers, Carries layer.1 layer.2) :
    Layered (layers.map Prod.snd) (ofLayers (layers.map Prod.fst)) where
  of_mem _ _ htext := exists_setLast_of_ofLayers h htext
  kept _ _ _ _ hlast hclear := ofLayers_of_setLast h hlast hclear

end Stack

/-! ## Trees that carry settings -/

theorem leafAt?_stack_nil {layers : List Json} (h : ∀ tree ∈ layers, Orderly tree)
    (htop : ∀ tree ∈ layers, leafAt? tree [] = none) : leafAt? (stack layers) [] = none := by
  refine Option.eq_none_iff_forall_not_mem.mpr fun text htext => ?_
  obtain ⟨before, tree, after, rfl, hleaf, -⟩ := (leafAt?_stack h [] text).mp htext
  rw [htop tree (by simp)] at hleaf
  cases hleaf

/-- The tree of flat settings carries them. -/
theorem Flat.carries (h : s.Flat) : Carries s.flatTree s where
  orderly := h.orderly_flatTree
  topless := by
    refine leafAt?_stack_nil h.orderly_entryTree fun tree hmem => ?_
    obtain ⟨⟨key, text⟩, hentry, rfl⟩ := List.mem_map.mp hmem
    rw [leafAt?_entryTree (h.of_mem hentry), if_neg (Ne.symm (path_ne_nil key))]
  text_of_leaf key text hleaf := ((h.leafAt?_flatTree key text).mp hleaf).1
  leaf_of_text key text htext hnone := (h.leafAt?_flatTree key text).mpr ⟨htext, hnone⟩
  decides_of_mem key hkey := h.decides_flatTree hkey

/-- A tree carries the settings that are read from it. -/
theorem Orderly.carries (h : Orderly tree) (htop : leafAt? tree [] = none) :
    Carries tree (ofTree tree) where
  orderly := h
  topless := htop
  text_of_leaf key text hleaf := (getElem?_ofTree h.wellNamed key).trans hleaf
  leaf_of_text key text htext _ := (getElem?_ofTree h.wellNamed key).symm.trans htext
  decides_of_mem key hkey := by
    obtain ⟨text, htext⟩ := mem_entries_iff.mp hkey
    rw [getElem?_ofTree h.wellNamed, ← List.append_nil (path key)] at htext
    exact decides_of_leafAt?_append htext

end Settings

end ServiceHost
