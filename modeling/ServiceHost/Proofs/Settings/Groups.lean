import ServiceHost.Proofs.Settings.Below
import Mathlib.Data.List.Nodup
import Mathlib.Data.List.TakeWhile

/-!
# Groups — settings divided by the first segment of their keys

The groups of some settings are named by the first segments of their relative keys, and each group
is looked up again below the root, letter by letter. Two things can go wrong, and each of them does
wherever it can. **A key that strays into the root is in no group**, since no group starts like it.
And **a group also holds what only starts with its name**: `http` the settings of `https`, and the
group without a name, which a setting at the root makes, every setting that there is.

Where neither happens (`Separable`) the groups divide the settings, and they do so only there
(`groups_divide_iff`).
-/

set_option autoImplicit false

namespace ServiceHost

namespace Settings

variable {s t : Settings} {root key other name path rest text : String}

/-! ## First segments -/

theorem toList_firstSegment (key : String) :
    (firstSegment key).toList = key.toList.takeWhile (· ≠ '.') := by
  rw [firstSegment, String.toList_ofList, Text.cutOnce_fst]

theorem not_mem_firstSegment (key : String) : '.' ∉ (firstSegment key).toList := by
  rw [toList_firstSegment]
  intro hmem
  simpa using List.mem_takeWhile_imp hmem

/-- A text without a dot that a key starts with ends in its first segment. -/
theorem startsWith_firstSegment_iff (hname : '.' ∉ name.toList) :
    startsWith name (firstSegment key) = true ↔ startsWith name key = true := by
  simp only [startsWith, List.isPrefixOf_iff_prefix, toList_firstSegment]
  constructor
  · exact fun h => h.trans (List.takeWhile_prefix _)
  · rintro ⟨cs, hcs⟩
    rw [← hcs, List.takeWhile_append_of_pos]
    · exact List.prefix_append _ _
    · intro c hc
      simpa using ne_of_mem_of_not_mem hc hname

theorem startsWith_empty_iff : startsWith name "" = true ↔ name = "" := by
  rw [startsWith, List.isPrefixOf_iff_prefix, String.toList_empty, List.prefix_nil,
    String.toList_eq_nil_iff]

/-! ## The groups -/

/-- The first segment of a key as it is seen from the root. -/
def groupOf (s : Settings) (key : String) : String :=
  firstSegment (relativeKey s.root key)

/-- There is a group of each first segment, and no other. -/
theorem mem_groupNames : name ∈ t.groupNames ↔ ∃ key ∈ t.entries, t.groupOf key = name := by
  have hmem : ∀ key value, (key, value) ∈ t.entries.toList → key ∈ t.entries :=
    fun key value h => mem_entries_iff.mpr ⟨value, mem_toList_iff.mp h⟩
  have hrelative : ∀ rest, rest ∈ t.relative ↔ ∃ key ∈ t.entries, relativeKey t.root key = rest := by
    intro rest
    rw [relative, Std.TreeMap.mem_ofList, List.contains_iff_mem, List.map_map, List.mem_map]
    constructor
    · rintro ⟨⟨key, value⟩, hentry, rfl⟩
      exact ⟨key, hmem key value hentry, rfl⟩
    · rintro ⟨key, hkey, rfl⟩
      obtain ⟨value, hvalue⟩ := mem_entries_iff.mp hkey
      exact ⟨(key, value), mem_toList_iff.mpr hvalue, rfl⟩
  rw [groupNames, Std.TreeMap.mem_keys, Std.TreeMap.mem_ofList, List.contains_iff_mem,
    List.map_map, List.mem_map]
  constructor
  · rintro ⟨⟨rest, value⟩, hentry, rfl⟩
    have hrest : rest ∈ t.relative :=
      Std.TreeMap.mem_keys.mp (Std.TreeMap.map_fst_toList_eq_keys ▸ List.mem_map_of_mem hentry)
    obtain ⟨key, hkey, rfl⟩ := (hrelative rest).mp hrest
    exact ⟨key, hkey, rfl⟩
  · rintro ⟨key, hkey, rfl⟩
    have hrest := Std.TreeMap.mem_keys.mpr ((hrelative _).mpr ⟨key, hkey, rfl⟩)
    rw [← Std.TreeMap.map_fst_toList_eq_keys] at hrest
    obtain ⟨entry, hentry, heq⟩ := List.mem_map.mp hrest
    exact ⟨entry, hentry, congrArg firstSegment heq⟩

theorem not_mem_of_mem_groupNames (h : name ∈ t.groupNames) : '.' ∉ name.toList := by
  obtain ⟨key, -, rfl⟩ := mem_groupNames.mp h
  exact not_mem_firstSegment _

theorem mem_groups : s ∈ t.groups ↔ ∃ name ∈ t.groupNames, s = t.under name := by
  simp only [groups, List.mem_map, eq_comm]

/-- A group is seen from its name. -/
theorem node_under (hname : '.' ∉ name.toList) : (t.under name).node = name := by
  have hpath : path name = [name] := by
    rw [Settings.path, Text.segments, Text.cut_of_not_mem hname]
    simp
  have hroot : (Settings.path (t.absolute name)).getLast? = some name := by
    unfold absolute
    split
    · rw [hpath]
      rfl
    · rw [path_append, hpath]
      simp
  show (Settings.path (t.absolute name)).getLast?.getD "" = name
  rw [hroot]
  rfl

theorem absolute_injective (t : Settings) : Function.Injective t.absolute := by
  intro one other heq
  unfold absolute at heq
  split at heq
  · exact heq
  · have := congrArg String.toList heq
    exact String.toList_injective (by simpa using this)

/-- **Groups have different roots.** -/
theorem nodup_roots (t : Settings) : (t.groups.map Settings.root).Nodup := by
  have hroots : t.groups.map Settings.root = t.groupNames.map t.absolute := by
    rw [groups, List.map_map]
    rfl
  rw [hroots]
  exact Std.TreeMap.nodup_keys.map (absolute_injective t)

/-! ## Which entries a group holds -/

theorem startsWith_absolute_iff :
    startsWith (t.absolute name) (t.absolute rest) = true ↔ startsWith name rest = true := by
  unfold absolute
  split
  · rfl
  · simp only [startsWith, List.isPrefixOf_iff_prefix, String.toList_append,
      List.prefix_append_right_inj]

/-- A key starts with the root of a group if it strays into it, or if its own group starts with
the name of that one. -/
theorem startsWith_group_iff (hflat : IsFlat key) (hat : AtOrBelow t.root key)
    (hname : '.' ∉ name.toList) (hkey : key ≠ t.root) :
    startsWith (t.absolute name) key = true ↔ startsWith name (t.groupOf key) = true := by
  have hne : relativeKey t.root key ≠ "" :=
    fun hempty => hkey ((relativeKey_eq_empty_iff hflat hat).mp hempty)
  conv_lhs => rw [← absolute_relativeKey hflat hat hne]
  rw [startsWith_absolute_iff, groupOf, startsWith_firstSegment_iff hname]

/-- No key of a group is the root that the groups are seen from. -/
theorem ne_root_of_startsWith (hflat : IsFlat key)
    (h : startsWith (t.absolute name) key = true) : key ≠ t.root := by
  rintro rfl
  obtain ⟨rest, hrest⟩ := startsWith_iff.mp h
  rw [absolute, if_neg hflat.ne_empty] at hrest
  have hlength := congrArg String.length hrest
  simp only [String.length_append] at hlength
  have hdot : ".".length = 1 := rfl
  omega

/-- **A key that strays into the root is in no group.** -/
theorem Strays.not_startsWith_absolute (h : Strays t.root key) (name : String) :
    startsWith (t.absolute name) key = false := by
  obtain ⟨hroot, c, cs, hc, rfl⟩ := h.exists_append
  rw [Bool.eq_false_iff]
  intro hstarts
  obtain ⟨rest, hrest⟩ := startsWith_iff.mp hstarts
  rw [absolute, if_neg hroot] at hrest
  have := congrArg String.toList hrest
  simp [hc] at this

/-! ## Dividing -/

/-- The groups divide the settings. -/
structure Divided (t : Settings) : Prop where
  /-- A setting below the root is in one group, the one of its first segment. -/
  in_one : ∀ key text, t.entries[key]? = some text → relativeKey t.root key ≠ "" →
    ∃ group ∈ t.groups, group.node = t.groupOf key ∧ group.entries[key]? = some text ∧
      ∀ other ∈ t.groups, key ∈ other.entries → other = group
  /-- No group holds a setting of another first segment. -/
  unmixed : ∀ group ∈ t.groups, ∀ key ∈ group.entries, t.groupOf key = group.node
  roots_nodup : (t.groups.map Settings.root).Nodup

/-- Nothing strays into the root, and no first segment only starts with another one. -/
structure Separable (t : Settings) : Prop where
  covered : t.Covered
  apart : ∀ key ∈ t.entries, ∀ other ∈ t.entries,
    startsWith (t.groupOf key) (t.groupOf other) = true → t.groupOf key = t.groupOf other

instance : Decidable t.Separable :=
  decidable_of_iff ((∀ key ∈ t.entries, AtOrBelow t.root key) ∧
      ∀ key ∈ t.entries, ∀ other ∈ t.entries,
        startsWith (t.groupOf key) (t.groupOf other) = true → t.groupOf key = t.groupOf other)
    ⟨fun h => ⟨h.1, h.2⟩, fun h => ⟨h.covered, h.apart⟩⟩

theorem Separable.groupOf_eq (hflat : t.Flat) (h : t.Separable) (hname : name ∈ t.groupNames)
    (hkey : key ∈ (t.under name).entries) : t.groupOf key = name := by
  obtain ⟨hmem, hstarts⟩ := mem_under.mp hkey
  have hin := (startsWith_group_iff (hflat key hmem) (h.covered key hmem)
    (not_mem_of_mem_groupNames hname) (ne_root_of_startsWith (hflat key hmem) hstarts)).mp hstarts
  obtain ⟨first, hfirst, rfl⟩ := mem_groupNames.mp hname
  exact (h.apart first hfirst key hmem hin).symm

theorem Separable.divided (hflat : t.Flat) (h : t.Separable) : t.Divided := by
  refine ⟨?_, ?_, nodup_roots t⟩
  · intro key text htext hne
    have hmem := mem_entries_iff.mpr ⟨text, htext⟩
    have hname : t.groupOf key ∈ t.groupNames := mem_groupNames.mpr ⟨key, hmem, rfl⟩
    have hkey : key ≠ t.root := fun heq =>
      hne ((relativeKey_eq_empty_iff (hflat key hmem) (h.covered key hmem)).mpr heq)
    have hstarts := (startsWith_group_iff (hflat key hmem) (h.covered key hmem)
      (not_mem_of_mem_groupNames hname) hkey).mpr (AtOrBelow.startsWith (Or.inr (Or.inl rfl)))
    refine ⟨t.under (t.groupOf key), mem_groups.mpr ⟨_, hname, rfl⟩,
      node_under (not_mem_of_mem_groupNames hname), (getElem?_under _ _ _).mpr ⟨htext, hstarts⟩, ?_⟩
    intro other hother hin
    obtain ⟨name, hname', rfl⟩ := mem_groups.mp hother
    rw [h.groupOf_eq hflat hname' hin]
  · intro group hgroup key hkey
    obtain ⟨name, hname, rfl⟩ := mem_groups.mp hgroup
    rw [node_under (not_mem_of_mem_groupNames hname), h.groupOf_eq hflat hname hkey]

theorem Divided.covered (hstarts : ∀ key ∈ t.entries, startsWith t.root key = true)
    (h : t.Divided) : t.Covered := by
  intro key hmem
  by_contra hnot
  have hstrays : Strays t.root key := ⟨hstarts key hmem, hnot⟩
  obtain ⟨text, htext⟩ := mem_entries_iff.mp hmem
  obtain ⟨group, hgroup, -, hin, -⟩ := h.in_one key text htext hstrays.relativeKey_ne
  obtain ⟨name, -, rfl⟩ := mem_groups.mp hgroup
  have hfound := ((getElem?_under _ _ _).mp hin).2
  rw [hstrays.not_startsWith_absolute] at hfound
  cases hfound

theorem Divided.separable (hflat : t.Flat)
    (hstarts : ∀ key ∈ t.entries, startsWith t.root key = true) (h : t.Divided) :
    t.Separable := by
  have hcovered := h.covered hstarts
  refine ⟨hcovered, ?_⟩
  intro key hkey other hother hfront
  have hname : t.groupOf key ∈ t.groupNames := mem_groupNames.mpr ⟨key, hkey, rfl⟩
  have hdot := not_mem_of_mem_groupNames hname
  by_cases hroot : other = t.root
  -- A setting at the root has no first segment, so only the name of its own group starts it.
  · have hempty := (relativeKey_eq_empty_iff (hflat other hother) (hcovered other hother)).mpr hroot
    have hnone : t.groupOf other = "" := by
      rw [groupOf, hempty]
      rfl
    rw [hnone] at hfront ⊢
    exact startsWith_empty_iff.mp hfront
  · have hin := (startsWith_group_iff (hflat other hother) (hcovered other hother) hdot
      hroot).mpr hfront
    have hmixed := h.unmixed _ (mem_groups.mpr ⟨_, hname, rfl⟩) other (mem_under.mpr ⟨hother, hin⟩)
    rw [hmixed, node_under hdot]

/-- **Groups divide the settings exactly if nothing strays and no first segment only starts with
another one.** They have different roots in any case, each is seen from the name of a first
segment, and it holds what starts with its root letter by letter. -/
theorem groups_divide_iff (hroot : s.root = "") (hflat : s.Flat)
    (ht : t = s ∨ ∃ path, IsFlat path ∧ t = s.under path) :
    (t.groups.map Settings.root).Nodup ∧
    (∀ group ∈ t.groups, ∃ key ∈ t.entries, group.node = t.groupOf key ∧
      group.root = t.absolute (t.groupOf key) ∧
      ∀ key text, group.entries[key]? = some text ↔
        t.entries[key]? = some text ∧ startsWith group.root key = true) ∧
    (t.Divided ↔ t.Separable) := by
  have hflat' : t.Flat := by
    rcases ht with rfl | ⟨path, -, rfl⟩
    · exact hflat
    · exact hflat.under path
  have hstarts : ∀ key ∈ t.entries, startsWith t.root key = true := by
    rcases ht with rfl | ⟨path, -, rfl⟩
    · exact fun key _ => AtOrBelow.startsWith (Or.inl hroot)
    · exact fun key hkey => (mem_under.mp hkey).2
  refine ⟨nodup_roots t, ?_, Divided.separable hflat' hstarts, Separable.divided hflat'⟩
  intro group hgroup
  obtain ⟨name, hname, rfl⟩ := mem_groups.mp hgroup
  obtain ⟨key, hkey, rfl⟩ := mem_groupNames.mp hname
  exact ⟨key, hkey, node_under (not_mem_of_mem_groupNames hname), rfl,
    fun key text => getElem?_under t _ key⟩

/-- Settings of two groups whose names have nothing in common. -/
def ports : Settings :=
  ofList [("web.http.path", "/api"), ("web.http.port", "8181"), ("web.ids.port", "8282")]

theorem divided_ports : ports.root = "" ∧ ports.Flat ∧ IsFlat "web" ∧
    (ports.under "web").groups.map node = ["http", "ids"] ∧ (ports.under "web").Divided := by
  have hflat : ports.Flat := by decide
  have hpath : IsFlat "web" := by decide
  obtain ⟨-, -, hdivided⟩ :=
    groups_divide_iff (t := ports.under "web") rfl hflat (Or.inr ⟨"web", hpath, rfl⟩)
  exact ⟨rfl, hflat, hpath, by decide +kernel, hdivided.mpr (by decide +kernel)⟩

/-- **A group also holds what only starts with its name**: the settings of `httpx` are in two
groups. -/
theorem undivided_httpx : listeners.root = "" ∧ listeners.Flat ∧ IsFlat "web" ∧
    ¬ (listeners.under "web").Divided ∧
    (listeners.under "web").groups.map (fun group => (group.node, group.entries.toList)) =
      [("http", [("web.http", "on"), ("web.http.port", " 8181 "), ("web.httpx.port", "none")]),
        ("httpx", [("web.httpx.port", "none")])] := by
  have hgroups : (listeners.under "web").groups.map
      (fun group => (group.node, group.entries.toList)) =
      [("http", [("web.http", "on"), ("web.http.port", " 8181 "), ("web.httpx.port", "none")]),
        ("httpx", [("web.httpx.port", "none")])] := by decide +kernel
  refine ⟨rfl, by decide, by decide, ?_, hgroups⟩
  intro hdivided
  have hname : "http" ∈ (listeners.under "web").groupNames := by decide +kernel
  have hmixed := hdivided.unmixed _ (mem_groups.mpr ⟨_, hname, rfl⟩) "web.httpx.port"
    (by decide +kernel)
  exact absurd hmixed (by decide +kernel)

end Settings

end ServiceHost
