import ServiceHost.Proofs.Settings.Flat
import ServiceHost.Proofs.Settings.Nested

/-!
# Below a root — what stands there, and what only starts alike

What `Settings.under` keeps is told letter by letter, and what a root is meant to hold is told
segment by segment: the key that is the root, and the keys below it. The two differ by the keys
that stray (`Strays`): **a key strays into a root that ends in the middle of one of its segments**,
as `web.httpx` does into `web.http`.

A key that is at its root or below it can be told from its relative key (`absolute_relativeKey`),
so relative keys are read back as they are listed. A stray key is listed under a relative key that
leads elsewhere, or nowhere. So all that a root is meant to be holds exactly if nothing strays into
it (`under_keepsTo_iff`).
-/

set_option autoImplicit false

namespace ServiceHost

namespace Settings

/-- The key is the root, or stands below it. Everything stands below the top, the empty root. -/
def AtOrBelow (root key : String) : Prop :=
  root = "" ∨ key = root ∨ Above root key

/-- The key starts with the root letter by letter, and yet is neither the root nor below it. -/
def Strays (root key : String) : Prop :=
  startsWith root key = true ∧ ¬ AtOrBelow root key

instance (root key : String) : Decidable (AtOrBelow root key) :=
  inferInstanceAs (Decidable (root = "" ∨ key = root ∨ Above root key))

instance (root key : String) : Decidable (Strays root key) :=
  inferInstanceAs (Decidable (startsWith root key = true ∧ ¬ AtOrBelow root key))

variable {s : Settings} {root key other path rest text : String}

/-! ## Keys that start alike -/

theorem startsWith_iff : startsWith root key = true ↔ ∃ rest, key = root ++ rest := by
  rw [startsWith, List.isPrefixOf_iff_prefix]
  constructor
  · rintro ⟨cs, hcs⟩
    exact ⟨String.ofList cs, String.toList_injective (by simp [← hcs])⟩
  · rintro ⟨rest, rfl⟩
    simp

theorem isFlat_append : IsFlat (root ++ "." ++ rest) ↔ IsFlat root ∧ IsFlat rest := by
  simp only [IsFlat, path_append, List.mem_append, or_imp, forall_and]

/-- A flat key starts with a letter, and not with a dot. -/
theorem IsFlat.exists_cons (h : IsFlat key) : ∃ c cs, key.toList = c :: cs ∧ c ≠ '.' := by
  cases hkey : key.toList with
  | nil => exact absurd (String.toList_injective hkey) h.ne_empty
  | cons c cs =>
    refine ⟨c, cs, rfl, ?_⟩
    rintro rfl
    refine h "" ?_ rfl
    simp [Settings.path, Text.segments, hkey, Text.cut]

theorem AtOrBelow.startsWith (h : AtOrBelow root key) : startsWith root key = true := by
  rw [startsWith_iff]
  rcases h with rfl | rfl | ⟨rest, rfl⟩
  · exact ⟨key, by simp⟩
  · exact ⟨"", by simp⟩
  · exact ⟨"." ++ rest, by rw [String.append_assoc]⟩

/-- **A stray key goes on with something else than a dot.** -/
theorem Strays.exists_append (h : Strays root key) :
    root ≠ "" ∧ ∃ c cs, c ≠ '.' ∧ key = root ++ String.ofList (c :: cs) := by
  obtain ⟨hstarts, hnot⟩ := h
  simp only [AtOrBelow, not_or] at hnot
  obtain ⟨hroot, hne, hbelow⟩ := hnot
  obtain ⟨rest, rfl⟩ := startsWith_iff.mp hstarts
  refine ⟨hroot, ?_⟩
  cases hrest : rest.toList with
  | nil =>
    obtain rfl : rest = "" := String.toList_injective hrest
    exact absurd (by simp) hne
  | cons c cs =>
    have heq : rest = String.ofList (c :: cs) := String.toList_injective (by simp [hrest])
    refine ⟨c, cs, ?_, by rw [heq]⟩
    rintro rfl
    refine hbelow ⟨String.ofList cs, String.toList_injective ?_⟩
    simp [heq]

/-! ## Relative keys -/

theorem relativeKey_top (key : String) : relativeKey "" key = key := by
  rw [relativeKey, if_pos rfl]

theorem relativeKey_append (hroot : root ≠ "") (rest : String) :
    relativeKey root (root ++ rest) = String.ofList (rest.toList.dropWhile (· = '.')) := by
  rw [relativeKey, if_neg hroot, if_pos (startsWith_append root rest)]
  simp

theorem relativeKey_self (hroot : root ≠ "") : relativeKey root root = "" := by
  have h := relativeKey_append hroot ""
  rw [String.append_empty] at h
  simpa using h

theorem relativeKey_below (hroot : root ≠ "") (hrest : IsFlat rest) :
    relativeKey root (root ++ "." ++ rest) = rest := by
  obtain ⟨c, cs, hcs, hc⟩ := hrest.exists_cons
  rw [String.append_assoc, relativeKey_append hroot]
  apply String.toList_injective
  simp [hcs, hc]

theorem Strays.relativeKey_ne (h : Strays root key) : relativeKey root key ≠ "" := by
  obtain ⟨hroot, c, cs, hc, rfl⟩ := h.exists_append
  rw [relativeKey_append hroot]
  intro hempty
  have := congrArg String.toList hempty
  simp [hc] at this

theorem relativeKey_eq_empty_iff (hflat : IsFlat key) (h : AtOrBelow root key) :
    relativeKey root key = "" ↔ key = root := by
  rcases h with rfl | rfl | ⟨rest, rfl⟩
  · rw [relativeKey_top]
  · by_cases hkey : key = ""
    · exact absurd hkey hflat.ne_empty
    · simp [relativeKey_self hkey]
  · obtain ⟨hroot, hrest⟩ := isFlat_append.mp hflat
    rw [relativeKey_below hroot.ne_empty hrest]
    constructor
    · exact fun hempty => absurd hempty hrest.ne_empty
    · intro heq
      have hlength := congrArg String.length heq
      simp only [String.length_append] at hlength
      have hdot : ".".length = 1 := rfl
      omega

/-- **A key that is below its root is the absolute form of its relative key.** -/
theorem absolute_relativeKey (hflat : IsFlat key) (h : AtOrBelow s.root key)
    (hne : relativeKey s.root key ≠ "") : s.absolute (relativeKey s.root key) = key := by
  rcases h with hroot | hkey | ⟨rest, hkey⟩
  · rw [absolute, if_pos hroot, hroot, relativeKey_top]
  · exact absurd ((relativeKey_eq_empty_iff hflat (Or.inr (Or.inl hkey))).mpr hkey) hne
  · rw [hkey] at hflat ⊢
    obtain ⟨hroot, hrest⟩ := isFlat_append.mp hflat
    rw [relativeKey_below hroot.ne_empty hrest, absolute, if_neg hroot.ne_empty]

/-- Two keys of one root have one relative key only if they are one key. -/
theorem eq_of_relativeKey_eq (hkey : IsFlat key) (hother : IsFlat other)
    (hk : AtOrBelow s.root key) (ho : AtOrBelow s.root other)
    (heq : relativeKey s.root key = relativeKey s.root other) : key = other := by
  by_cases hempty : relativeKey s.root key = ""
  · rw [(relativeKey_eq_empty_iff hkey hk).mp hempty,
      (relativeKey_eq_empty_iff hother ho).mp (heq ▸ hempty)]
  · rw [← absolute_relativeKey hkey hk hempty, heq,
      absolute_relativeKey hother ho (heq ▸ hempty)]

/-! ## What is listed -/

/-- All entries are at the root or below it. -/
def Covered (s : Settings) : Prop :=
  ∀ key ∈ s.entries, AtOrBelow s.root key

/-- What is listed under a relative key is what the setting of that key holds. -/
theorem Covered.getElem?_relative (hflat : s.Flat) (h : s.Covered) :
    s.relative[rest]? = some text ↔
      ∃ key, s.entries[key]? = some text ∧ relativeKey s.root key = rest := by
  show (ofList _).entries[rest]? = some text ↔ _
  rw [getElem?_ofList]
  · simp only [List.mem_map, Prod.exists, Prod.mk.injEq, mem_toList_iff]
    constructor
    · rintro ⟨key, value, hvalue, hkey, rfl⟩
      exact ⟨key, hvalue, hkey⟩
    · rintro ⟨key, hvalue, hkey⟩
      exact ⟨key, text, hvalue, hkey, rfl⟩
  · intro rest one other hone hother
    simp only [List.mem_map, Prod.exists, Prod.mk.injEq, mem_toList_iff] at hone hother
    obtain ⟨key, value, hvalue, hkey, rfl⟩ := hone
    obtain ⟨key', value', hvalue', hkey', rfl⟩ := hother
    have hmem := mem_entries_iff.mpr ⟨_, hvalue⟩
    have hmem' := mem_entries_iff.mpr ⟨_, hvalue'⟩
    obtain rfl := eq_of_relativeKey_eq (hflat _ hmem) (hflat _ hmem') (h _ hmem) (h _ hmem')
      (hkey.trans hkey'.symm)
    exact Option.some.inj (hvalue.symm.trans hvalue')

/-- No two settings share a relative key. -/
theorem Covered.size_relative (hflat : s.Flat) (h : s.Covered) :
    s.relative.size = s.entries.size := by
  rw [relative, Std.TreeMap.size_ofList, List.length_map, Std.TreeMap.length_toList]
  rw [List.pairwise_map]
  refine Std.TreeMap.distinct_keys_toList.imp_of_mem ?_
  intro one other hone hother hne heq
  have hmem := mem_entries_iff.mpr ⟨_, mem_toList_iff.mp hone⟩
  have hmem' := mem_entries_iff.mpr ⟨_, mem_toList_iff.mp hother⟩
  rw [Std.LawfulEqCmp.compare_eq_iff_eq] at hne heq
  exact hne (eq_of_relativeKey_eq (hflat _ hmem) (hflat _ hmem') (h _ hmem) (h _ hmem') heq)

/-! ## Settings below a root -/

theorem getElem?_under (s : Settings) (path key : String) :
    (s.under path).entries[key]? = some text ↔
      s.entries[key]? = some text ∧ startsWith (s.absolute path) key = true := by
  rw [under, Std.TreeMap.getElem?_filter', Option.filter_eq_some_iff]

theorem mem_under : key ∈ (s.under path).entries ↔
    key ∈ s.entries ∧ startsWith (s.absolute path) key = true := by
  simp only [mem_entries_iff, getElem?_under, exists_and_right]

theorem Flat.under (h : s.Flat) (path : String) : (s.under path).Flat :=
  fun key hkey => h key (mem_under.mp hkey).1

/-- A root is a leaf exactly if it is a key, and no other key is among the entries. -/
theorem isLeaf_iff : s.isLeaf = true ↔ s.root ∈ s.entries ∧ ∀ key ∈ s.entries, key = s.root := by
  rw [isLeaf, Bool.and_eq_true, decide_eq_true_iff, Std.TreeMap.contains_iff_mem, and_comm]
  refine and_congr_right fun hroot => ?_
  simp only [← Std.TreeMap.mem_keys, ← Std.TreeMap.length_keys] at hroot ⊢
  constructor
  · intro hone key hkey
    obtain ⟨only, honly⟩ := List.length_eq_one_iff.mp hone
    rw [honly, List.mem_singleton] at hkey hroot
    rw [hkey, hroot]
  · intro hall
    have hkeys : s.entries.keys = [s.root] :=
      (List.perm_singleton.mp ((List.perm_ext_iff_of_nodup Std.TreeMap.nodup_keys
        (by simp)).mpr fun key => by
          rw [List.mem_singleton]
          exact ⟨hall key, fun heq => heq ▸ hroot⟩))
    rw [hkeys]
    rfl

/-- What settings seen from `path` are meant to be. -/
structure KeepsTo (s : Settings) (path : String) : Prop where
  /-- The entries are those of the path itself and of the keys below it. -/
  entries_iff : ∀ key text, (s.under path).entries[key]? = some text ↔
    s.entries[key]? = some text ∧ (key = path ∨ Above path key)
  /-- Under a relative key that is listed there is a setting, with the text it is listed with. -/
  reads : ∀ key text, key ≠ "" → (s.under path).relative[key]? = some text →
    (s.under path).has key = true ∧ (s.under path).text key = .ok text
  /-- There are as many relative keys as entries. -/
  size_relative : (s.under path).relative.size = (s.under path).entries.size
  /-- It is a leaf exactly if the path is a key and no key stands below it. -/
  isLeaf_iff : (s.under path).isLeaf = true ↔
    path ∈ s.entries ∧ ∀ key ∈ s.entries, ¬ Above path key

theorem atOrBelow_iff (hpath : IsFlat path) :
    AtOrBelow path key ↔ key = path ∨ Above path key :=
  or_iff_right hpath.ne_empty

theorem absolute_of_root (hroot : s.root = "") (key : String) : s.absolute key = key := by
  rw [absolute, if_pos hroot]

theorem covered_under_iff (hroot : s.root = "") :
    (s.under path).Covered ↔ ∀ key ∈ s.entries, ¬ Strays path key := by
  simp only [Covered, mem_under, absolute_of_root hroot, Strays, not_and, not_not, and_imp]
  rw [show (s.under path).root = path from absolute_of_root hroot path]

/-- Where nothing strays into a path, the settings seen from it are all that they are meant to be. -/
theorem keepsTo_of_covered (hroot : s.root = "") (hflat : s.Flat) (hpath : IsFlat path)
    (h : (s.under path).Covered) : s.KeepsTo path := by
  have habsolute : s.absolute path = path := absolute_of_root hroot path
  have hentries : ∀ key text, (s.under path).entries[key]? = some text ↔
      s.entries[key]? = some text ∧ (key = path ∨ Above path key) := by
    intro key text
    rw [getElem?_under, habsolute, ← atOrBelow_iff hpath]
    refine and_congr_right fun hentry => ⟨fun hstarts => ?_, AtOrBelow.startsWith⟩
    have hmem : key ∈ (s.under path).entries :=
      mem_under.mpr ⟨mem_entries_iff.mpr ⟨text, hentry⟩, habsolute.symm ▸ hstarts⟩
    exact habsolute ▸ h key hmem
  refine ⟨hentries, ?_, h.size_relative (hflat.under path), ?_⟩
  · intro key text hne hlisted
    obtain ⟨found, hfound, rfl⟩ := (h.getElem?_relative (hflat.under path)).mp hlisted
    have hmem := mem_entries_iff.mpr ⟨text, hfound⟩
    have htext : (s.under path).text? (relativeKey (s.under path).root found) = some text := by
      rw [text?, absolute_relativeKey (hflat.under path found hmem) (h found hmem) hne]
      exact hfound
    rw [has, Settings.text, htext]
    exact ⟨rfl, rfl⟩
  · rw [isLeaf_iff, show (s.under path).root = path from habsolute]
    simp only [mem_entries_iff, hentries]
    constructor
    · rintro ⟨⟨text, htext, -⟩, hall⟩
      refine ⟨⟨text, htext⟩, ?_⟩
      rintro key ⟨below, hbelow⟩ habove
      exact absurd (hall key ⟨below, hbelow, Or.inr habove⟩) (ne_of_gt habove.lt)
    · rintro ⟨⟨text, htext⟩, hnone⟩
      refine ⟨⟨text, htext, by simp⟩, ?_⟩
      rintro key ⟨below, hbelow, hkey | habove⟩
      · exact hkey
      · exact absurd habove (hnone key ⟨below, hbelow⟩)

/-- **What settings seen from a path are.** They hold what starts with the path letter by letter,
and they are a leaf if that is the path alone. So they are all that they are meant to be exactly if
no key strays into the path. -/
theorem under_keepsTo_iff (hroot : s.root = "") (hflat : s.Flat) (hpath : IsFlat path) :
    (∀ key text, (s.under path).entries[key]? = some text ↔
      s.entries[key]? = some text ∧ startsWith path key = true) ∧
    ((s.under path).isLeaf = true ↔
      path ∈ s.entries ∧ ∀ key ∈ s.entries, startsWith path key = true → key = path) ∧
    (s.KeepsTo path ↔ ∀ key ∈ s.entries, ¬ Strays path key) := by
  have habsolute : s.absolute path = path := absolute_of_root hroot path
  have hentries : ∀ key text, (s.under path).entries[key]? = some text ↔
      s.entries[key]? = some text ∧ startsWith path key = true := by
    intro key text
    rw [getElem?_under, habsolute]
  refine ⟨hentries, ?_, ?_, ?_⟩
  · have hself : startsWith path path = true :=
      AtOrBelow.startsWith (Or.inr (Or.inl rfl))
    rw [isLeaf_iff, show (s.under path).root = path from habsolute]
    simp only [mem_under, habsolute, hself, and_true, and_imp]
  · rintro hkeeps key hkey ⟨hstarts, hnot⟩
    obtain ⟨text, htext⟩ := mem_entries_iff.mp hkey
    have hfound := (hentries key text).mpr ⟨htext, hstarts⟩
    exact hnot ((atOrBelow_iff hpath).mpr ((hkeeps.entries_iff key text).mp hfound).2)
  · intro hnone
    exact keepsTo_of_covered hroot hflat hpath ((covered_under_iff hroot).mpr hnone)

theorem keepsTo_listeners : listeners.root = "" ∧ listeners.Flat ∧ IsFlat "web" ∧
    listeners.KeepsTo "web" := by
  have hflat : listeners.Flat := by decide
  have hpath : IsFlat "web" := by decide
  exact ⟨rfl, hflat, hpath, (under_keepsTo_iff rfl hflat hpath).2.2.mpr (by decide)⟩

/-- **A key strays into a path that it only starts like.** It is listed there, and under the
relative key that it is listed with there is no setting. -/
theorem strayed_httpx : listeners.root = "" ∧ listeners.Flat ∧ IsFlat "web.http" ∧
    ¬ listeners.KeepsTo "web.http" ∧
    (listeners.under "web.http").entries["web.httpx.port"]? = some "none" ∧
    ¬ ("web.httpx.port" = "web.http" ∨ Above "web.http" "web.httpx.port") ∧
    (listeners.under "web.http").relative["x.port"]? = some "none" ∧
    (listeners.under "web.http").has "x.port" = false := by
  have hentry : (listeners.under "web.http").entries["web.httpx.port"]? = some "none" := by
    decide +kernel
  have hnot : ¬ ("web.httpx.port" = "web.http" ∨ Above "web.http" "web.httpx.port") := by decide
  refine ⟨rfl, by decide, by decide, ?_, hentry, hnot, by decide +kernel, by decide +kernel⟩
  exact fun hkeeps => hnot ((hkeeps.entries_iff _ _).mp hentry).2

end Settings

end ServiceHost
