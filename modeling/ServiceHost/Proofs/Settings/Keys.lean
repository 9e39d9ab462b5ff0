import ServiceHost.Settings.Tree
import Mathlib.Data.List.Basic

/-!
# Keys and paths — a dotted key is the path of its segments

A key leads through a tree of settings by its segments (`path`). Cutting and joining undo each
other, so **two keys with one path are one key**, and one key stands above another, dot by dot,
exactly if its path is a proper front of the other's (`above_iff`). A key is flat if none of its
segments is empty; then every segment is a name that a tree can hold it under (`IsName`).
-/

set_option autoImplicit false

namespace ServiceHost

namespace Text

theorem cut_append (separator : Char) (before after : List Char) :
    cut separator (before ++ separator :: after) = cut separator before ++ cut separator after := by
  induction before with
  | nil => simp [cut]
  | cons c rest ih =>
    rw [List.cons_append, cut, cut, ih]
    by_cases hc : c = separator
    · rw [if_pos hc, if_pos hc]
      rfl
    · rw [if_neg hc, if_neg hc]
      cases hcut : cut separator rest with
      | nil => exact absurd hcut (cut_ne_nil separator rest)
      | cons segment segments => rfl

theorem cut_of_not_mem {separator : Char} {cs : List Char} (h : separator ∉ cs) :
    cut separator cs = [cs] := by
  induction cs with
  | nil => rfl
  | cons c rest ih =>
    rw [List.mem_cons, not_or] at h
    rw [cut, if_neg (Ne.symm h.1), ih h.2]

theorem joinWith_append (separator : List Char) {before after : List (List Char)}
    (hbefore : before ≠ []) (hafter : after ≠ []) :
    joinWith separator (before ++ after) =
      joinWith separator before ++ separator ++ joinWith separator after := by
  induction before with
  | nil => exact absurd rfl hbefore
  | cons segment rest ih =>
    cases rest with
    | nil =>
      cases after with
      | nil => exact absurd rfl hafter
      | cons next others => rfl
    | cons second others =>
      have hjoin := ih (List.cons_ne_nil second others)
      show segment ++ separator ++ joinWith separator (second :: others ++ after) =
        segment ++ separator ++ joinWith separator (second :: others) ++ separator ++ _
      rw [hjoin]
      simp only [List.append_assoc]

end Text

namespace Settings

/-- The names that lead to the setting of a key. -/
def path (key : String) : List String :=
  Text.segments '.' key

/-- One key is the other one's front up to a dot. -/
def Above (upper lower : String) : Prop :=
  ∃ rest, lower = upper ++ "." ++ rest

/-- A segment that a tree can hold a member under. -/
def IsName (segment : String) : Prop :=
  segment ≠ "" ∧ '.' ∉ segment.toList

/-- A key whose segments are all names. The empty key has one segment, the empty one. -/
def IsFlat (key : String) : Prop :=
  ∀ segment ∈ path key, segment ≠ ""

instance : DecidablePred IsFlat := fun key =>
  inferInstanceAs (Decidable (∀ segment ∈ path key, segment ≠ ""))

variable {key upper lower segment : String}

theorem path_ne_nil (key : String) : path key ≠ [] := by
  intro h
  exact Text.cut_ne_nil '.' key.toList (List.map_eq_nil_iff.mp h)

theorem map_toList_path (key : String) :
    (path key).map String.toList = Text.cut '.' key.toList := by
  simp [path, Text.segments]

theorem eq_of_path_eq (h : path upper = path lower) : upper = lower := by
  have hcut : Text.cut '.' upper.toList = Text.cut '.' lower.toList := by
    rw [← map_toList_path, ← map_toList_path, h]
  have hchars : upper.toList = lower.toList := by
    rw [← Text.joinWith_cut '.' upper.toList, hcut, Text.joinWith_cut]
  exact String.toList_injective hchars

theorem path_append (upper rest : String) :
    path (upper ++ "." ++ rest) = path upper ++ path rest := by
  have hchars : (upper ++ "." ++ rest).toList = upper.toList ++ '.' :: rest.toList := by simp
  rw [path, Text.segments, hchars, Text.cut_append, List.map_append]
  rfl

theorem path_of_isName (h : IsName segment) : path segment = [segment] := by
  rw [path, Text.segments, Text.cut_of_not_mem h.2]
  simp

theorem isName_of_mem_path (hflat : IsFlat key) (h : segment ∈ path key) : IsName segment := by
  refine ⟨hflat segment h, ?_⟩
  have hmem : segment.toList ∈ Text.cut '.' key.toList := by
    rw [← map_toList_path]
    exact List.mem_map_of_mem h
  exact Text.not_mem_of_mem_cut hmem

theorem IsFlat.ne_empty (hflat : IsFlat key) : key ≠ "" := by
  rintro rfl
  exact hflat "" (by decide) rfl

/-- **Above means a proper front of the path.** -/
theorem above_iff : Above upper lower ↔ path upper <+: path lower ∧ path upper ≠ path lower := by
  constructor
  · rintro ⟨rest, rfl⟩
    rw [path_append]
    exact ⟨List.prefix_append _ _, fun h => path_ne_nil rest (List.self_eq_append_right.mp h)⟩
  · rintro ⟨⟨more, hmore⟩, hne⟩
    have hnonempty : more ≠ [] := by
      rintro rfl
      exact hne (by rw [← hmore, List.append_nil])
    have hcut : Text.cut '.' lower.toList =
        Text.cut '.' upper.toList ++ more.map String.toList := by
      rw [← map_toList_path, ← map_toList_path, ← hmore, List.map_append]
    refine ⟨String.ofList (Text.joinWith ['.'] (more.map String.toList)), ?_⟩
    apply String.toList_injective
    have hjoin := Text.joinWith_cut '.' lower.toList
    rw [hcut, Text.joinWith_append _ (Text.cut_ne_nil _ _) (by simpa using hnonempty),
      Text.joinWith_cut] at hjoin
    simp [← hjoin]

instance (upper lower : String) : Decidable (Above upper lower) :=
  decidable_of_iff _ above_iff.symm

/-- Either path is a front of the other. -/
def Comparable (one other : List String) : Prop :=
  one <+: other ∨ other <+: one

theorem comparable_cons {one other : List String} {name : String} :
    Comparable (name :: one) (name :: other) ↔ Comparable one other :=
  or_congr (List.prefix_cons_inj name) (List.prefix_cons_inj name)

theorem not_comparable_of_not_above (hne : upper ≠ lower) (hnot : ¬ Above upper lower)
    (hnot' : ¬ Above lower upper) : ¬ Comparable (path upper) (path lower) := by
  have hpath : path upper ≠ path lower := fun h => hne (eq_of_path_eq h)
  rintro (h | h)
  · exact hnot (above_iff.mpr ⟨h, hpath⟩)
  · exact hnot' (above_iff.mpr ⟨h, hpath.symm⟩)

/-! ## Paths spelled as keys -/

/-- The key of a path below another key. -/
def keyBelow (key : String) (names : List String) : String :=
  names.foldl memberPath key

theorem memberPath_ne_empty (key : String) (h : IsName segment) : memberPath key segment ≠ "" := by
  unfold memberPath
  split
  · exact h.1
  · intro hempty
    have := congrArg String.toList hempty
    simp at this

theorem path_keyBelow {names : List String} (hkey : key ≠ "")
    (hnames : ∀ name ∈ names, IsName name) : path (keyBelow key names) = path key ++ names := by
  induction names generalizing key with
  | nil => exact (List.append_nil _).symm
  | cons name rest ih =>
    obtain ⟨hname, hrest⟩ := List.forall_mem_cons.mp hnames
    show path (keyBelow (memberPath key name) rest) = _
    rw [ih (memberPath_ne_empty key hname) hrest, memberPath, if_neg hkey, path_append,
      path_of_isName hname, List.append_assoc]
    rfl

/-- The key of a path of names leads along that path. -/
theorem path_keyBelow_empty {names : List String} (hne : names ≠ [])
    (hnames : ∀ name ∈ names, IsName name) : path (keyBelow "" names) = names := by
  cases names with
  | nil => exact absurd rfl hne
  | cons name rest =>
    obtain ⟨hname, hrest⟩ := List.forall_mem_cons.mp hnames
    show path (keyBelow (memberPath "" name) rest) = _
    rw [path_keyBelow (memberPath_ne_empty "" hname) hrest, memberPath, if_pos rfl,
      path_of_isName hname]
    rfl

/-- The path of a flat key leads back to it. -/
theorem keyBelow_path (hflat : IsFlat key) : keyBelow "" (path key) = key :=
  eq_of_path_eq (path_keyBelow_empty (path_ne_nil key) fun _ h => isName_of_mem_path hflat h)

end Settings

end ServiceHost
