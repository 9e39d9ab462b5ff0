import ServiceHost.Proofs.Settings.Leaves
import Mathlib.Data.List.Induction
import Mathlib.Data.String.Basic

/-!
# Trees laid over each other — who decides what stands at a path

A tree that is laid over another **decides** a path if it has something there, or a leaf on the way
to it (`decides`); everything else is left to the tree below. So of a stack of trees the last one
that decides a path tells what stands there, whatever the ones below it say (`leafAt?_stack`).
-/

set_option autoImplicit false

namespace ServiceHost

namespace Settings

/-- The tree has something where the names lead, or a leaf on the way. -/
def decides : Json → (names : List String) → Bool
  | .object members, name :: rest =>
    (Json.find? members name).any fun value => decides value rest
  | _, _ => true

variable {earlier later tree value : Json} {members : List (String × Json)} {name text : String}
  {names : List String}

theorem IsLeaf.overlay_eq (h : IsLeaf later) (earlier : Json) : overlay earlier later = later := by
  cases later with
  | object members => exact h.elim
  | _ => rfl

/-- A leaf gives way to an object as a whole. -/
theorem IsLeaf.overlay_object (h : IsLeaf earlier) (members : List (String × Json)) :
    overlay earlier (.object members) = .object members := by
  cases earlier with
  | object old => exact h.elim
  | _ => rfl

theorem IsLeaf.decides (h : IsLeaf value) (names : List String) : decides value names = true := by
  cases value with
  | object members => exact h.elim
  | _ => cases names <;> rfl

/-- What is not decided is not there. -/
theorem leafAt?_of_not_decides (h : decides tree names = false) : leafAt? tree names = none := by
  induction names generalizing tree with
  | nil => cases tree <;> cases h
  | cons name rest ih =>
    rcases isLeaf_or_object tree with hleaf | ⟨members, rfl⟩
    · rw [hleaf.decides] at h
      cases h
    · rw [leafAt?]
      rw [decides] at h
      cases hfind : Json.find? members name with
      | none => rfl
      | some value =>
        rw [hfind] at h
        exact ih h

/-! ## One tree over another -/

/-- A member of the outcome: the later one, laid over the earlier one of its name. -/
theorem find?_overlayMembers (earlier : List (String × Json)) {later : List (String × Json)}
    (h : WellNamedMembers later) (name : String) :
    Json.find? (overlayMembers earlier later) name =
      match Json.find? later name with
      | none => Json.find? earlier name
      | some value =>
        some (((Json.find? earlier name).map fun old => overlay old value).getD value) := by
  induction later generalizing earlier with
  | nil => rfl
  | cons first rest ih =>
    obtain ⟨other, value⟩ := first
    rw [overlayMembers, ih _ h.2.2.2, Json.find?_cons]
    by_cases hname : other = name
    · subst hname
      have hrest : Json.find? rest other = none := by
        rw [Option.eq_none_iff_forall_not_mem]
        intro old hold
        exact h.2.1 _ ((find?_eq_some_iff h.2.2.2).mp hold) rfl
      rw [hrest, if_pos rfl, Json.find?_insert, if_pos rfl]
      cases Json.find? earlier other <;> rfl
    · rw [if_neg hname, Json.find?_insert, if_neg hname]

/-- **The later tree tells what it decides**, and leaves the rest to the earlier one. -/
theorem leafAt?_overlay (h : WellNamed later) (earlier : Json) (names : List String) :
    leafAt? (overlay earlier later) names =
      if decides later names then leafAt? later names else leafAt? earlier names := by
  induction names generalizing earlier later with
  | nil =>
    rcases isLeaf_or_object later with hleaf | ⟨members, rfl⟩
    · rw [hleaf.overlay_eq, hleaf.decides, if_pos rfl]
    · cases earlier <;> rfl
  | cons name rest ih =>
    rcases isLeaf_or_object later with hleaf | ⟨members, rfl⟩
    · rw [hleaf.overlay_eq, hleaf.decides, if_pos rfl]
    · rcases isLeaf_or_object earlier with hearlier | ⟨old, rfl⟩
      · rw [hearlier.overlay_object, hearlier.leafAt?_cons]
        split
        · rfl
        · rename_i hnot
          exact leafAt?_of_not_decides (by simpa using hnot)
      · rw [overlay, leafAt?, find?_overlayMembers old h name, decides, leafAt?]
        cases hfind : Json.find? members name with
        | none => rfl
        | some value =>
          have hvalue : WellNamed value := (WellNamedMembers.of_find? h hfind).2
          simp only [Option.bind_some, Option.any_some]
          rw [leafAt?]
          cases Json.find? old name with
          | none =>
            simp only [Option.map_none, Option.getD_none, Option.bind_none]
            split
            · rfl
            · rename_i hnot
              exact leafAt?_of_not_decides (by simpa using hnot)
          | some below => exact ih hvalue below

/-! ## Orderly trees -/

mutual

/-- In every object of the tree the names are ones that a key can lead by, in ascending order, and
no member is an object without members. -/
def Orderly : Json → Prop
  | .object members => OrderlyMembers members
  | _ => True

def OrderlyMembers : List (String × Json) → Prop
  | [] => True
  | (name, value) :: rest =>
    IsName name ∧ (∀ member ∈ rest, name < member.1) ∧ value ≠ .object [] ∧ Orderly value ∧
      OrderlyMembers rest

end

mutual

theorem Orderly.wellNamed : ∀ {tree : Json}, Orderly tree → WellNamed tree
  | .object _, h => OrderlyMembers.wellNamed h
  | .null, _ | .bool _, _ | .integer _, _ | .real _, _ | .string _, _ | .array _, _ => by
    trivial

theorem OrderlyMembers.wellNamed : ∀ {members : List (String × Json)}, OrderlyMembers members →
    WellNamedMembers members
  | [], _ => by trivial
  | _ :: _, ⟨hname, hless, _, hvalue, hrest⟩ =>
    ⟨hname, fun member hmem => ne_of_gt (hless member hmem), hvalue.wellNamed, hrest.wellNamed⟩

end

theorem OrderlyMembers.of_mem (h : OrderlyMembers members) (hmem : (name, value) ∈ members) :
    value ≠ .object [] ∧ Orderly value := by
  induction members with
  | nil => exact absurd hmem List.not_mem_nil
  | cons first rest ih =>
    obtain ⟨-, -, hne, hvalue, hrest⟩ := h
    rcases List.mem_cons.mp hmem with heq | hmem
    · rw [← heq] at hne hvalue
      exact ⟨hne, hvalue⟩
    · exact ih hrest hmem

theorem OrderlyMembers.of_find? (h : OrderlyMembers members)
    (hfind : Json.find? members name = some value) : value ≠ .object [] ∧ Orderly value :=
  h.of_mem ((find?_eq_some_iff h.wellNamed).mp hfind)

theorem eq_or_mem_of_mem_insert {member : String × Json}
    (h : member ∈ Json.insert name value members) : member = (name, value) ∨ member ∈ members := by
  induction members with
  | nil => exact Or.inl (List.mem_singleton.mp h)
  | cons first rest ih =>
    obtain ⟨other, old⟩ := first
    rw [Json.insert] at h
    split at h
    · rcases List.mem_cons.mp h with h | h
      · exact Or.inl h
      · exact Or.inr (List.mem_cons_of_mem _ h)
    · split at h
      · exact List.mem_cons.mp h
      · rcases List.mem_cons.mp h with rfl | h
        · exact Or.inr List.mem_cons_self
        · exact (ih h).imp_right (List.mem_cons_of_mem _)

theorem OrderlyMembers.insert (h : OrderlyMembers members) (hname : IsName name)
    (hne : value ≠ .object []) (hvalue : Orderly value) :
    OrderlyMembers (Json.insert name value members) := by
  induction members with
  | nil => exact ⟨hname, by simp, hne, hvalue, trivial⟩
  | cons first rest ih =>
    obtain ⟨other, old⟩ := first
    obtain ⟨hother, hless, hold⟩ := h
    rw [Json.insert]
    split
    · rename_i heq
      exact ⟨hname, heq ▸ hless, hne, hvalue, hold.2.2⟩
    · rename_i hdiffer
      split
      · rename_i hlt
        refine ⟨hname, ?_, hne, hvalue, hother, hless, hold⟩
        intro member hmem
        rcases List.mem_cons.mp hmem with rfl | hmem
        · exact hlt
        · exact lt_trans hlt (hless member hmem)
      · rename_i hnot
        refine ⟨hother, ?_, hold.1, hold.2.1, ih hold.2.2⟩
        intro member hmem
        rcases eq_or_mem_of_mem_insert hmem with rfl | hmem
        · exact lt_of_le_of_ne (not_lt.mp hnot) (Ne.symm hdiffer)
        · exact hless member hmem

theorem overlay_ne_hollow (h : WellNamed later) (hne : later ≠ .object []) (earlier : Json) :
    overlay earlier later ≠ .object [] := by
  rcases isLeaf_or_object later with hleaf | ⟨members, rfl⟩
  · rwa [hleaf.overlay_eq]
  · rcases isLeaf_or_object earlier with hearlier | ⟨old, rfl⟩
    · rwa [hearlier.overlay_object]
    · intro hempty
      have hover : overlayMembers old members = [] := Json.object.inj hempty
      cases members with
      | nil => exact hne rfl
      | cons first rest =>
        have hfind := find?_overlayMembers old h first.1
        rw [hover, Json.find?_cons, if_pos rfl] at hfind
        cases hfind

mutual

theorem Orderly.overlay : ∀ {earlier later : Json}, Orderly earlier → Orderly later →
    Orderly (overlay earlier later)
  | earlier, .object _, hearlier, hlater => by
    cases earlier with
    | object _ => exact OrderlyMembers.overlay hearlier hlater
    | _ => exact hlater
  | _, .null, _, _ | _, .bool _, _, _ | _, .integer _, _, _ | _, .real _, _, _
  | _, .string _, _, _ | _, .array _, _, _ => by trivial

theorem OrderlyMembers.overlay : ∀ {earlier later : List (String × Json)}, OrderlyMembers earlier →
    OrderlyMembers later → OrderlyMembers (overlayMembers earlier later)
  | _, [], hearlier, _ => hearlier
  | earlier, (name, value) :: rest, hearlier, ⟨hname, _, hne, hvalue, hrest⟩ => by
    rw [overlayMembers]
    cases hfind : Json.find? earlier name with
    | none => exact OrderlyMembers.overlay (hearlier.insert hname hne hvalue) hrest
    | some old =>
      have hold : Orderly old := (hearlier.of_find? hfind).2
      have hover : Orderly (Settings.overlay old value) := Orderly.overlay hold hvalue
      exact OrderlyMembers.overlay
        (hearlier.insert hname (overlay_ne_hollow hvalue.wellNamed hne old) hover) hrest

end

/-! ## What is decided, there is a leaf for -/

theorem exists_leafAt? : ∀ {value : Json}, Orderly value → value ≠ .object [] →
    ∃ names text, leafAt? value names = some text
  | .object [], _, hne => absurd rfl hne
  | .object ((name, value) :: rest), ⟨_, _, hne, hvalue, _⟩, _ => by
    obtain ⟨names, text, hleaf⟩ := exists_leafAt? hvalue hne
    refine ⟨name :: names, text, ?_⟩
    rw [leafAt?, Json.find?_cons, if_pos rfl]
    exact hleaf
  | .null, _, _ | .bool _, _, _ | .integer _, _, _ | .real _, _, _ | .string _, _, _
  | .array _, _, _ => ⟨[], _, rfl⟩

/-- A decided path has a leaf on it: on the way, at its end or behind it. -/
theorem exists_comparable_of_decides (h : Orderly tree) (hne : tree ≠ .object [])
    (hdecides : decides tree names = true) :
    ∃ others text, leafAt? tree others = some text ∧ Comparable others names := by
  induction names generalizing tree with
  | nil =>
    obtain ⟨others, text, hleaf⟩ := exists_leafAt? h hne
    exact ⟨others, text, hleaf, Or.inr List.nil_prefix⟩
  | cons name rest ih =>
    rcases isLeaf_or_object tree with hleaf | ⟨members, rfl⟩
    · exact ⟨[], _, hleaf.leafAt?_nil, Or.inl List.nil_prefix⟩
    · rw [decides] at hdecides
      cases hfind : Json.find? members name with
      | none =>
        rw [hfind] at hdecides
        cases hdecides
      | some value =>
        rw [hfind] at hdecides
        obtain ⟨hvalue, horderly⟩ := OrderlyMembers.of_find? h hfind
        obtain ⟨others, text, hleaf, hcomparable⟩ := ih horderly hvalue hdecides
        refine ⟨name :: others, text, ?_, ?_⟩
        · rw [leafAt?, hfind]
          exact hleaf
        · exact comparable_cons.mpr hcomparable

/-- A path is decided as far as a leaf lies behind it. -/
theorem decides_of_leafAt?_append {behind : List String}
    (h : leafAt? tree (names ++ behind) = some text) : decides tree names = true := by
  induction names generalizing tree with
  | nil => cases tree <;> rfl
  | cons name rest ih =>
    rcases isLeaf_or_object tree with hleaf | ⟨members, rfl⟩
    · exact hleaf.decides _
    · obtain ⟨value, hfind, hrest⟩ := Option.bind_eq_some_iff.mp h
      rw [decides, hfind]
      exact ih hrest

/-! ## Stacks of trees -/

section Stack

variable {layers : List Json}

theorem stack_concat (layers : List Json) (tree : Json) :
    stack (layers ++ [tree]) = overlay (stack layers) tree := by
  rw [stack, List.foldl_append]
  rfl

theorem orderly_stack (h : ∀ tree ∈ layers, Orderly tree) : Orderly (stack layers) := by
  induction layers using List.reverseRecOn with
  | nil => trivial
  | append_singleton below tree ih =>
    rw [stack_concat]
    refine (ih fun other hmem => h other (List.mem_append_left _ hmem)).overlay ?_
    exact h tree (List.mem_append_right _ (List.mem_singleton_self tree))

/-- **Of a stack of trees the last one that decides a path tells what stands there.** -/
theorem leafAt?_stack (h : ∀ tree ∈ layers, Orderly tree) (names : List String) (text : String) :
    leafAt? (stack layers) names = some text ↔
      ∃ before tree after, layers = before ++ tree :: after ∧ leafAt? tree names = some text ∧
        ∀ later ∈ after, decides later names = false := by
  induction layers using List.reverseRecOn with
  | nil =>
    have hempty : leafAt? (stack []) names = none := by cases names <;> rfl
    simp [hempty]
  | append_singleton below top ih =>
    have htop : Orderly top := h top (List.mem_append_right _ (List.mem_singleton_self top))
    have hbelow : ∀ tree ∈ below, Orderly tree :=
      fun tree hmem => h tree (List.mem_append_left _ hmem)
    rw [stack_concat, leafAt?_overlay htop.wellNamed]
    constructor
    · intro hleaf
      split at hleaf
      · exact ⟨below, top, [], rfl, hleaf, by simp⟩
      · rename_i hnot
        obtain ⟨before, tree, after, rfl, htext, hafter⟩ := (ih hbelow).mp hleaf
        refine ⟨before, tree, after ++ [top], by simp, htext, ?_⟩
        intro later hmem
        rcases List.mem_append.mp hmem with hmem | hmem
        · exact hafter later hmem
        · rw [List.mem_singleton.mp hmem]
          simpa using hnot
    · rintro ⟨before, tree, after, heq, htext, hafter⟩
      rcases List.eq_nil_or_concat after with rfl | ⟨rest, last, rfl⟩
      · obtain ⟨rfl, htree⟩ := List.append_inj' heq rfl
        obtain rfl : top = tree := by simpa using htree
        rw [if_pos (decides_of_leafAt?_append (by rwa [List.append_nil]))]
        exact htext
      · have hsplit : below ++ [top] = (before ++ tree :: rest) ++ [last] := by simpa using heq
        obtain ⟨rfl, hlast⟩ := List.append_inj' hsplit rfl
        obtain rfl : top = last := by simpa using hlast
        rw [if_neg (by simp [hafter top (by simp)])]
        exact (ih hbelow).mpr
          ⟨before, tree, rest, rfl, htext, fun later hmem => hafter later (by simp [hmem])⟩

end Stack

/-! ## Single settings -/

section Nest

variable {along : List String}

theorem nest_cons (hname : IsName name) (value : Json) (along : List String) :
    nest value (name :: along) = .object [(name, nest value along)] := by
  rw [nest, if_neg hname.1]

theorem nest_ne_hollow (hvalue : IsLeaf value) (hnames : ∀ name ∈ along, IsName name) :
    nest value along ≠ .object [] := by
  cases along with
  | nil =>
    rintro rfl
    exact hvalue
  | cons name rest =>
    rw [nest_cons (hnames name List.mem_cons_self)]
    simp

theorem orderly_nest (hvalue : IsLeaf value) (hnames : ∀ name ∈ along, IsName name) :
    Orderly (nest value along) := by
  induction along with
  | nil =>
    cases value with
    | object members => exact hvalue.elim
    | _ => trivial
  | cons name rest ih =>
    obtain ⟨hname, hrest⟩ := List.forall_mem_cons.mp hnames
    rw [nest_cons hname]
    exact ⟨hname, by simp, nest_ne_hollow hvalue hrest, ih hrest, trivial⟩

theorem leafAt?_nest (hvalue : IsLeaf value) (hnames : ∀ name ∈ along, IsName name)
    (names : List String) :
    leafAt? (nest value along) names = if names = along then some (leafText value) else none := by
  induction along generalizing names with
  | nil =>
    cases names with
    | nil => exact hvalue.leafAt?_nil
    | cons other others => exact hvalue.leafAt?_cons other others
  | cons name rest ih =>
    obtain ⟨hisName, hrest⟩ := List.forall_mem_cons.mp hnames
    rw [nest_cons hisName]
    cases names with
    | nil => rfl
    | cons other others =>
      rw [leafAt?, Json.find?_cons]
      by_cases hname : name = other
      · subst hname
        simp [ih hrest]
      · simp [hname, Ne.symm hname]

theorem decides_nest (hvalue : IsLeaf value) (hnames : ∀ name ∈ along, IsName name)
    (names : List String) : decides (nest value along) names = true ↔ Comparable along names := by
  induction along generalizing names with
  | nil => simp [nest, hvalue.decides, Comparable]
  | cons name rest ih =>
    obtain ⟨hisName, hrest⟩ := List.forall_mem_cons.mp hnames
    rw [nest_cons hisName]
    cases names with
    | nil => simp [decides, Comparable]
    | cons other others =>
      rw [decides, Json.find?_cons]
      by_cases hname : name = other
      · subst hname
        rw [if_pos rfl, comparable_cons]
        exact ih hrest others
      · simp [hname, Ne.symm hname, Comparable]

end Nest

end Settings

end ServiceHost
