import ServiceHost.Proofs.Graph.Declarations

/-!
# Drawing — the table of providers, and the graph that is read off it

`Graph.build` notes down who provides what while it checks the first half of the declarations, and
looks the second half up in what it has noted. The table is told by one invariant of its pushes
(`getD_foldl_push`): under each capability stand **the positions of the modules that provide it**,
and nothing stands under a capability that none provides (`mem_providersUnder`, `mem_table_iff`). So
a look into the table answers what a look through all modules would, and the two passes come to one
pass over all declarations, with the graph drawn beside it (`build_eq`).
-/

set_option autoImplicit false

namespace ServiceHost

/-! ## Pushes -/

section Pushes

variable (providers : Providers) (entries : List (Nat × String)) (position : Nat)
  (capability wanted : String)

theorem Providers.getD_push :
    (providers.push position capability).getD wanted [] =
      providers.getD wanted [] ++ if capability = wanted then [position] else [] := by
  rw [push, Std.TreeMap.getD_insert]
  by_cases h : capability = wanted
  · subst h
    simp
  · simp [h]

theorem Providers.mem_push :
    wanted ∈ providers.push position capability ↔ capability = wanted ∨ wanted ∈ providers := by
  rw [push, Std.TreeMap.mem_insert, Std.LawfulEqCmp.compare_eq_iff_eq]

/-- What stands under a capability is what stood there, and then what is pushed under it. -/
theorem getD_foldl_push :
    (entries.foldl (fun providers entry => providers.push entry.1 entry.2) providers).getD
        wanted [] =
      providers.getD wanted [] ++ (entries.filter (·.2 = wanted)).map Prod.fst := by
  induction entries generalizing providers with
  | nil => simp
  | cons entry rest ih =>
    rw [List.foldl_cons, ih, Providers.getD_push, List.append_assoc]
    by_cases h : entry.2 = wanted <;> simp [h]

/-- A capability has a place in the table from its first push on. -/
theorem mem_foldl_push :
    wanted ∈ entries.foldl (fun providers entry => providers.push entry.1 entry.2) providers ↔
      wanted ∈ providers ∨ ∃ entry ∈ entries, entry.2 = wanted := by
  induction entries generalizing providers with
  | nil => simp
  | cons entry rest ih =>
    rw [List.foldl_cons, ih, Providers.mem_push]
    simp only [List.mem_cons, exists_eq_or_imp]
    rw [or_assoc, or_left_comm]

end Pushes

namespace Graph

variable {modules : List Hosted} {registry : Registry} {hosted : Hosted} {capability : String}
  {position other : Nat} {error : BootError}

/-! ## The table -/

/-- What modules provide, with the position of the module in front. -/
def provisions (modules : List Hosted) : List (Nat × String) :=
  modules.zipIdx.flatMap fun (hosted, position) => hosted.module.provides.map (position, ·)

/-- The table of all that modules provide. -/
def table (modules : List Hosted) : Providers :=
  (provisions modules).foldl (fun providers entry => providers.push entry.1 entry.2) {}

/-- The positions that the table has under a capability. -/
def providersUnder (modules : List Hosted) (capability : String) : List Nat :=
  (table modules).getD capability []

theorem mem_provisions :
    (position, capability) ∈ provisions modules ↔
      ∃ provider, modules[position]? = some provider ∧ capability ∈ provider.module.provides := by
  simp [provisions, List.mem_flatMap, List.mk_mem_zipIdx_iff_getElem?]

/-- **Under a capability stand the modules that provide it.** -/
theorem mem_providersUnder :
    position ∈ providersUnder modules capability ↔
      ∃ provider, modules[position]? = some provider ∧ capability ∈ provider.module.provides := by
  rw [← mem_provisions, providersUnder, table, getD_foldl_push]
  simp

/-- **A capability is in the table if and only if a module provides it.** -/
theorem mem_table_iff :
    capability ∈ table modules ↔
      ∃ provider ∈ modules, capability ∈ provider.module.provides := by
  rw [table, mem_foldl_push]
  constructor
  · rintro (h | ⟨⟨position, _⟩, hmem, rfl⟩)
    · simp at h
    · obtain ⟨provider, hp, hc⟩ := mem_provisions.mp hmem
      exact ⟨provider, List.mem_of_getElem? hp, hc⟩
  · rintro ⟨provider, hp, hc⟩
    obtain ⟨position, hp⟩ := List.mem_iff_getElem?.mp hp
    exact Or.inr ⟨(position, capability), mem_provisions.mpr ⟨provider, hp, hc⟩, rfl⟩

/-- What the module at a position provides is checked, and is pushed in its turn. -/
theorem provide_eq (position : Nat) (hosted : Hosted) (providers : Providers) :
    provide position hosted providers =
      ((provided hosted).forM (checkDeclaration modules registry)).map fun _ =>
        (hosted.module.provides.map (position, ·)).foldl
          (fun providers entry => providers.push entry.1 entry.2) providers := by
  have hpass : (provided hosted).forM (checkDeclaration modules registry) =
      hosted.module.provides.forM (checkDeclared hosted.name) := by
    simp only [provided, List.forM_eq_forM, List.forM_map, checkDeclaration_provided]
  rw [hpass, List.foldl_map, provide]
  refine foldlM_checked (fun providers capability => ?_) _ _
  cases checkDeclared hosted.name capability <;> rfl

/-- **The first pass** checks all that modules provide, and leaves the table. -/
theorem providersOf_eq (modules : List Hosted) (registry : Registry) :
    providersOf modules =
      ((modules.flatMap provided).forM (checkDeclaration modules registry)).map fun _ =>
        table modules := by
  rw [forM_flatMap, ← forM_zipIdx, table, provisions, List.foldl_flatMap]
  exact foldlM_checked (fun providers entry => provide_eq entry.2 entry.1 providers) _ _

/-! ## What is looked up -/

/-- What the module at a position depends on for one capability. -/
def othersUnder (modules : List Hosted) (position : Nat) (capability : String) : List Nat :=
  (providersUnder modules capability).filter (· ≠ position)

/-- What the module at a position depends on. -/
def dependenciesOn (modules : List Hosted) (position : Nat) (hosted : Hosted) : Std.TreeSet Nat :=
  (needed hosted).foldl
    (fun dependencies declaration =>
      dependencies.insertMany (othersUnder modules position declaration.capability))
    {}

/-- **The table is looked up as all modules are looked through**: what is not in it is not served
by any of them, and what is in it is worth an edge to everyone but the module itself. -/
theorem depend_eq (position : Nat) (dependencies : Std.TreeSet Nat) (declaration : Declaration) :
    depend (table modules) registry position declaration.module dependencies
        ⟨declaration.capability, declaration.required⟩ =
      (checkDeclaration modules registry declaration).map fun _ =>
        dependencies.insertMany (othersUnder modules position declaration.capability) := by
  obtain ⟨module, capability, required⟩ := declaration
  unfold depend checkDeclaration
  dsimp only
  cases checkDeclared module capability with
  | error error => rfl
  | ok _ =>
    unfold othersUnder providersUnder
    rw [Std.TreeMap.getD_eq_getD_getElem?]
    simp only [bind, Except.bind]
    cases hfound : (table modules)[capability]? with
    | some found =>
      have hserved : Served modules registry capability := by
        refine Or.inl (mem_table_iff.mp ?_)
        rw [Std.TreeMap.mem_iff_isSome_getElem?, hfound]
        rfl
      have hnot : ¬ (required = true ∧ ¬ Served modules registry capability) :=
        fun h => h.2 hserved
      simp only [hnot, if_false]
      rfl
    | none =>
      have hnone : ¬ ∃ provider ∈ modules, capability ∈ provider.module.provides := by
        rw [← mem_table_iff, Std.TreeMap.mem_iff_isSome_getElem?, hfound]
        exact Bool.false_ne_true
      have hoffends : (required = true ∧ ¬ Served modules registry capability) ↔
          (required && !registry.has capability) = true := by
        rw [Served, or_iff_right hnone]
        simp
      simp only [hoffends]
      cases required && !registry.has capability <;> rfl

/-- What the module at a position needs is checked, and looked up in its turn. -/
theorem dependenciesAt_eq (position : Nat) (hosted : Hosted) :
    dependenciesAt (table modules) registry position hosted =
      ((needed hosted).forM (checkDeclaration modules registry)).map fun _ =>
        dependenciesOn modules position hosted := by
  rw [dependenciesAt, dependenciesOn, needed_eq, List.foldl_map]
  simp only [List.forM_eq_forM, List.forM_map]
  refine foldlM_checked (fun dependencies requirement => ?_) _ _
  exact depend_eq position dependencies ⟨hosted.name, requirement.capability, requirement.required⟩

theorem mem_foldl_insertMany {α : Type} (found : α → List Nat) (items : List α)
    (dependencies : Std.TreeSet Nat) :
    other ∈ items.foldl (fun dependencies item => dependencies.insertMany (found item))
        dependencies ↔
      other ∈ dependencies ∨ ∃ item ∈ items, other ∈ found item := by
  induction items generalizing dependencies with
  | nil => simp
  | cons item rest ih =>
    rw [List.foldl_cons, ih, Std.TreeSet.mem_insertMany_list, List.contains_iff_mem, or_assoc]
    simp only [List.mem_cons, exists_eq_or_imp]

/-- **A module depends on the others that provide something it needs.** -/
theorem mem_dependenciesOn :
    other ∈ dependenciesOn modules position hosted ↔
      other ≠ position ∧ ∃ provider, modules[other]? = some provider ∧ Needs hosted provider := by
  rw [dependenciesOn, mem_foldl_insertMany]
  simp only [othersUnder, List.mem_filter, mem_providersUnder, decide_eq_true_eq]
  constructor
  · rintro (h | ⟨declaration, hd, ⟨provider, hp, hc⟩, hne⟩)
    · simp at h
    · exact ⟨hne, provider, hp, declaration, hd, hc⟩
  · rintro ⟨hne, provider, hp, declaration, hd, hc⟩
    exact Or.inr ⟨declaration, hd, ⟨provider, hp, hc⟩, hne⟩

/-! ## The one pass -/

/-- The graph of modules that are declared as they should be. -/
def drawn (modules : List Hosted) : Graph where
  names := modules.map Hosted.name
  dependencies := modules.zipIdx.map fun (hosted, position) =>
    (dependenciesOn modules position hosted).toList

/-- **A graph is drawn in one pass** over all declarations. -/
theorem build_eq :
    build modules registry =
      ((declarations modules).forM (checkDeclaration modules registry)).map fun _ =>
        drawn modules := by
  have hpass : (declarations modules).forM (checkDeclaration modules registry) =
      ((modules.flatMap provided).forM (checkDeclaration modules registry) >>= fun _ =>
        (modules.flatMap needed).forM (checkDeclaration modules registry)) := by
    rw [declarations, List.forM_eq_forM, List.forM_append]
  have hsecond : (modules.zipIdx.mapM fun (hosted, position) =>
      dependenciesAt (table modules) registry position hosted) =
      ((modules.flatMap needed).forM (checkDeclaration modules registry)).map fun _ =>
        modules.zipIdx.map fun (hosted, position) => dependenciesOn modules position hosted := by
    rw [forM_flatMap, ← forM_zipIdx]
    exact mapM_checked (fun entry : Hosted × Nat => dependenciesAt_eq entry.2 entry.1) _
  rw [hpass, build, providersOf_eq modules registry]
  cases (modules.flatMap provided).forM (checkDeclaration modules registry) with
  | error error => rfl
  | ok _ =>
    show (modules.zipIdx.mapM fun (hosted, position) =>
      dependenciesAt (table modules) registry position hosted) >>= _ = _
    rw [hsecond]
    cases (modules.flatMap needed).forM (checkDeclaration modules registry) with
    | error error => rfl
    | ok _ =>
      show Except.ok _ = Except.ok (drawn modules)
      rw [drawn, List.map_map]
      rfl

/-- **When a graph is drawn, and what it is then.** -/
theorem build_eq_ok_iff {graph : Graph} :
    build modules registry = .ok graph ↔
      (∀ declaration ∈ declarations modules,
        checkDeclaration modules registry declaration = .ok ()) ∧
      graph = drawn modules := by
  rw [← forM_eq_ok_iff, build_eq, map_eq_ok_iff]
  constructor
  · rintro ⟨_, hpass, rfl⟩
    exact ⟨hpass, rfl⟩
  · rintro ⟨hpass, rfl⟩
    exact ⟨(), hpass, rfl⟩

/-- **What is reported when none is drawn.** -/
theorem build_eq_error_iff :
    build modules registry = .error error ↔ FirstOffence modules registry error := by
  rw [build_eq, map_eq_error_iff, forM_eq_error_iff]
  simp only [checkDeclaration_eq_ok_iff_not_offends, checkDeclaration_eq_error_iff]
  rfl

end Graph

end ServiceHost
