import ServiceHost.Proofs.Host.Frame
import ServiceHost.Proofs.Settings.Layers

/-!
# The settings of a host — overrides over the environment over the extension

A host layers its settings from three sources, and the environment is the one of them that is not
given as settings: each variable is a tree of its own, nested under the key of its name, and **that
key is flat whatever the name is** (`isFlat_of_variableKey?`). So as long as no variable spells a
table, the environment is an orderly tree, and what holds of flat layers holds of all three sources
(`later_layer_wins`).
-/

set_option autoImplicit false

namespace ServiceHost

namespace Text

/-- A map that neither makes nor removes separators can be done segment by segment. -/
theorem cut_map {separator : Char} {f : Char → Char} (hf : ∀ c, f c = separator ↔ c = separator)
    (cs : List Char) : cut separator (cs.map f) = (cut separator cs).map (List.map f) := by
  induction cs with
  | nil => rfl
  | cons c rest ih =>
    rw [List.map_cons, cut, cut, ih]
    by_cases hc : c = separator
    · rw [if_pos ((hf c).mpr hc), if_pos hc]
      rfl
    · rw [if_neg (mt (hf c).mp hc), if_neg hc]
      cases cut separator rest <;> rfl

end Text

namespace Settings

variable {name key : String}

theorem toLower_eq_dot_iff (c : Char) : c.toLower = '.' ↔ c = '.' := by
  constructor
  · intro h
    unfold Char.toLower at h
    split at h
    · rename_i hupper
      have hval := congrArg (fun d : Char => d.val.toNat) h
      simp only [ge_iff_le, UInt32.le_iff_toNat_le] at hupper
      simp at hval hupper
      omega
    · exact h
  · rintro rfl
    decide

/-- The key of a variable has no empty segment. -/
theorem isFlat_of_variableKey? (h : variableKey? name = some key) : IsFlat key := by
  unfold variableKey? at h
  dsimp only at h
  split at h
  · cases h
  · split at h
    · cases h
    · rename_i hnone
      obtain rfl := Option.some.inj h
      intro segment hmem hempty
      subst hempty
      have hcut := List.mem_map_of_mem (f := String.toList) hmem
      rw [map_toList_path, String.toList_ofList, Text.cut_map toLower_eq_dot_iff,
        List.mem_map] at hcut
      obtain ⟨cs, hcs, hlower⟩ := hcut
      refine hnone (List.any_eq_true.mpr ⟨cs, hcs, ?_⟩)
      simpa using hlower

/-- No setting of the environment spells a table, and none brings the process down. -/
def Scalars (environment : List (String × String)) : Prop :=
  ∀ entry ∈ environment, ∀ key, variableKey? entry.1 = some key →
    ∃ value, Inline.value entry.2 = .ok value ∧ IsLeaf value

/-- The environment is a tree that carries the settings read from it. -/
theorem Scalars.exists_layer {environment : List (String × String)} (h : Scalars environment) :
    ∃ tree, environmentLayer environment = .ok tree ∧ Carries tree (ofTree tree) := by
  obtain ⟨layers, hlayers, hall⟩ : ∃ layers, environment.mapM (fun entry =>
      variableLayer? entry.1 entry.2) = .ok layers ∧ ∀ layer ∈ layers, ∀ tree ∈ layer,
      Orderly tree ∧ leafAt? tree [] = none := by
    refine exists_mapM fun entry hmem => ?_
    unfold variableLayer?
    cases hkey : variableKey? entry.1 with
    | none => exact ⟨none, rfl, by simp⟩
    | some key =>
      obtain ⟨value, hvalue, hleaf⟩ := h entry hmem key hkey
      have hnames : ∀ name ∈ path key, IsName name :=
        fun _ => isName_of_mem_path (isFlat_of_variableKey? hkey)
      refine ⟨some (nest value (path key)), by rw [hvalue]; rfl, ?_⟩
      rintro tree ⟨⟩
      refine ⟨orderly_nest hleaf hnames, ?_⟩
      rw [leafAt?_nest hleaf hnames, if_neg (Ne.symm (path_ne_nil key))]
  have htrees : ∀ tree ∈ layers.filterMap id, Orderly tree ∧ leafAt? tree [] = none := by
    intro tree hmem
    obtain ⟨layer, hlayer, htree⟩ := List.mem_filterMap.mp hmem
    exact hall layer hlayer tree htree
  refine ⟨stack (layers.filterMap id), ?_, ?_⟩
  · unfold environmentLayer
    rw [hlayers]
    rfl
  · have horderly : ∀ tree ∈ layers.filterMap id, Orderly tree :=
      fun tree hmem => (htrees tree hmem).1
    refine (orderly_stack horderly).carries ?_
    exact leafAt?_stack_nil horderly fun tree hmem => (htrees tree hmem).2

end Settings

/-! ## The three sources of a host -/

/-- Nobody who has the world and no context changes the variables around it. -/
theorem calm_environment : Calm fun host => host.world.surroundings.environment where
  report _ := fun _ => rfl
  effect effect := by
    intro host
    refine @Program.run_invariant _ _ _ _ World.perform (fun _ => True)
      (fun world => world.surroundings.environment = host.world.surroundings.environment) ?_
      effect (Program.allOps_of_forall (fun _ => trivial) effect) host.world rfl
    intro op world _ h
    cases op <;> exact h
  write _ _ := fun _ => rfl

theorem Host.environmentLayer_on {host : Host} {tree : Json}
    (h : Settings.environmentLayer host.world.surroundings.environment = .ok tree) :
    Host.environmentLayer.on host = (.ok tree, host) := by
  unfold Host.environmentLayer
  rw [BootM.on_bind, BootM.on_get]
  dsimp only
  rw [h]
  rfl

/-- What a host loads are the trees of its three sources, laid over each other. -/
theorem Host.exists_loadSettings_on {host prepared : Host} {extension : Option Settings}
    {environment overrides : Json} {base : List Json}
    (hextension : Host.extensionSettings.on host = (.ok extension, prepared))
    (hbase : extension.toList.mapM Settings.layer = .ok base)
    (henvironment :
      Settings.environmentLayer prepared.world.surroundings.environment = .ok environment)
    (hoverrides : prepared.context.overrides.layer = .ok overrides) :
    ∃ loaded, Host.loadSettings.on host = (.ok (), loaded) ∧
      loaded.context.settings = Settings.ofLayers (base ++ [environment, overrides]) := by
  unfold Host.loadSettings
  rw [BootM.on_bind, hextension]
  dsimp only
  rw [BootM.on_bind, Host.environmentLayer_on henvironment]
  dsimp only
  rw [BootM.on_bind, BootM.on_get]
  dsimp only
  rw [hbase, hoverrides]
  exact ⟨_, rfl, rfl⟩

namespace Settings

theorem Flat.mapM_layer {layers : List Settings} (h : ∀ s ∈ layers, s.Flat) :
    layers.mapM layer = .ok (layers.map flatTree) :=
  mapM_eq_ok fun s hmem => (h s hmem).layer_eq

theorem carries_of_flat {layers : List Settings} (h : ∀ s ∈ layers, s.Flat) :
    ∀ layer ∈ layers.map fun s => (s.flatTree, s), Carries layer.1 layer.2 := by
  intro layer hmem
  obtain ⟨s, hs, rfl⟩ := List.mem_map.mp hmem
  exact (h s hs).carries

/-- Preparing the extension leaves the variables and the overrides as they are. -/
theorem unchanged_of_extensionSettings {host prepared : Host} {extension : Option Settings}
    (h : Host.extensionSettings.on host = (.ok extension, prepared)) :
    prepared.world.surroundings.environment = host.world.surroundings.environment ∧
      prepared.context.overrides = host.context.overrides := by
  have henvironment := calm_environment.extensionSettings (fun _ _ => rfl) host
  have hcontext := (calm_context.comp Context.overrides).extensionSettings (fun _ _ => rfl) host
  rw [show Host.extensionSettings.run host = (.ok extension, prepared) from h]
    at henvironment hcontext
  exact ⟨henvironment, hcontext⟩

/-- **Of several layers the last one that has a key wins**, and a key that no layer from there on
has another key above or below of keeps its text. The layers of a host are the settings of its
extension, the environment and the overrides, in this order. -/
theorem later_layer_wins :
    (∀ layers : List Settings, (∀ s ∈ layers, s.Flat) →
      ∃ trees, layers.mapM layer = .ok trees ∧ Layered layers (ofLayers trees)) ∧
    ∀ (host prepared : Host) (extension : Option Settings),
      Host.extensionSettings.on host = (.ok extension, prepared) →
      (∀ s ∈ extension.toList, s.Flat) → host.context.overrides.Flat →
      Scalars host.world.surroundings.environment →
      ∃ environment loaded,
        environmentLayer host.world.surroundings.environment = .ok environment ∧
        Host.loadSettings.on host = (.ok (), loaded) ∧
        Layered (extension.toList ++ [ofTree environment, host.context.overrides])
          loaded.context.settings := by
  constructor
  · intro layers hflat
    refine ⟨layers.map flatTree, Flat.mapM_layer hflat, ?_⟩
    simpa [Function.comp_def] using layered_stack (carries_of_flat hflat)
  · intro host prepared extension hext hflat hoverrides hscalars
    obtain ⟨tree, htree, hcarried⟩ := hscalars.exists_layer
    obtain ⟨henvironment, hcontext⟩ := unchanged_of_extensionSettings hext
    obtain ⟨loaded, hon, hsettings⟩ := Host.exists_loadSettings_on hext (Flat.mapM_layer hflat)
      (by rw [henvironment]; exact htree) (by rw [hcontext]; exact hoverrides.layer_eq)
    refine ⟨tree, loaded, htree, hon, ?_⟩
    have hcarries : ∀ layer ∈ (extension.toList.map fun s => (s.flatTree, s)) ++
        [(tree, ofTree tree), (host.context.overrides.flatTree, host.context.overrides)],
        Carries layer.1 layer.2 := by
      intro layer hmem
      rcases List.mem_append.mp hmem with hmem | hmem
      · exact carries_of_flat hflat layer hmem
      · rcases List.mem_pair.mp hmem with rfl | rfl
        · exact hcarried
        · exact hoverrides.carries
    rw [hsettings]
    simpa [Function.comp_def] using layered_stack hcarries

/-- The settings that come with a host. -/
def delivered : Settings :=
  ofList [("edc.web.path", "/"), ("edc.web.port", "80")]

def startedWith : Settings :=
  ofList [("edc.web.port", "8181")]

def startedHost : Host where
  world := { surroundings := { environment := [("EDC_WEB_PATH", "/api")] } }
  context :=
    { overrides := startedWith
      locator := .answering (fun _ _ => .ok []) fun _ _ =>
        .ok (some ⟨"delivered", .settings ⟨"delivered", fun _ => pure (.ok delivered)⟩⟩) }

/-- The tree of the one variable around the host. -/
def pathTree : Json :=
  nest (.string "/api") ["edc", "web", "path"]

theorem environmentLayer_pathTree : environmentLayer [("EDC_WEB_PATH", "/api")] = .ok pathTree := by
  have hkey : variableKey? "EDC_WEB_PATH" = some "edc.web.path" := rfl
  have hvalue : Inline.value "/api" = .ok (.string "/api") := rfl
  have hlayer : variableLayer? "EDC_WEB_PATH" "/api" = .ok (some pathTree) := by
    rw [variableLayer?, hkey]
    dsimp only
    rw [hvalue]
    rfl
  rw [environmentLayer, List.mapM_cons, List.mapM_nil]
  dsimp only
  rw [hlayer]
  rfl

theorem scalars_path : Scalars [("EDC_WEB_PATH", "/api")] := by
  intro entry hmem key _
  obtain rfl := List.mem_singleton.mp hmem
  exact ⟨.string "/api", rfl, trivial⟩

theorem settled_web :
    (∃ trees, [delivered, startedWith].mapM layer = .ok trees ∧
      (ofLayers trees).entries["edc.web.port"]? = some "8181") ∧
    ∃ loaded, Host.loadSettings.on startedHost = (.ok (), loaded) ∧
      loaded.context.settings.entries["edc.web.port"]? = some "8181" ∧
      loaded.context.settings.entries["edc.web.path"]? = some "/api" := by
  have hdelivered : delivered.Flat := by decide
  have hstarted : startedWith.Flat := by decide
  have hclear : ∀ other ∈ startedWith.entries,
      ¬ Above other "edc.web.port" ∧ ¬ Above "edc.web.port" other := by decide
  constructor
  · obtain ⟨trees, htrees, hlayered⟩ :=
      later_layer_wins.1 [delivered, startedWith] (by simp [hdelivered, hstarted])
    have hlast : SetLast [delivered, startedWith] "edc.web.port" "8181" startedWith [] :=
      ⟨⟨[delivered], rfl⟩, by decide, by simp⟩
    exact ⟨trees, htrees, hlayered.kept _ _ _ _ hlast (by simpa using hclear)⟩
  · obtain ⟨environment, loaded, henvironment, hon, hlayered⟩ :=
      later_layer_wins.2 startedHost _ (some delivered) rfl (by simp [hdelivered]) hstarted
        scalars_path
    obtain rfl : pathTree = environment :=
      Except.ok.inj (environmentLayer_pathTree.symm.trans henvironment)
    refine ⟨loaded, hon, ?_, ?_⟩
    · refine hlayered.kept _ _ startedWith []
        ⟨⟨[delivered, ofTree pathTree], rfl⟩, by decide, by simp⟩ ?_
      simpa using hclear
    · refine hlayered.kept _ _ (ofTree pathTree) [startedWith]
        ⟨⟨[delivered], rfl⟩, by decide, ?_⟩ ?_
      · show ∀ later ∈ [startedWith], later.entries["edc.web.path"]? = none
        decide
      · show ∀ later ∈ [ofTree pathTree, startedWith], ∀ other ∈ later.entries,
          ¬ Above other "edc.web.path" ∧ ¬ Above "edc.web.path" other
        decide

end Settings

end ServiceHost
