import SmithsNet.Lib.Exec
import SmithsNet.Lib.Table
import SmithsNet.Plugin.Dispatcher

/-!
# SmithsNet.Plugin.Registry

The plugin registry (`smiths-plugin/src/registry.rs`) and what its operations do to
the routes of the hook dispatcher: a load registers the hooks of the manifest and
those the configuration has declared, a removal drops them, and a declaration
registers one more.

A declaration takes the priority of a loaded plugin from the index of the sidecars.
A script or a WASM plugin is not in it, and what is in it under the name of one
may be a sidecar that was loaded before.

`hooks_routed`: in every run whose declarations for loaded plugins find the priority
of the plugin there, and whose script reloads find the name under which the script
is loaded in the manifest, every event has for each plugin that wants it one route,
at the plugin's priority, and none of a plugin that is gone.
-/

namespace SmithsNet.Plugin

open Lib MemoryDispatcher

inductive PluginType
  | sidecar
  | wasm
  | script
  deriving DecidableEq

structure Manifest where
  name : String
  pluginType : PluginType
  hooks : List String
  priority : Nat
  deriving DecidableEq

/-- `priority` used when the manifest omits it. -/
def DEFAULT_PRIORITY : Nat := 50

/-- A loaded plugin: the manifest of the version it runs, and which of the processes,
modules and scripts that were started it is. -/
structure Provider where
  name : String
  manifest : Manifest
  dir : String
  started : Nat
  deriving DecidableEq

structure AiRegistry where
  providers : Table String Provider
  sidecars : Table String Provider
  scripts : Table String Provider
  hooks : MemoryDispatcher
  configHooks : Table String (List String)

namespace AiRegistry

def new : AiRegistry := ⟨.empty, .empty, .empty, .new, .empty⟩

def insert (r : AiRegistry) (p : Provider) : AiRegistry :=
  { r with providers := r.providers.insert p.name p, sidecars := r.sidecars.insert p.name p }

def insertWasm (r : AiRegistry) (p : Provider) : AiRegistry :=
  { r with providers := r.providers.insert p.name p }

def insertScript (r : AiRegistry) (p : Provider) : AiRegistry :=
  { r with providers := r.providers.insert p.name p, scripts := r.scripts.insert p.name p }

def remove (r : AiRegistry) (name : String) : AiRegistry :=
  { r with
    providers := r.providers.erase name
    sidecars := r.sidecars.erase name
    scripts := r.scripts.erase name
    hooks := r.hooks.unregisterOwner name }

/-- The hooks declared through the configuration for a plugin. -/
def declared (r : AiRegistry) (plugin : String) : List String := (r.configHooks plugin).getD []

/-- The priority `declare_config_hook` registers a hook with. -/
def declaredPriority (r : AiRegistry) (plugin : String) : Nat :=
  ((r.providers plugin).bind fun _ => (r.sidecars plugin).map (·.manifest.priority)).getD DEFAULT_PRIORITY

def declareConfigHook (r : AiRegistry) (plugin event : String) : AiRegistry :=
  { r with
    configHooks := r.configHooks.insert plugin ((r.declared plugin).insert event)
    hooks := r.hooks.registerOwned plugin event (r.declaredPriority plugin) ⟨plugin, event⟩ }

/-- Register every hook of the manifest and every declared one, in place of what the
plugin had. -/
def registerManifestHooks (r : AiRegistry) (m : Manifest) : AiRegistry :=
  { r with hooks := (r.hooks.unregisterOwner m.name).registerAll m.name m.priority (m.hooks ∪ r.declared m.name) }

/-- A provider is put where its backend's providers are. -/
def insertLoaded (r : AiRegistry) (p : Provider) : AiRegistry :=
  match p.manifest.pluginType with
  | .sidecar => r.insert p
  | .wasm => r.insertWasm p
  | .script => r.insertScript p

/-- The end of a `load_one`. -/
def load (r : AiRegistry) (m : Manifest) (dir : String) (started : Nat) : AiRegistry :=
  (r.insertLoaded ⟨m.name, m, dir, started⟩).registerManifestHooks m

/-- What the `reload` of a sidecar takes away before it calls `load_one`. -/
def unload (r : AiRegistry) (name : String) : AiRegistry :=
  { r with
    providers := r.providers.erase name
    sidecars := r.sidecars.erase name
    hooks := r.hooks.unregisterOwner name }

/-- The runtime of the script `p` was swapped for the one of the manifest `m`. -/
def swapped (r : AiRegistry) (p : Provider) (m : Manifest) : AiRegistry :=
  { r with
    scripts := r.scripts.insert p.name { p with manifest := m }
    providers := if r.providers p.name = some p then r.providers.insert p.name { p with manifest := m } else r.providers }

end AiRegistry

/-- A registry, and the events declared for a plugin since it was last removed. -/
structure State where
  registry : AiRegistry
  since : String → List String

open State

def State.new : State := ⟨.new, fun _ => []⟩

inductive Action
  | load (m : Manifest) (dir : String) (started : Nat)
  | remove (name : String)
  | declareConfigHook (plugin event : String)
  /-- The first part of a sidecar's reload; a load makes the second. -/
  | unload (name : String)
  /-- The reload of a script, with the manifest it finds. -/
  | reloadScript (name : String) (m : Manifest)

def State.step (s : State) : Action → Option State
  | .load m dir started => some { s with registry := s.registry.load m dir started }
  | .remove name => some ⟨s.registry.remove name, Function.update s.since name []⟩
  | .declareConfigHook plugin event =>
    some ⟨s.registry.declareConfigHook plugin event, Function.update s.since plugin (event :: s.since plugin)⟩
  | .unload name =>
    match s.registry.scripts name, s.registry.sidecars name with
    | none, some _ => some ⟨s.registry.unload name, Function.update s.since name []⟩
    | _, _ => none
  | .reloadScript name m =>
    match s.registry.scripts name with
    | some p =>
      if m.pluginType = .script then
        some { s with registry := (s.registry.swapped p m).registerManifestHooks m }
      else none
    | none => none

/-- What the routes should be. -/
structure Routed (s : State) : Prop where
  /-- One route for each plugin that wants the event, at the plugin's priority. -/
  once : ∀ plugin p event, s.registry.providers plugin = some p →
    event ∈ p.manifest.hooks ∨ event ∈ s.registry.declared plugin →
    s.registry.hooks.routesOf plugin event = [⟨p.manifest.priority, plugin, ⟨plugin, event⟩⟩]
  /-- None of a plugin that is gone, but for what was declared afterwards. -/
  gone : ∀ event, ∀ r ∈ s.registry.hooks.routes event, s.registry.providers r.owner = none → event ∈ s.since r.owner
  sorted : ∀ event, (s.registry.hooks.routes event).Pairwise fun a b => a.priority ≤ b.priority

/-- The steps that find the right priority and the right name. -/
def Aligned (s : State) : Action → Prop
  | .declareConfigHook plugin _ =>
    ∀ p ∈ s.registry.providers plugin, s.registry.declaredPriority plugin = p.manifest.priority
  | .reloadScript name m => m.name = name ∧ s.registry.providers name = s.registry.scripts name
  | _ => True

instance (s : State) : DecidablePred (Aligned s)
  | .declareConfigHook _ _ => inferInstanceAs (Decidable (∀ p ∈ _, _))
  | .reloadScript _ _ => inferInstanceAs (Decidable (_ ∧ _))
  | .load _ _ _ | .remove _ | .unload _ => isTrue trivial

/-! ## the invariant -/

/-- The routes for an event of a plugin that is loaded or not. -/
def expectedRoutes (provider : Option Provider) (declared since : List String) (plugin event : String) : List Route :=
  match provider with
  | some p =>
    if event ∈ p.manifest.hooks ∨ event ∈ declared then [⟨p.manifest.priority, plugin, ⟨plugin, event⟩⟩] else []
  | none => if event ∈ since then [⟨DEFAULT_PRIORITY, plugin, ⟨plugin, event⟩⟩] else []

def State.expected (s : State) (plugin event : String) : List Route :=
  expectedRoutes (s.registry.providers plugin) (s.registry.declared plugin) (s.since plugin) plugin event

structure Inv (s : State) : Prop where
  own : s.registry.hooks.Own
  routes : ∀ plugin event, s.registry.hooks.routesOf plugin event = s.expected plugin event
  scripts : ∀ name p, s.registry.scripts name = some p → p.name = name

theorem Inv.new : Inv State.new := ⟨own_new, fun _ _ => rfl, nofun⟩

variable {s s' : State} {event plugin : String}

theorem eq_expected_of_perm {rs : List Route}
    (h : rs.Perm (s.expected plugin event)) : rs = s.expected plugin event := by
  have hone : s.expected plugin event = [] ∨ ∃ r, s.expected plugin event = [r] := by
    unfold expected expectedRoutes
    split <;> split <;> simp
  obtain hnil | ⟨r, hr⟩ := hone
  · rw [hnil] at h ⊢
    exact List.perm_nil.mp h
  · rw [hr] at h ⊢
    exact List.perm_singleton.mp h

/-- What is loaded and declared for other plugins does not change what is expected. -/
theorem expected_congr (hproviders : s'.registry.providers plugin = s.registry.providers plugin)
    (hdeclared : s'.registry.configHooks plugin = s.registry.configHooks plugin)
    (hsince : s'.since plugin = s.since plugin) : s'.expected plugin event = s.expected plugin event := by
  unfold expected AiRegistry.declared
  rw [hproviders, hdeclared, hsince]

section Steps

variable {s s' : State}

variable {r : AiRegistry} {m : Manifest} {p q : Provider} {plugin name event : String}

theorem routesOf_registerManifestHooks (h : r.hooks.Own) (event : String) :
    (r.registerManifestHooks m).hooks.routesOf m.name event =
      if event ∈ m.hooks ∨ event ∈ r.declared m.name then [⟨m.priority, m.name, ⟨m.name, event⟩⟩] else [] := by
  have hown : (r.hooks.unregisterOwner m.name).Own := own_unregisterOwner h
  split
  · next hmem => exact routesOf_registerAll_of_mem hown (List.mem_union_iff.mpr hmem)
  · next hmem =>
    refine List.perm_nil.mp ((routesOf_registerAll_ne hown (.inr ?_)).trans (.of_eq ?_))
    · rwa [List.mem_union_iff]
    · rw [routesOf_unregisterOwner, if_pos rfl]

theorem routesOf_registerManifestHooks_ne (h : r.hooks.Own)
    (hne : plugin ≠ m.name) (event : String) :
    ((r.registerManifestHooks m).hooks.routesOf plugin event).Perm (r.hooks.routesOf plugin event) := by
  refine (routesOf_registerAll_ne (own_unregisterOwner h) (.inl hne)).trans (.of_eq ?_)
  rw [routesOf_unregisterOwner, if_neg hne]

theorem Inv.registers (h : Inv s) (hp : p.manifest = m)
    (hproviders : r.providers = s.registry.providers.insert m.name p) (hhooks : r.hooks = s.registry.hooks)
    (hconfig : r.configHooks = s.registry.configHooks)
    (hscripts : ∀ name p, r.scripts name = some p → p.name = name) :
    Inv ⟨r.registerManifestHooks m, s.since⟩ := by
  have hown : r.hooks.Own := hhooks ▸ h.own
  refine ⟨own_registerAll (own_unregisterOwner hown), fun plugin event => ?_, hscripts⟩
  by_cases hplugin : plugin = m.name
  · subst hplugin
    rw [routesOf_registerManifestHooks hown]
    have hloaded : (r.registerManifestHooks m).providers m.name = some p := by
      show r.providers m.name = some p
      rw [hproviders, Table.insert_self]
    simp only [expected, expectedRoutes, hloaded, hp]
    rfl
  · refine eq_expected_of_perm ((routesOf_registerManifestHooks_ne hown hplugin event).trans (.of_eq ?_))
    rw [hhooks, h.routes]
    refine (expected_congr ?_ ?_ ?_).symm
    · show r.providers plugin = _
      rw [hproviders, Table.insert_apply, if_neg hplugin]
    · show r.configHooks plugin = _
      rw [hconfig]
    · rfl

theorem insertLoaded_providers : (r.insertLoaded p).providers = r.providers.insert p.name p := by
  unfold AiRegistry.insertLoaded
  split <;> rfl

theorem insertLoaded_hooks : (r.insertLoaded p).hooks = r.hooks := by
  unfold AiRegistry.insertLoaded
  split <;> rfl

theorem insertLoaded_configHooks : (r.insertLoaded p).configHooks = r.configHooks := by
  unfold AiRegistry.insertLoaded
  split <;> rfl

theorem insertLoaded_sidecars
    (h : (r.insertLoaded p).sidecars name = some q) : r.sidecars name = some q ∨ name = p.name ∧ q = p := by
  unfold AiRegistry.insertLoaded at h
  split at h
  · simp only [AiRegistry.insert, Table.insert_apply] at h
    split at h
    · next hname => exact .inr ⟨hname, (Option.some.inj h).symm⟩
    · exact .inl h
  · exact .inl h
  · exact .inl h

theorem insertLoaded_scripts
    (h : (r.insertLoaded p).scripts name = some q) : r.scripts name = some q ∨ name = p.name ∧ q = p := by
  unfold AiRegistry.insertLoaded at h
  split at h
  · exact .inl h
  · exact .inl h
  · simp only [AiRegistry.insertScript, Table.insert_apply] at h
    split at h
    · next hname => exact .inr ⟨hname, (Option.some.inj h).symm⟩
    · exact .inl h

theorem Inv.load (h : Inv s) {dir : String} {started : Nat} :
    Inv ⟨s.registry.load m dir started, s.since⟩ := by
  refine h.registers rfl insertLoaded_providers insertLoaded_hooks insertLoaded_configHooks fun name p hp => ?_
  obtain hp | ⟨rfl, rfl⟩ := insertLoaded_scripts hp
  · exact h.scripts name p hp
  · rfl

theorem Inv.drops (h : Inv s)
    (hproviders : r.providers = s.registry.providers.erase name) (hhooks : r.hooks = s.registry.hooks.unregisterOwner name)
    (hconfig : r.configHooks = s.registry.configHooks)
    (hscripts : ∀ name p, r.scripts name = some p → p.name = name) : Inv ⟨r, Function.update s.since name []⟩ := by
  refine ⟨hhooks ▸ own_unregisterOwner h.own, fun plugin event => ?_, hscripts⟩
  show r.hooks.routesOf plugin event = _
  rw [hhooks, routesOf_unregisterOwner]
  by_cases hplugin : plugin = name
  · subst hplugin
    simp [expected, expectedRoutes, hproviders, Table.erase_apply]
  · rw [if_neg hplugin, h.routes]
    refine (expected_congr ?_ ?_ ?_).symm
    · rw [hproviders, Table.erase_apply, if_neg hplugin]
    · rw [hconfig]
    · exact Function.update_of_ne hplugin _ _

theorem Inv.remove (h : Inv s) : Inv ⟨s.registry.remove name, Function.update s.since name []⟩ := by
  refine h.drops rfl rfl rfl fun name' p hp => h.scripts name' p ?_
  replace hp : s.registry.scripts.erase name name' = some p := hp
  rw [Table.erase_apply] at hp
  split at hp
  · contradiction
  · exact hp

theorem mem_declared {event' : String} :
    event' ∈ (r.declareConfigHook plugin event).declared plugin ↔ event' = event ∨ event' ∈ r.declared plugin := by
  simp only [AiRegistry.declared, AiRegistry.declareConfigHook, Table.insert_self, Option.getD_some,
    List.mem_insert_iff]

theorem Inv.declare (h : Inv s) (ha : Aligned s (.declareConfigHook plugin event)) :
    Inv ⟨s.registry.declareConfigHook plugin event, Function.update s.since plugin (event :: s.since plugin)⟩ := by
  refine ⟨own_registerOwned h.own, fun plugin' event' => ?_, h.scripts⟩
  by_cases hplugin : plugin' = plugin
  · subst hplugin
    by_cases hevent : event' = event
    · subst hevent
      refine (routesOf_registerOwned_self h.own).trans ?_
      cases hp : s.registry.providers plugin' with
      | none => simp [expected, expectedRoutes, AiRegistry.declareConfigHook, AiRegistry.declaredPriority, hp]
      | some p =>
        have hpriority := ha p hp
        have hwants : event' ∈ (s.registry.declareConfigHook plugin' event').declared plugin' := mem_declared.mpr (.inl rfl)
        have hsame : (s.registry.declareConfigHook plugin' event').providers plugin' = some p := hp
        simp [expected, expectedRoutes, hsame, hwants, hpriority]
    · refine eq_expected_of_perm ((routesOf_registerOwned_ne h.own (.inr hevent)).trans (.of_eq ?_))
      rw [h.routes]
      have hsame : (s.registry.declareConfigHook plugin' event).providers plugin' = s.registry.providers plugin' := rfl
      simp only [expected, expectedRoutes, hsame, mem_declared, hevent, false_or, Function.update_self, List.mem_cons]
  · refine eq_expected_of_perm ((routesOf_registerOwned_ne h.own (.inl hplugin)).trans (.of_eq ?_))
    rw [h.routes]
    refine (expected_congr ?_ ?_ ?_).symm
    · rfl
    · show s.registry.configHooks.insert plugin _ plugin' = _
      rw [Table.insert_apply, if_neg hplugin]
    · exact Function.update_of_ne hplugin _ _

theorem Inv.reloadScript (h : Inv s) (ha : Aligned s (.reloadScript name m))
    (hstep : s.step (.reloadScript name m) = some s') : Inv s' := by
  obtain ⟨rfl, hloaded⟩ := ha
  simp only [State.step] at hstep
  split at hstep
  · next p hp =>
    split at hstep
    · obtain rfl := Option.some.inj hstep
      have hname : p.name = m.name := h.scripts _ p hp
      have hsame : s.registry.providers p.name = some p := by rw [hname, hloaded, hp]
      refine h.registers (p := { p with manifest := m }) rfl ?_ rfl rfl fun name p' hp' => ?_
      · simp only [AiRegistry.swapped, if_pos hsame]
        rw [hname]
      · simp only [AiRegistry.swapped, Table.insert_apply] at hp'
        split at hp'
        · next hkey =>
          obtain rfl := Option.some.inj hp'
          exact hkey.symm
        · exact h.scripts name p' hp'
    · contradiction
  · contradiction

end Steps

/-! ## runs -/

theorem Inv.step {a : Action} (h : Inv s) (ha : Aligned s a) (hstep : s.step a = some s') : Inv s' := by
  cases a with
  | load m dir started =>
    obtain rfl := Option.some.inj hstep
    exact h.load
  | remove name =>
    obtain rfl := Option.some.inj hstep
    exact h.remove
  | declareConfigHook plugin event =>
    obtain rfl := Option.some.inj hstep
    exact h.declare ha
  | unload name =>
    simp only [State.step] at hstep
    split at hstep
    · obtain rfl := Option.some.inj hstep
      exact h.drops rfl rfl rfl h.scripts
    · contradiction
  | reloadScript name m => exact h.reloadScript ha hstep

theorem Inv.routed (h : Inv s) : Routed s := by
  refine ⟨fun plugin p event hp hwants => ?_, fun event r hr hgone => ?_, s.registry.hooks.sorted⟩
  · rw [h.routes]
    simp only [expected, expectedRoutes, hp]
    exact if_pos hwants
  · have hmem : r ∈ s.expected r.owner event := by
      rw [← h.routes]
      exact List.mem_filter.mpr ⟨hr, decide_eq_true rfl⟩
    simp only [expected, expectedRoutes, hgone] at hmem
    split at hmem
    · assumption
    · contradiction

/-- In every run whose declarations and script reloads find the right priority and
name, the hooks are routed as they should be. -/
theorem hooks_routed {acts : List Action} {s : State} (hexec : exec State.step State.new acts = some s)
    (hmeets : Meets State.step Aligned State.new acts) : Routed s :=
  (exec_invariant_of_meets (fun _ _ _ h ha hstep => h.step ha hstep) hexec hmeets .new : Inv s).routed

def sidecarManifest : Manifest := ⟨"tts", .sidecar, ["on_dialog_terminated"], 10⟩

def scriptManifest : Manifest := ⟨"ivr", .script, ["on_dialog_terminated"], 20⟩

/-- A sidecar and a script, hooks declared before and after their loads, and reloads of both. -/
def alignedRun : List Action :=
  [.declareConfigHook "ivr" "on_dialog_created", .load sidecarManifest "plugins/tts" 0,
    .load scriptManifest "plugins/ivr" 1, .declareConfigHook "tts" "on_dialog_created", .unload "tts",
    .load { sidecarManifest with priority := 30 } "plugins/tts" 2, .reloadScript "ivr" scriptManifest]

theorem hooks_routed_alignedRun : ∃ s, exec State.step State.new alignedRun = some s ∧
      (s.registry.hooks.routes "on_dialog_created").map (fun r => (r.priority, r.owner)) = [(20, "ivr"), (30, "tts")] ∧
      Routed s := by
  obtain ⟨s, hexec⟩ := Option.isSome_iff_exists.mp
    (by decide +kernel : (exec State.step State.new alignedRun).isSome = true)
  have hview : (exec State.step State.new alignedRun).map
      (fun s => (s.registry.hooks.routes "on_dialog_created").map fun r => (r.priority, r.owner)) =
        some [(20, "ivr"), (30, "tts")] := by
    decide +kernel
  rw [hexec, Option.map_some, Option.some.injEq] at hview
  exact ⟨s, hexec, hview, hooks_routed hexec (by decide +kernel)⟩

/-- A hook is declared for a script that is loaded already. -/
def lateDeclaration : List Action :=
  [.load scriptManifest "plugins/ivr" 0, .declareConfigHook "ivr" "on_dialog_created"]

/-- It runs at the default priority, where one declared before the load runs at the
script's own. -/
theorem declared_late : (∃ s, exec State.step State.new lateDeclaration = some s ∧
      s.registry.hooks.routes "on_dialog_created" = [⟨50, "ivr", ⟨"ivr", "on_dialog_created"⟩⟩] ∧ ¬ Routed s) ∧
    ∃ s, exec State.step State.new lateDeclaration.reverse = some s ∧
      s.registry.hooks.routes "on_dialog_created" = [⟨20, "ivr", ⟨"ivr", "on_dialog_created"⟩⟩] := by
  constructor
  · refine ⟨_, rfl, by decide +kernel, fun h => ?_⟩
    have honce := h.once "ivr" ⟨"ivr", scriptManifest, "plugins/ivr", 0⟩ "on_dialog_created" (by decide +kernel)
      (.inr (by decide +kernel))
    exact absurd honce (by decide +kernel)
  · exact ⟨_, rfl, by decide +kernel⟩

end SmithsNet.Plugin
