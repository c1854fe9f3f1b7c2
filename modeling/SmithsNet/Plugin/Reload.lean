import SmithsNet.Lib.Slots
import SmithsNet.Plugin.Registry

/-!
# SmithsNet.Plugin.Reload

Reloads of plugins (`smiths-plugin/src/registry.rs`, `loader.rs` and `watcher.rs`):
those a change of a file leads to, after a delay and unless a further change aborts
them, and those that are called for.

A script is reloaded in place.  Of a sidecar the old process is stopped and its
entries are removed before the new one is started, which may fail at every step of
the way, or be aborted at every await; `reload_script_source` writes the new source
before it is compiled.

`plugins_kept`: in every run in which no reload of a sidecar ends without success
once the old process is stopped, no reload of a source once it is written, and in
which reloads do not find the name of another plugin in the manifest, every plugin
that was loaded is registered, with its routes and a process that is not stopped, or
a reload is about to register it; and a reload without success leaves the source.
-/

namespace SmithsNet.Plugin.Reloads

open Lib
open Option (bind_eq_bind bind_eq_some_iff mem_unique)

/-- Where a reload is. -/
inductive Phase
  /-- Debounced, or called and not begun. -/
  | waiting
  /-- A script is compiled and asked for its capabilities. -/
  | compiling (p : Provider)
  /-- The sidecar is asked to exit. -/
  | asking (p : Provider)
  /-- Its supervisor is cancelled, and awaited. -/
  | stopping (p : Provider)
  /-- `load_one` -/
  | loading (p : Provider)
  | succeeded
  /-- It has failed or was aborted. -/
  | failed
  deriving DecidableEq

structure Reload where
  name : String
  phase : Phase
  /-- It has replaced the source on the disk. -/
  written : Bool
  deriving DecidableEq

namespace Reload

/-- The sidecar it has taken from the registry. -/
def taken (r : Reload) : Option Provider :=
  match r.phase with
  | .asking p | .stopping p | .loading p => some p
  | .waiting | .compiling _ | .succeeded | .failed => none

/-- The script it has taken. -/
def script (r : Reload) : Option Provider :=
  match r.phase with
  | .compiling p => some p
  | _ => none

/-- The directory of the plugin of which it has stopped the old version. -/
def replacing (r : Reload) : Option String :=
  match r.phase with
  | .stopping p | .loading p => some p.dir
  | .waiting | .compiling _ | .asking _ | .succeeded | .failed => none

def ended (r : Reload) : Bool :=
  match r.phase with
  | .succeeded | .failed => true
  | .waiting | .compiling _ | .asking _ | .stopping _ | .loading _ => false

end Reload

structure State where
  registry : AiRegistry
  /-- The directories of all that was started so far, and which of it was stopped. -/
  started : List String
  stopped : List Nat
  /-- The directories of the plugins that were loaded. -/
  loaded : List String
  /-- The entry files, by directory. -/
  sources : Table String String
  reloads : List Reload
  /-- The watcher's last reload of each plugin. -/
  pending : Table String Nat

def State.new (configHooks : Table String (List String)) (sources : Table String String) : State where
  registry := { AiRegistry.new with configHooks := configHooks }
  started := []
  stopped := []
  loaded := []
  sources := sources
  reloads := []
  pending := .empty

inductive Action
  /-- `load_plugins` loads a directory. -/
  | load (m : Manifest) (dir : String)
  /-- Somebody edits a source. -/
  | edit (dir source : String)
  /-- The watcher sees a change of a plugin. -/
  | event (name : String)
  /-- `AiRegistry::reload` -/
  | reload (name : String)
  /-- `AiRegistry::reload_script_source`, and whether it could write the source. -/
  | reloadScriptSource (name source : String) (ok : Bool)
  | begin (n : Nat)
  | cancel (n : Nat)
  | unload (n : Nat)
  /-- `load_one` succeeds, with the manifest it has read. -/
  | finish (n : Nat) (m : Manifest)
  /-- The script compiles, and its runtime is swapped in. -/
  | swap (n : Nat) (m : Manifest)
  | fail (n : Nat)

namespace State

/-- Reload `n` moves on. -/
def move (s : State) (n : Nat) (r : Reload) (phase : Phase) : State :=
  { s with reloads := s.reloads.set n { r with phase := phase } }

/-- Abort the task if it is still running. -/
def abort (s : State) (n : Nat) : State :=
  match s.reloads[n]? with
  | some r => if r.ended then s else s.move n r .failed
  | none => s

def step (s : State) : Action → Option State
  | .load m dir =>
    some { s with
      registry := s.registry.load m dir s.started.length
      started := s.started ++ [dir]
      loaded := dir :: s.loaded }
  | .edit dir source => some { s with sources := s.sources.insert dir source }
  | .event name =>
    let aborted := match s.pending name with
      | some n => s.abort n
      | none => s
    some { aborted with
      reloads := aborted.reloads ++ [⟨name, .waiting, false⟩]
      pending := s.pending.insert name s.reloads.length }
  | .reload name => some { s with reloads := s.reloads ++ [⟨name, .waiting, false⟩] }
  | .reloadScriptSource name source ok =>
    some (match s.registry.scripts name with
      | some p =>
        if ok then
          { s with
            sources := s.sources.insert p.dir source
            reloads := s.reloads ++ [⟨name, .compiling p, true⟩] }
        else { s with reloads := s.reloads ++ [⟨name, .failed, false⟩] }
      | none => { s with reloads := s.reloads ++ [⟨name, .failed, false⟩] })
  | .begin n => do
      let r ← s.reloads[n]?
      match r.phase with
      | .waiting =>
        some (match s.registry.scripts r.name, s.registry.sidecars r.name with
          | some p, _ => s.move n r (.compiling p)
          | none, some p => s.move n r (.asking p)
          | none, none => s.move n r .failed)
      | _ => none
  | .cancel n => do
      let r ← s.reloads[n]?
      match r.phase with
      | .asking p => some { s.move n r (.stopping p) with stopped := p.started :: s.stopped }
      | _ => none
  | .unload n => do
      let r ← s.reloads[n]?
      match r.phase with
      | .stopping p => some { s.move n r (.loading p) with registry := s.registry.unload r.name }
      | _ => none
  | .finish n m => do
      let r ← s.reloads[n]?
      match r.phase with
      | .loading p =>
        some { s.move n r .succeeded with
          registry := s.registry.load m p.dir s.started.length
          started := s.started ++ [p.dir] }
      | _ => none
  | .swap n m => do
      let r ← s.reloads[n]?
      match r.phase with
      | .compiling p =>
        if m.pluginType = .script then
          -- the runtime is swapped in the provider that was taken, registered or not
          let registry := match s.registry.scripts r.name with
            | some q => if q.started = p.started then s.registry.swapped q m else s.registry
            | none => s.registry
          some { s.move n r .succeeded with registry := registry.registerManifestHooks m }
        else none
      | _ => none
  | .fail n => do
      let r ← s.reloads[n]?
      match r.phase with
      | .compiling _ | .loading _ => some (s.move n r .failed)
      | _ => none

/-- The plugin of a directory is registered, runs and has its routes. -/
def Registered (s : State) (dir : String) : Prop :=
  ∃ name p, s.registry.providers name = some p ∧ p.dir = dir ∧ p.started ∉ s.stopped ∧
    ∀ event, event ∈ p.manifest.hooks ∨ event ∈ s.registry.declared name → s.registry.hooks.routesOf name event ≠ []

/-- What reloads must leave. -/
structure Kept (s : State) : Prop where
  /-- A plugin that was loaded is registered, or is about to be. -/
  registered : ∀ dir ∈ s.loaded, s.Registered dir ∨ ∃ r ∈ s.reloads, r.replacing = some dir
  source : ∀ r ∈ s.reloads, r.phase = .failed → r.written = false

/-- No plugin and no reload has this name. -/
def Fresh (s : State) (name : String) : Prop :=
  s.registry.providers name = none ∧ s.registry.sidecars name = none ∧ s.registry.scripts name = none ∧
    ∀ r ∈ s.reloads, r.taken ≠ none → r.name ≠ name

instance (s : State) (name : String) : Decidable (s.Fresh name) := inferInstanceAs (Decidable (_ ∧ _ ∧ _ ∧ ∀ r ∈ _, _))

end State

/-- The steps that lose nothing. -/
def Safe (s : State) : Action → Prop
  | .load m _ => s.Fresh m.name
  | .event name => ∀ n ∈ s.pending name, ∀ r ∈ s.reloads[n]?, r.replacing = none
  | .finish n m => ∀ r ∈ s.reloads[n]?, m.name = r.name ∨ s.Fresh m.name
  | .swap n m => ∀ r ∈ s.reloads[n]?, m.name = r.name ∧ s.registry.providers r.name = s.registry.scripts r.name ∧
      ∀ p ∈ r.script, (s.registry.scripts r.name).map (·.started) = some p.started
  | .fail n => ∀ r ∈ s.reloads[n]?, r.replacing = none ∧ r.written = false
  | _ => True

instance (s : State) : DecidablePred (Safe s)
  | .load m _ => inferInstanceAs (Decidable (s.Fresh m.name))
  | .event _ => inferInstanceAs (Decidable (∀ n ∈ _, ∀ r ∈ s.reloads[n]?, _))
  | .finish _ _ => inferInstanceAs (Decidable (∀ r ∈ _, _ ∨ _))
  | .swap _ _ => inferInstanceAs (Decidable (∀ r ∈ _, _ ∧ _ ∧ ∀ p ∈ Reload.script r, _))
  | .fail _ => inferInstanceAs (Decidable (∀ r ∈ _, _ ∧ _))
  | .edit _ _ | .reload _ | .reloadScriptSource _ _ _ | .begin _ | .cancel _ | .unload _ => isTrue trivial

/-! ## the invariant -/

/-- The provider is of the directory its name stands for, and so it was started. -/
structure Of (started : List String) (owner : String → String) (name : String) (p : Provider) : Prop where
  dir : p.dir = owner name
  started : started[p.started]? = some p.dir

/-- Some running version of the plugin of a directory is in the provider map. -/
def Live (s : State) (dir : String) : Prop :=
  ∃ name p, s.registry.providers name = some p ∧ p.dir = dir ∧ p.started ∉ s.stopped

/-- `owner` says which directory a name stands for. -/
structure Inv (s : State) (owner : String → String) : Prop where
  own : s.registry.hooks.Own
  providers : ∀ name p, s.registry.providers name = some p → Of s.started owner name p
  sidecars : ∀ name p, s.registry.sidecars name = some p → Of s.started owner name p
  scripts : ∀ name p, s.registry.scripts name = some p → p.name = name ∧ Of s.started owner name p
  taken : ∀ r ∈ s.reloads, ∀ p, r.taken = some p → Of s.started owner r.name p
  routed : ∀ name p, s.registry.providers name = some p → ∀ event,
    event ∈ p.manifest.hooks ∨ event ∈ s.registry.declared name → s.registry.hooks.routesOf name event ≠ []
  kept : ∀ dir ∈ s.loaded, Live s dir ∨ ∃ r ∈ s.reloads, r.replacing = some dir
  stopped : ∀ k ∈ s.stopped, k < s.started.length
  /-- Only the reload of a script writes its source. -/
  source : ∀ r ∈ s.reloads, r.script = none → r.phase ≠ .succeeded → r.written = false
  /-- The watcher's reloads write nothing. -/
  pending : ∀ name n, s.pending name = some n → ∃ r, s.reloads[n]? = some r ∧ r.written = false

theorem Inv.new (configHooks : Table String (List String)) (sources : Table String String) (owner : String → String) :
    Inv (State.new configHooks sources) owner := by
  refine ⟨MemoryDispatcher.own_new, ?_, ?_, ?_, ?_, ?_, ?_, ?_, ?_, ?_⟩ <;> intros <;> contradiction

variable {s : State} {owner : String → String}

theorem Inv.keeps (h : Inv s owner) : s.Kept := by
  refine ⟨fun dir hdir => (h.kept dir hdir).imp ?_ id, fun r hr hphase => ?_⟩
  · rintro ⟨name, p, hp, hdir, hrun⟩
    exact ⟨name, p, hp, hdir, hrun, h.routed name p hp⟩
  · exact h.source r hr (by rw [Reload.script, hphase]) (by rw [hphase]; nofun)

section Reloads

variable {s : State} {owner : String → String} {n : Nat} {r : Reload}

theorem Inv.begins (h : Inv s owner) (hnew : r.taken = none) (hwritten : r.script = none → r.written = false) :
    Inv { s with reloads := s.reloads ++ [r] } owner := by
  have hmem : ∀ r', r' ∈ s.reloads ++ [r] → r' ∈ s.reloads ∨ r' = r := by
    intro r' hr'
    exact (List.mem_append.mp hr').imp id List.mem_singleton.mp
  refine ⟨h.own, h.providers, h.sidecars, h.scripts, fun r' hr' p hp => ?_, h.routed, fun dir hdir => ?_, h.stopped,
    fun r' hr' hscript hphase => ?_, fun name m hm => ?_⟩
  · obtain hr' | rfl := hmem r' hr'
    · exact h.taken r' hr' p hp
    · rw [hnew] at hp
      contradiction
  · refine (h.kept dir hdir).imp id ?_
    rintro ⟨r', hr', hreplacing⟩
    exact ⟨r', List.mem_append_left _ hr', hreplacing⟩
  · obtain hr' | rfl := hmem r' hr'
    · exact h.source r' hr' hscript hphase
    · exact hwritten hscript
  · obtain ⟨r', hr', hwritten⟩ := h.pending name m hm
    exact ⟨r', List.getElem?_append_left (List.getElem?_eq_some_iff.mp hr').1 ▸ hr', hwritten⟩

section

variable (h : Inv s owner) (hr : s.reloads[n]? = some r)
include h hr

/-- A reload moves on, and what it was replacing it still is, or is live. -/
theorem Inv.moves {phase : Phase}
    (htaken : ∀ p, Reload.taken { r with phase := phase } = some p → Of s.started owner r.name p)
    (hreplacing : ∀ dir, r.replacing = some dir → Reload.replacing { r with phase := phase } = some dir ∨ Live s dir)
    (hwritten : r.written = false ∨ phase = .succeeded) : Inv (s.move n r phase) owner := by
  have hmem : ∀ r', r' ∈ s.reloads.set n { r with phase := phase } → r' ∈ s.reloads ∨ r' = { r with phase := phase } :=
    fun r' => List.mem_or_eq_of_mem_set
  refine ⟨h.own, h.providers, h.sidecars, h.scripts, fun r' hr' p hp => ?_, h.routed, fun dir hdir => ?_, h.stopped,
    fun r' hr' hscript hphase => ?_, fun name m hm => ?_⟩
  · obtain hr' | rfl := hmem r' hr'
    · exact h.taken r' hr' p hp
    · exact htaken p hp
  · obtain hlive | ⟨r', hr', hdir'⟩ := h.kept dir hdir
    · exact .inl hlive
    · obtain hsame | hother := mem_set_of_mem (n := n) (g := { r with phase := phase }) hr'
      · obtain rfl := mem_unique hr hsame
        obtain hstill | hlive := hreplacing dir hdir'
        · exact .inr ⟨_, mem_set_self hr, hstill⟩
        · exact .inl hlive
      · exact .inr ⟨r', hother, hdir'⟩
  · obtain hr' | rfl := hmem r' hr'
    · exact h.source r' hr' hscript hphase
    · exact hwritten.resolve_right hphase
  · obtain ⟨r', hr', hwritten⟩ := h.pending name m hm
    by_cases hmn : n = m
    · subst hmn
      obtain rfl := mem_unique hr hr'
      exact ⟨_, List.getElem?_set_self (List.getElem?_eq_some_iff.mp hr).1, hwritten⟩
    · exact ⟨r', (List.getElem?_set_ne hmn).trans hr', hwritten⟩

theorem Inv.not_written (hscript : r.script = none)
    (hphase : r.phase ≠ .succeeded) : r.written = false :=
  h.source r (List.mem_of_getElem? hr) hscript hphase

theorem taken_of_mem {p : Provider} (hp : r.taken = some p) : Of s.started owner r.name p :=
  h.taken r (List.mem_of_getElem? hr) p hp

end

@[simp] theorem abort_pending (s : State) (n : Nat) : (s.abort n).pending = s.pending := by
  unfold State.abort
  split
  · split <;> rfl
  · rfl

@[simp] theorem length_abort (s : State) (n : Nat) : (s.abort n).reloads.length = s.reloads.length := by
  unfold State.abort
  split
  · split
    · rfl
    · exact List.length_set
  · rfl

theorem Inv.abort (h : Inv s owner) (hwritten : ∀ r, s.reloads[n]? = some r → r.written = false)
    (hfree : ∀ r, s.reloads[n]? = some r → r.replacing = none) : Inv (s.abort n) owner := by
  unfold State.abort
  split
  · next r hr =>
    split
    · exact h
    · refine h.moves hr nofun (fun dir hdir => ?_) (.inl (hwritten r hr))
      rw [hfree r hr] at hdir
      contradiction
  · exact h

variable {s' : State}

section

variable (h : Inv s owner)
include h

theorem Inv.event {name : String} (hsafe : Safe s (.event name))
    (hstep : s.step (.event name) = some s') : Inv s' owner := by
  obtain rfl := Option.some.inj hstep
  generalize hs₁ : (match s.pending name with | some n => s.abort n | none => s) = s₁
  have hsame : Inv s₁ owner ∧ s₁.pending = s.pending ∧ s₁.reloads.length = s.reloads.length := by
    subst hs₁
    split
    · next n hn =>
      obtain ⟨r, hr, hwritten⟩ := h.pending name n hn
      refine ⟨h.abort (fun r' hr' => ?_) fun r' hr' => hsafe n hn r' hr', abort_pending s n, length_abort s n⟩
      obtain rfl := mem_unique hr hr'
      exact hwritten
    · exact ⟨h, rfl, rfl⟩
  obtain ⟨h₁, hpending, hlength⟩ := hsame
  have h₂ : Inv { s₁ with reloads := s₁.reloads ++ [⟨name, .waiting, false⟩] } owner := h₁.begins rfl fun _ => rfl
  refine ⟨h₂.own, h₂.providers, h₂.sidecars, h₂.scripts, h₂.taken, h₂.routed, h₂.kept, h₂.stopped, h₂.source,
    fun name' m hm => ?_⟩
  replace hm : s.pending.insert name s.reloads.length name' = some m := hm
  rw [Table.insert_apply] at hm
  split at hm
  · obtain rfl := Option.some.inj hm
    rw [← hlength]
    exact ⟨⟨name, .waiting, false⟩, List.getElem?_concat_length, rfl⟩
  · exact h₂.pending name' m (hpending ▸ hm)

theorem Inv.begin (hstep : s.step (.begin n) = some s') : Inv s' owner := by
  obtain ⟨r, hr, hstep⟩ := bind_eq_some_iff.mp hstep
  split at hstep
  · next hphase =>
    obtain rfl := Option.some.inj hstep
    have hfree : ∀ dir, r.replacing ≠ some dir := by simp [Reload.replacing, hphase]
    have hwritten := h.not_written hr (by rw [Reload.script, hphase]) (by rw [hphase]; nofun)
    split
    · exact h.moves hr nofun (fun dir hdir => absurd hdir (hfree dir)) (.inl hwritten)
    · next p _ hp =>
      refine h.moves hr (fun p' hp' => ?_) (fun dir hdir => absurd hdir (hfree dir)) (.inl hwritten)
      obtain rfl := Option.some.inj hp'
      exact h.sidecars r.name p hp
    · exact h.moves hr nofun (fun dir hdir => absurd hdir (hfree dir)) (.inl hwritten)
  · contradiction

theorem Inv.fail (hsafe : Safe s (.fail n)) (hstep : s.step (.fail n) = some s') :
    Inv s' owner := by
  obtain ⟨r, hr, hstep⟩ := bind_eq_some_iff.mp hstep
  obtain ⟨hfree, hwritten⟩ := hsafe r hr
  have hmoved : Inv (s.move n r .failed) owner := by
    refine h.moves hr nofun (fun dir hdir => ?_) (.inl hwritten)
    rw [hfree] at hdir
    contradiction
  split at hstep
  · obtain rfl := Option.some.inj hstep
    exact hmoved
  · obtain rfl := Option.some.inj hstep
    exact hmoved
  · contradiction

/-- The old process is stopped; the reload that does it is replacing the plugin. -/
theorem Inv.cancel (hstep : s.step (.cancel n) = some s') : Inv s' owner := by
  obtain ⟨r, hr, hstep⟩ := bind_eq_some_iff.mp hstep
  split at hstep
  · next p hphase =>
    obtain rfl := Option.some.inj hstep
    have hof : Of s.started owner r.name p := taken_of_mem h hr (by simp [Reload.taken, hphase])
    have h₁ : Inv (s.move n r (.stopping p)) owner := by
      refine h.moves hr (fun p' hp' => ?_) (fun dir hdir => ?_)
        (.inl (h.not_written hr (by rw [Reload.script, hphase]) (by rw [hphase]; nofun)))
      · obtain rfl := Option.some.inj hp'
        exact hof
      · simp [Reload.replacing, hphase] at hdir
    have hreplacing : ∃ r' ∈ (s.move n r (.stopping p)).reloads, r'.replacing = some p.dir :=
      ⟨_, mem_set_self hr, rfl⟩
    refine ⟨h₁.own, h₁.providers, h₁.sidecars, h₁.scripts, h₁.taken, h₁.routed, fun dir hdir => ?_, ?_, h₁.source,
      h₁.pending⟩
    · obtain ⟨name, q, hq, rfl, hrun⟩ | hother := h₁.kept dir hdir
      · by_cases hsame : q.started = p.started
        · right
          have hstarted := (h₁.providers name q hq).started
          rw [hsame] at hstarted
          obtain hdirs : p.dir = q.dir := mem_unique hof.started hstarted
          rw [← hdirs]
          exact hreplacing
        · refine .inl ⟨name, q, hq, rfl, ?_⟩
          rw [List.mem_cons, not_or]
          exact ⟨hsame, hrun⟩
      · exact .inr hother
    · rw [List.forall_mem_cons]
      exact ⟨(List.getElem?_eq_some_iff.mp hof.started).1, h.stopped⟩
  · contradiction

end

end Reloads

section Registry

variable {s s' : State} {owner : String → String} {n : Nat} {r : Reload}

variable {g : AiRegistry} {m : Manifest} {k : Nat} {name dir : String}

theorem Inv.drops (h : Inv s owner) (hreplacing : ∃ r ∈ s.reloads, r.replacing = some (owner name)) :
    Inv { s with registry := s.registry.unload name } owner := by
  have hproviders : ∀ name' p, s.registry.providers.erase name name' = some p →
      name' ≠ name ∧ s.registry.providers name' = some p := by
    intro name' p hp
    rw [Table.erase_apply] at hp
    split at hp
    · contradiction
    · next hne => exact ⟨hne, hp⟩
  refine ⟨MemoryDispatcher.own_unregisterOwner h.own, fun name' p hp => h.providers name' p (hproviders name' p hp).2,
    fun name' p hp => ?_, h.scripts, h.taken, fun name' p hp event hwants => ?_, fun dir hdir => ?_, h.stopped, h.source,
    h.pending⟩
  · replace hp : s.registry.sidecars.erase name name' = some p := hp
    rw [Table.erase_apply] at hp
    split at hp
    · contradiction
    · exact h.sidecars name' p hp
  · obtain ⟨hne, hp⟩ := hproviders name' p hp
    have hroutes := h.routed name' p hp event hwants
    show (s.registry.hooks.unregisterOwner name).routesOf name' event ≠ []
    rwa [MemoryDispatcher.routesOf_unregisterOwner, if_neg hne]
  · obtain ⟨name', p, hp, rfl, hrun⟩ | hother := h.kept dir hdir
    · by_cases hname : name' = name
      · subst hname
        rw [(h.providers name' p hp).dir]
        exact .inr hreplacing
      · refine .inl ⟨name', p, ?_, rfl, hrun⟩
        show s.registry.providers.erase name name' = some p
        rwa [Table.erase_apply, if_neg hname]
    · exact .inr hother

theorem Inv.unload (h : Inv s owner) (hstep : s.step (.unload n) = some s') : Inv s' owner := by
  obtain ⟨r, hr, hstep⟩ := bind_eq_some_iff.mp hstep
  split at hstep
  · next p hphase =>
    obtain rfl := Option.some.inj hstep
    have hof : Of s.started owner r.name p := taken_of_mem h hr (by simp [Reload.taken, hphase])
    have h₁ : Inv (s.move n r (.loading p)) owner := by
      refine h.moves hr (fun p' hp' => ?_) (fun dir hdir => .inl ?_)
        (.inl (h.not_written hr (by rw [Reload.script, hphase]) (by rw [hphase]; nofun)))
      · obtain rfl := Option.some.inj hp'
        exact hof
      · rw [← hdir]
        simp [Reload.replacing, hphase]
    refine h₁.drops ⟨_, mem_set_self hr, ?_⟩
    rw [← hof.dir]
    rfl
  · contradiction

theorem load_providers :
    (g.load m dir k).providers = g.providers.insert m.name ⟨m.name, m, dir, k⟩ :=
  insertLoaded_providers

/-- After a load the plugin's hooks have routes, and the routes of others stay. -/
theorem routesOf_load (h : g.hooks.Own) {event : String}
    (hold : name ≠ m.name → g.hooks.routesOf name event ≠ [])
    (hnew : name = m.name → event ∈ m.hooks ∨ event ∈ g.declared name) :
    (g.load m dir k).hooks.routesOf name event ≠ [] := by
  have hown : (g.insertLoaded ⟨m.name, m, dir, k⟩).hooks.Own := by rwa [insertLoaded_hooks]
  by_cases hname : name = m.name
  · subst hname
    rw [AiRegistry.load, routesOf_registerManifestHooks hown, if_pos]
    · nofun
    · simpa only [AiRegistry.declared, insertLoaded_configHooks] using hnew rfl
  · intro hnil
    have hperm := routesOf_registerManifestHooks_ne hown hname event
    rw [← AiRegistry.load, hnil, insertLoaded_hooks] at hperm
    exact hold hname (List.nil_perm.mp hperm)

section

variable (h : Inv s owner)
include h

/-- A plugin is loaded under its own name, or under one that is free. -/
theorem Inv.loads (hname : owner m.name = dir ∨ s.Fresh m.name) : Inv { s with
      registry := s.registry.load m dir s.started.length
      started := s.started ++ [dir] } (Function.update owner m.name dir) := by
  -- what went by this name before is of the same directory
  have hof : ∀ name p, Of s.started owner name p → (name = m.name → owner name = dir) →
      Of (s.started ++ [dir]) (Function.update owner m.name dir) name p := by
    intro name p hp hsame
    refine ⟨?_, List.getElem?_append_left (List.getElem?_eq_some_iff.mp hp.started).1 ▸ hp.started⟩
    rw [Function.update_apply]
    split
    · next heq => rw [hp.dir, hsame heq]
    · exact hp.dir
  have hnew : Of (s.started ++ [dir]) (Function.update owner m.name dir) m.name ⟨m.name, m, dir, s.started.length⟩ :=
    ⟨by rw [Function.update_self], List.getElem?_concat_length⟩
  have hproviders : ∀ name p, (s.registry.load m dir s.started.length).providers name = some p →
      name ≠ m.name ∧ s.registry.providers name = some p ∨ name = m.name ∧ p = ⟨m.name, m, dir, s.started.length⟩ := by
    intro name p hp
    rw [load_providers, Table.insert_apply] at hp
    split at hp
    · next heq => exact .inr ⟨heq, (Option.some.inj hp).symm⟩
    · next hne => exact .inl ⟨hne, hp⟩
  have hconfig : ∀ name, (s.registry.load m dir s.started.length).declared name = s.registry.declared name := by
    intro name
    show ((s.registry.insertLoaded _).configHooks name).getD [] = _
    rw [insertLoaded_configHooks]
    rfl
  have hrun : s.started.length ∉ s.stopped := fun hmem => Nat.lt_irrefl _ (h.stopped _ hmem)
  have hown : (s.registry.insertLoaded ⟨m.name, m, dir, s.started.length⟩).hooks.Own := by
    rw [insertLoaded_hooks]
    exact h.own
  refine ⟨MemoryDispatcher.own_registerAll (MemoryDispatcher.own_unregisterOwner hown),
    fun name p hp => ?_, fun name p hp => ?_, fun name p hp => ?_, fun r hr p hp => ?_,
    fun name p hp event hwants => ?_, fun dir' hdir => ?_, fun k hk => ?_, h.source, h.pending⟩
  · obtain ⟨hne, hp⟩ | ⟨rfl, rfl⟩ := hproviders name p hp
    · exact hof name p (h.providers name p hp) fun heq => absurd heq hne
    · exact hnew
  · obtain hp | ⟨rfl, rfl⟩ := insertLoaded_sidecars hp
    · refine hof name p (h.sidecars name p hp) fun heq => hname.elim (fun hd => heq ▸ hd) fun hfresh => ?_
      rw [heq, hfresh.2.1] at hp
      contradiction
    · exact hnew
  · obtain hp | ⟨rfl, rfl⟩ := insertLoaded_scripts hp
    · refine ⟨(h.scripts name p hp).1, hof name p (h.scripts name p hp).2 fun heq => ?_⟩
      refine hname.elim (fun hd => heq ▸ hd) fun hfresh => ?_
      rw [heq, hfresh.2.2.1] at hp
      contradiction
    · exact ⟨rfl, hnew⟩
  · refine hof r.name p (h.taken r hr p hp) fun heq => hname.elim (fun hd => heq ▸ hd) fun hfresh => ?_
    exact absurd heq (hfresh.2.2.2 r hr (by rw [hp]; nofun))
  · obtain ⟨hne, hp⟩ | ⟨rfl, rfl⟩ := hproviders name p hp
    · refine routesOf_load h.own (fun _ => h.routed name p hp event ?_) fun heq => absurd heq hne
      rwa [hconfig] at hwants
    · refine routesOf_load h.own (fun hne => absurd rfl hne) fun _ => ?_
      rwa [hconfig] at hwants
  · obtain ⟨name, p, hp, rfl, hlive⟩ | hother := h.kept dir' hdir
    · left
      by_cases heq : name = m.name
      · subst heq
        obtain hd | hfresh := hname
        · refine ⟨m.name, ⟨m.name, m, dir, s.started.length⟩, ?_, ?_, hrun⟩
          · rw [load_providers, Table.insert_self]
          · rw [(h.providers _ p hp).dir, hd]
        · exact absurd (hfresh.1.symm.trans hp) nofun
      · refine ⟨name, p, ?_, rfl, hlive⟩
        rw [load_providers, Table.insert_apply, if_neg heq, hp]
    · exact .inr hother
  · rw [List.length_append]
    exact Nat.lt_add_right _ (h.stopped k hk)

theorem Inv.load (hsafe : Safe s (.load m dir))
    (hstep : s.step (.load m dir) = some s') : ∃ owner', Inv s' owner' := by
  obtain rfl := Option.some.inj hstep
  have h₁ := @Inv.loads _ _ m dir h (.inr hsafe)
  refine ⟨_, h₁.own, h₁.providers, h₁.sidecars, h₁.scripts, h₁.taken, h₁.routed, fun dir' hdir => ?_, h₁.stopped,
    h₁.source, h₁.pending⟩
  obtain rfl | hdir := List.mem_cons.mp hdir
  · refine .inl ⟨m.name, ⟨m.name, m, dir', s.started.length⟩, ?_, rfl, fun hmem => Nat.lt_irrefl _ (h.stopped _ hmem)⟩
    rw [load_providers, Table.insert_self]
  · exact h₁.kept dir' hdir

theorem Inv.finish (hsafe : Safe s (.finish n m))
    (hstep : s.step (.finish n m) = some s') : ∃ owner', Inv s' owner' := by
  obtain ⟨r, hr, hstep⟩ := bind_eq_some_iff.mp hstep
  split at hstep
  · next p hphase =>
    obtain rfl := Option.some.inj hstep
    have hof : Of s.started owner r.name p := taken_of_mem h hr (by simp [Reload.taken, hphase])
    have hname : owner m.name = p.dir ∨ s.Fresh m.name :=
      (hsafe r hr).imp (fun heq => by rw [heq, hof.dir]) fun hfresh => hfresh
    -- first the load, then the reload is over
    have h₁ := h.loads hname
    refine ⟨_, h₁.moves hr nofun (fun dir hdir => .inr ?_) (.inr rfl)⟩
    simp only [Reload.replacing, hphase, Option.some.injEq] at hdir
    subst hdir
    refine ⟨m.name, ⟨m.name, m, p.dir, s.started.length⟩, ?_, rfl, fun hmem => Nat.lt_irrefl _ (h.stopped _ hmem)⟩
    rw [load_providers, Table.insert_self]
  · contradiction

theorem Inv.swaps {p : Provider} (hp : s.registry.scripts m.name = some p)
    (hloaded : s.registry.providers m.name = some p) :
    Inv { s with registry := (s.registry.swapped p m).registerManifestHooks m } owner := by
  obtain ⟨hname, hof⟩ := h.scripts _ p hp
  have hproviders : (s.registry.swapped p m).providers = s.registry.providers.insert m.name { p with manifest := m } := by
    simp only [AiRegistry.swapped]
    rw [if_pos (by rw [hname, hloaded]), hname]
  have hnew : Of s.started owner m.name { p with manifest := m } := ⟨hof.dir, hof.started⟩
  have hcases : ∀ name q, (s.registry.swapped p m).providers name = some q →
      name ≠ m.name ∧ s.registry.providers name = some q ∨ name = m.name ∧ q = { p with manifest := m } := by
    intro name q hq
    rw [hproviders, Table.insert_apply] at hq
    split at hq
    · next heq => exact .inr ⟨heq, (Option.some.inj hq).symm⟩
    · next hne => exact .inl ⟨hne, hq⟩
  refine ⟨MemoryDispatcher.own_registerAll (MemoryDispatcher.own_unregisterOwner h.own), fun name q hq => ?_, h.sidecars,
    fun name q hq => ?_, h.taken, fun name q hq event hwants => ?_, fun dir hdir => ?_, h.stopped, h.source, h.pending⟩
  · obtain ⟨-, hq⟩ | ⟨rfl, rfl⟩ := hcases name q hq
    · exact h.providers name q hq
    · exact hnew
  · replace hq : s.registry.scripts.insert p.name { p with manifest := m } name = some q := hq
    rw [Table.insert_apply] at hq
    split at hq
    · next heq =>
      obtain rfl := Option.some.inj hq
      exact ⟨heq.symm, heq.trans hname ▸ hnew⟩
    · exact h.scripts name q hq
  · obtain ⟨hne, hq⟩ | ⟨rfl, rfl⟩ := hcases name q hq
    · intro hnil
      have hperm := routesOf_registerManifestHooks_ne (r := s.registry.swapped p m) h.own hne event
      rw [hnil] at hperm
      exact h.routed name q hq event hwants (List.nil_perm.mp hperm)
    · replace hwants : event ∈ m.hooks ∨ event ∈ (s.registry.swapped p m).declared m.name := hwants
      rw [routesOf_registerManifestHooks (r := s.registry.swapped p m) h.own, if_pos hwants]
      exact List.cons_ne_nil _ _
  · refine (h.kept dir hdir).imp ?_ id
    rintro ⟨name, q, hq, rfl, hrun⟩
    by_cases heq : name = m.name
    · subst heq
      obtain rfl := mem_unique hloaded hq
      refine ⟨m.name, { p with manifest := m }, ?_, rfl, hrun⟩
      show (s.registry.swapped p m).providers m.name = _
      rw [hproviders, Table.insert_self]
    · refine ⟨name, q, ?_, rfl, hrun⟩
      show (s.registry.swapped p m).providers name = _
      rw [hproviders, Table.insert_apply, if_neg heq, hq]

theorem Inv.swap (hsafe : Safe s (.swap n m))
    (hstep : s.step (.swap n m) = some s') : Inv s' owner := by
  obtain ⟨r, hr, hstep⟩ := bind_eq_some_iff.mp hstep
  obtain ⟨hname, hloaded, hsame⟩ := hsafe r hr
  split at hstep
  · next p hphase =>
    split at hstep
    · obtain rfl := Option.some.inj hstep
      obtain ⟨q, hq, hstarted⟩ := Option.map_eq_some_iff.mp (hsame p (by simp [Reload.script, hphase]))
      have h₁ : Inv { s with registry := (s.registry.swapped q m).registerManifestHooks m } owner :=
        h.swaps (hname ▸ hq) (by rw [hname, hloaded, hq])
      have hfree : ∀ dir, r.replacing ≠ some dir := by simp [Reload.replacing, hphase]
      simp only [hq, if_pos hstarted]
      exact h₁.moves hr nofun (fun dir hdir => absurd hdir (hfree dir)) (.inr rfl)
    · contradiction
  · contradiction

end

end Registry

/-! ## runs -/

theorem Inv.step {s' : State} {a : Action} (h : Inv s owner) (hsafe : Safe s a)
    (hstep : s.step a = some s') : ∃ owner', Inv s' owner' := by
  cases a with
  | load m dir => exact h.load hsafe hstep
  | edit dir source =>
    obtain rfl := Option.some.inj hstep
    exact ⟨owner, h.own, h.providers, h.sidecars, h.scripts, h.taken, h.routed, h.kept, h.stopped, h.source, h.pending⟩
  | event name => exact ⟨owner, h.event hsafe hstep⟩
  | reload name =>
    obtain rfl := Option.some.inj hstep
    exact ⟨owner, h.begins rfl fun _ => rfl⟩
  | reloadScriptSource name source ok =>
    obtain rfl := Option.some.inj hstep
    refine ⟨owner, ?_⟩
    split
    · next p hp =>
      split
      · have h₁ : Inv { s with reloads := s.reloads ++ [⟨name, .compiling p, true⟩] } owner := h.begins rfl (by rintro ⟨⟩)
        exact ⟨h₁.own, h₁.providers, h₁.sidecars, h₁.scripts, h₁.taken, h₁.routed, h₁.kept, h₁.stopped, h₁.source,
          h₁.pending⟩
      · exact h.begins rfl fun _ => rfl
    · exact h.begins rfl fun _ => rfl
  | begin n => exact ⟨owner, h.begin hstep⟩
  | cancel n => exact ⟨owner, h.cancel hstep⟩
  | unload n => exact ⟨owner, h.unload hstep⟩
  | finish n m => exact h.finish hsafe hstep
  | swap n m => exact ⟨owner, h.swap hsafe hstep⟩
  | fail n => exact ⟨owner, h.fail hsafe hstep⟩

/-- In every run whose steps lose nothing, plugins and sources are kept. -/
theorem plugins_kept {configHooks : Table String (List String)} {sources : Table String String} {acts : List Action}
    {s : State} (hexec : exec State.step (.new configHooks sources) acts = some s)
    (hmeets : Meets State.step Safe (.new configHooks sources) acts) : s.Kept := by
  obtain ⟨owner, h⟩ := exec_invariant_of_meets (I := fun s => ∃ owner, Inv s owner)
    (fun _ _ _ ⟨_, h⟩ hsafe hstep => h.step hsafe hstep) hexec hmeets ⟨id, Inv.new configHooks sources id⟩
  exact h.keeps

/-- A burst of changes of a sidecar, a new source of a script, and a reload of it that fails. -/
def safeReloads : List Action :=
  [.load sidecarManifest "plugins/tts", .event "tts", .event "tts", .begin 1, .cancel 1, .unload 1,
    .finish 1 { sidecarManifest with priority := 30 }, .load scriptManifest "plugins/ivr",
    .reloadScriptSource "ivr" "fn on_dialog_created() ()" true, .swap 2 scriptManifest, .reload "ivr", .begin 3, .fail 3]

theorem plugins_kept_safeReloads : ∃ s, exec State.step (.new .empty .empty) safeReloads = some s ∧
      s.reloads.map (·.phase) = [.failed, .succeeded, .succeeded, .failed] ∧ s.Kept := by
  obtain ⟨s, hexec⟩ := Option.isSome_iff_exists.mp
    (by decide +kernel : (exec State.step (.new .empty .empty) safeReloads).isSome = true)
  have hview : (exec State.step (.new .empty .empty) safeReloads).map (fun s => s.reloads.map (·.phase)) =
      some [.failed, .succeeded, .succeeded, .failed] := by
    decide +kernel
  rw [hexec, Option.map_some, Option.some.injEq] at hview
  exact ⟨s, hexec, hview, plugins_kept hexec (by decide +kernel)⟩

/-- A second change of a sidecar comes while its replacement is starting. -/
def abortedReload : List Action :=
  [.load sidecarManifest "plugins/tts", .event "tts", .begin 0, .cancel 0, .unload 0, .event "tts", .begin 1]

/-- A source that does not compile. -/
def brokenSource : List Action :=
  [.load scriptManifest "plugins/ivr", .reloadScriptSource "ivr" "fn (" true, .fail 0]

/-- The plugin of the aborted reload is gone, the reload after it finds none, and the
source that was refused stays on the disk. -/
theorem plugin_lost : (∃ s, exec State.step (.new .empty .empty) abortedReload = some s ∧
      s.reloads.map (·.phase) = [.failed, .failed] ∧ s.registry.providers "tts" = none ∧ ¬ s.Kept) ∧
    ∃ s, exec State.step (.new .empty .empty) brokenSource = some s ∧
      s.sources "plugins/ivr" = some "fn (" ∧ ¬ s.Kept := by
  constructor
  · refine ⟨_, rfl, by decide +kernel, by decide +kernel, fun h => ?_⟩
    obtain ⟨name, p, hp, -⟩ | ⟨r, hr, hreplacing⟩ := h.registered "plugins/tts" (by decide +kernel)
    · replace hp : ((Table.empty.insert "tts" ⟨"tts", sidecarManifest, "plugins/tts", 0⟩ : Table String Provider).erase
          "tts") name = some p := hp
      rw [Table.erase_apply, Table.insert_apply] at hp
      split at hp <;> contradiction
    · replace hr : r ∈ [(⟨"tts", .failed, false⟩ : Reload), ⟨"tts", .failed, false⟩] := hr
      simp only [List.mem_cons, List.not_mem_nil, or_false, or_self] at hr
      subst hr
      contradiction
  · refine ⟨_, rfl, by decide +kernel, fun h => ?_⟩
    exact absurd (h.source ⟨"ivr", .failed, true⟩ (by decide +kernel) rfl) nofun

end SmithsNet.Plugin.Reloads
