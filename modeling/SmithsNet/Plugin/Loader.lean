import Mathlib
import SmithsNet.Lib.Stable
import SmithsNet.Plugin.Registry

/-!
# SmithsNet.Plugin.Loader

Plugin discovery (`load_plugins` of `smiths-plugin/src/loader.rs`): a directory tree is scanned for
directories with a `plugin.toml`, each of which is loaded and registered as it is found.

The subdirectories to be scanned are sorted.  The plugins of one directory are loaded in the order
in which the file system names them, and a directory that cannot be read ends the scan.
`discovery_iff` says for which trees neither matters.
-/

namespace SmithsNet.Plugin

open Lib List MemoryDispatcher

/-- The components of a path below the root. -/
abbrev Path := List String

/-- What the scan makes of an entry of a directory. -/
inductive Item
  /-- The entry, or its metadata, cannot be read. -/
  | fails
  /-- It is not a directory. -/
  | other
  | dir (name : String)
  deriving DecidableEq

def Item.name? : Item → Option String
  | .dir name => some name
  | _ => none

/-- A directory tree: the entries of each directory in the order in which the file system names
them, if it can be read, and how `load_one` ends for each directory with a `plugin.toml`. -/
structure Fs where
  present : Bool
  entries : Path → Option (List Item)
  plugin : Path → Option (Except String Manifest)
  nodup : ∀ dir items, entries dir = some items → (items.filterMap Item.name?).Nodup

structure LoadReport where
  loaded : List String := []
  failed : List (String × String) := []

/-- A scan under way; `log` has the directories that were given to `load_one`. -/
structure Loader where
  registry : AiRegistry
  report : LoadReport
  log : List Path

def MAX_SCAN_DEPTH : Nat := 4

def display (root : String) (path : Path) : String := path.foldl (fun dir name => dir ++ "/" ++ name) root

def isHidden (name : String) : Bool := name.toList.head? = some '.'

namespace Loader

/-- A call of `load_one`, and what is reported of it. -/
def loadOne (root : String) (s : Loader) (path : Path) : Except String Manifest → Loader
  | .ok m =>
    { registry := s.registry.load m (display root path) s.log.length
      report := { s.report with loaded := s.report.loaded ++ [m.name] }
      log := s.log ++ [path] }
  | .error e =>
    { s with
      report := { s.report with failed := s.report.failed ++ [(display root path, e)] }
      log := s.log ++ [path] }

end Loader

section Scan

variable (root : String) (fs : Fs)

/-- One directory: its plugins are loaded, its containers are kept for later; without a list of
those the scan has failed. -/
def visit (dir : Path) (depth : Nat) : List Item → Loader → List String → Loader × Option (List String)
  | [], s, containers => (s, some containers)
  | .fails :: _, s, _ => (s, none)
  | .other :: items, s, containers => visit dir depth items s containers
  | .dir name :: items, s, containers =>
    if isHidden name then visit dir depth items s containers
    else
      match fs.plugin (dir ++ [name]) with
      | some outcome => visit dir depth items (s.loadOne root (dir ++ [name]) outcome) containers
      | none =>
        if depth < MAX_SCAN_DEPTH then visit dir depth items s (containers ++ [name])
        else visit dir depth items s containers

def readDir (dir : Path) (depth : Nat) (s : Loader) : Loader × Option (List String) :=
  match fs.entries dir with
  | some items => visit root fs dir depth items s []
  | none => (s, none)

/-- The directories that are pending, the next one first; whether the scan has come to its end. -/
def loop : Nat → List (Path × Nat) → Loader → Option (Loader × Bool)
  | _, [], s => some (s, true)
  | 0, _ :: _, _ => none
  | fuel + 1, (dir, depth) :: pending, s =>
    match readDir root fs dir depth s with
    | (s, some containers) =>
      loop fuel ((containers.insertionSort (· ≤ ·)).map (fun name => (dir ++ [name], depth + 1)) ++ pending) s
    | (s, none) => some (s, false)

end Scan

namespace Fs

variable (fs : Fs)

/-- The items of a directory, none where it cannot be read. -/
def items (dir : Path) : List Item := (fs.entries dir).getD []

/-- A plugin directly in a directory. -/
def pluginAt (dir : Path) : Item → Option (Path × Except String Manifest)
  | .dir name => if isHidden name then none else (fs.plugin (dir ++ [name])).map fun outcome => (dir ++ [name], outcome)
  | _ => none

def containerAt (dir : Path) : Item → Option String
  | .dir name => if isHidden name ∨ (fs.plugin (dir ++ [name])).isSome then none else some name
  | _ => none

def pluginsIn (dir : Path) : List (Path × Except String Manifest) := (fs.items dir).filterMap (fs.pluginAt dir)

def containers (dir : Path) : List String := ((fs.items dir).filterMap (fs.containerAt dir)).insertionSort (· ≤ ·)

/-- The directories from one on, down so many levels, in the order of the scan. -/
def dirs : Nat → Path → List Path
  | 0, dir => [dir]
  | n + 1, dir => dir :: (fs.containers dir).flatMap fun name => dirs n (dir ++ [name])

/-- The directories of the scan, the root the first. -/
def scanned : List Path := if fs.present then fs.dirs (MAX_SCAN_DEPTH - 1) [] else []

end Fs

/-- `load_plugins`: what it leaves, and whether it returns a report. -/
def loadPlugins (root : String) (fs : Fs) (r : AiRegistry) : Loader × Bool :=
  if fs.present then ((loop root fs fs.scanned.length [([], 1)] ⟨r, {}, []⟩).getD (⟨r, {}, []⟩, false))
  else (⟨r, {}, []⟩, true)

/-! ## what is asked for -/

/-- The same tree, named by the file system in another order. -/
structure SameTree (fs fs' : Fs) : Prop where
  present : fs'.present = fs.present
  plugin : fs'.plugin = fs.plugin
  entries : ∀ dir, fs'.entries dir = none ∧ fs.entries dir = none ∨
    ∃ items items', fs.entries dir = some items ∧ fs'.entries dir = some items' ∧ items'.Perm items

def MemoryDispatcher.hooksFor (d : MemoryDispatcher) (event : String) : List String := (d.routes event).map (·.hook.name)

structure SameOutcome (x y : Loader × Bool) : Prop where
  /-- Each name is bound to the same directory. -/
  registered : ∀ name, (x.1.registry.providers name).map (·.dir) = (y.1.registry.providers name).map (·.dir)
  hooks : ∀ event, x.1.registry.hooks.hooksFor event = y.1.registry.hooks.hooksFor event
  returned : x.2 = y.2
  report : x.2 = true → x.1.report.loaded.Perm y.1.report.loaded ∧ x.1.report.failed.Perm y.1.report.failed

namespace Fs

/-- A plugin that would load is somewhere in the tree. -/
def Offers (fs : Fs) (path : Path) : Prop := ∃ dir ∈ fs.scanned, ∃ m, (path, Except.ok m) ∈ fs.pluginsIn dir

/-- A directory that ends the scan. -/
def Fails (fs : Fs) (dir : Path) : Prop := fs.entries dir = none ∨ Item.fails ∈ fs.items dir

instance (fs : Fs) : DecidablePred fs.Fails := fun _ => inferInstanceAs (Decidable (_ ∨ _))

/-- What the plugins of a directory that load come to. -/
def loads (fs : Fs) (dir : Path) : List (Path × Manifest) :=
  (fs.pluginsIn dir).filterMap fun x => x.2.toOption.map fun m => (x.1, m)

/-- Nothing is left to load in or behind a directory that ends the scan. -/
def Reads (fs : Fs) : Prop :=
  ∀ before dir after, fs.scanned = before ++ dir :: after → fs.Fails dir → ∀ dir' ∈ dir :: after, fs.loads dir' = []

end Fs

/-- The name a plugin is registered under. -/
def loadName (x : Path × Manifest) : String := x.2.name

/-- Two plugins of different names that share no event at one priority. -/
def Apart (r : AiRegistry) (x y : Path × Manifest) : Prop :=
  x.2.name ≠ y.2.name ∧ ∀ event, event ∈ x.2.hooks ∨ event ∈ r.declared x.2.name →
    event ∈ y.2.hooks ∨ event ∈ r.declared y.2.name → x.2.priority ≠ y.2.priority

/-- The plugins of one directory that no plugin of a later one replaces are apart. -/
def Fs.Distinct (fs : Fs) (r : AiRegistry) : Prop := Clear loadName fs.loads (Apart r) fs.scanned

/-- The order in which the file system names its entries does not matter, and everything is loaded. -/
def Discovers (root : String) (fs : Fs) (r : AiRegistry) : Prop :=
  ∀ fs', SameTree fs fs' → SameOutcome (loadPlugins root fs r) (loadPlugins root fs' r) ∧
    ∀ path, fs.Offers path → path ∈ (loadPlugins root fs' r).1.log

/-! ## the scan as a list of visits -/

namespace Fs

/-- The plugins that are named before an entry fails. -/
def read (fs : Fs) (dir : Path) : List (Path × Except String Manifest) :=
  ((fs.items dir).takeWhile (· ≠ .fails)).filterMap (fs.pluginAt dir)

end Fs

namespace Loader

/-- Plugins are loaded one after the other. -/
def loadAll (root : String) (s : Loader) (xs : List (Path × Except String Manifest)) : Loader :=
  xs.foldl (fun s x => s.loadOne root x.1 x.2) s

end Loader

section Visits

variable {root : String} {fs : Fs}

theorem visit_eq (dir : Path) (depth : Nat) (items : List Item) (s : Loader) (containers : List String) :
    visit root fs dir depth items s containers =
      (s.loadAll root ((items.takeWhile (· ≠ .fails)).filterMap (fs.pluginAt dir)),
        if Item.fails ∈ items then none
        else some (containers ++ if depth < MAX_SCAN_DEPTH then items.filterMap (fs.containerAt dir) else [])) := by
  induction items generalizing s containers with
  | nil => simp [visit, Loader.loadAll]
  | cons item items ih =>
    cases item with
    | fails => simp [visit, Loader.loadAll]
    | other => simp [visit, ih, filterMap_cons, Fs.pluginAt, Fs.containerAt]
    | dir name =>
      simp only [visit]
      split
      · next hhidden => simp [ih, Fs.pluginAt, Fs.containerAt, hhidden]
      · next hseen =>
        split
        · next outcome hplugin => simp [ih, Fs.pluginAt, Fs.containerAt, hseen, hplugin, Loader.loadAll]
        · next hplugin =>
          split
          · next hdepth => simp [ih, Fs.pluginAt, Fs.containerAt, hseen, hplugin, hdepth]
          · next hdepth => simp [ih, Fs.pluginAt, hseen, hplugin, hdepth]

variable (root fs)

/-- The directories are read in turn, up to one that ends the scan. -/
def visits : List Path → Loader → Loader × Bool
  | [], s => (s, true)
  | dir :: dirs, s =>
    if fs.Fails dir then (s.loadAll root (fs.read dir), false) else visits dirs (s.loadAll root (fs.read dir))

variable {root fs}

theorem dirs_eq {depth : Nat} (h : depth ≤ MAX_SCAN_DEPTH) (dir : Path) : fs.dirs (MAX_SCAN_DEPTH - depth) dir =
    dir :: (if depth < MAX_SCAN_DEPTH then fs.containers dir else []).flatMap fun name =>
      fs.dirs (MAX_SCAN_DEPTH - (depth + 1)) (dir ++ [name]) := by
  split
  · next hlt =>
    obtain ⟨n, hn⟩ : ∃ n, MAX_SCAN_DEPTH - depth = n + 1 := ⟨MAX_SCAN_DEPTH - depth - 1, by omega⟩
    rw [hn, show MAX_SCAN_DEPTH - (depth + 1) = n by omega]
    rfl
  · next hge =>
    rw [show MAX_SCAN_DEPTH - depth = 0 by omega]
    rfl

theorem loop_eq (fuel : Nat) (pending : List (Path × Nat)) (s : Loader) (hdepth : ∀ x ∈ pending, x.2 ≤ MAX_SCAN_DEPTH)
    (hfuel : (pending.flatMap fun x => fs.dirs (MAX_SCAN_DEPTH - x.2) x.1).length ≤ fuel) :
    loop root fs fuel pending s = some (visits root fs (pending.flatMap fun x => fs.dirs (MAX_SCAN_DEPTH - x.2) x.1) s) := by
  induction fuel generalizing pending s with
  | zero =>
    cases pending with
    | nil => rfl
    | cons x pending =>
      simp only [flatMap_cons, length_append] at hfuel
      have hpos : 0 < (fs.dirs (MAX_SCAN_DEPTH - x.2) x.1).length := by
        unfold Fs.dirs
        split <;> exact Nat.succ_pos _
      omega
  | succ fuel ih =>
    cases pending with
    | nil => rfl
    | cons x pending =>
      obtain ⟨dir, depth⟩ := x
      obtain ⟨hhere, hdepth⟩ := forall_mem_cons.mp hdepth
      simp only [flatMap_cons, dirs_eq hhere, cons_append, length_cons] at hfuel ⊢
      cases hentries : fs.entries dir with
      | none =>
        have hfails : fs.Fails dir := .inl hentries
        simp [loop, readDir, hentries, visits, hfails, Fs.read, Fs.items, Loader.loadAll]
      | some items =>
        have hitems : fs.items dir = items := by simp [Fs.items, hentries]
        have hread : fs.read dir = (items.takeWhile (· ≠ .fails)).filterMap (fs.pluginAt dir) := by rw [Fs.read, hitems]
        have hfails : fs.Fails dir ↔ Item.fails ∈ items := by simp [Fs.Fails, hentries, hitems]
        by_cases hmem : Item.fails ∈ items
        · simp [loop, readDir, hentries, visit_eq, hmem, visits, hfails, hread]
        · have hsorted : (if depth < MAX_SCAN_DEPTH then items.filterMap
            (fs.containerAt dir) else []).insertionSort (· ≤ ·) =
              if depth < MAX_SCAN_DEPTH then fs.containers dir else [] := by
            split
            · rw [Fs.containers, hitems]
            · rfl
          have hchildren : ∀ x ∈ (if depth < MAX_SCAN_DEPTH then fs.containers dir else []).map fun name => (dir ++ [name], depth + 1),
              x.2 ≤ MAX_SCAN_DEPTH := by
            intro x hx
            obtain ⟨name, hname, rfl⟩ := mem_map.mp hx
            split at hname
            · next hlt => exact hlt
            · contradiction
          have hloop := ih (((if depth < MAX_SCAN_DEPTH then fs.containers dir else []).map fun name => (dir ++ [name], depth + 1)) ++ pending)
            (s.loadAll root (fs.read dir)) (List.forall_mem_append.mpr ⟨hchildren, hdepth⟩)
          simp only [flatMap_append, flatMap_map] at hloop
          simp only [loop, readDir, hentries, visit_eq, hmem, if_false, nil_append, hsorted, visits, hfails, ← hread]
          exact hloop (by omega)

end Visits

section Spec

variable {root : String} {fs fs' : Fs} {r : AiRegistry}

theorem loadPlugins_eq : loadPlugins root fs r = visits root fs fs.scanned ⟨r, {}, []⟩ := by
  unfold loadPlugins Fs.scanned
  split
  · next hpresent =>
    have hdirs : ([([], 1)] : List (Path × Nat)).flatMap
      (fun x => fs.dirs (MAX_SCAN_DEPTH - x.2) x.1) = fs.dirs (MAX_SCAN_DEPTH - 1) [] := by
      simp
    rw [loop_eq _ [([], 1)] _ (fun x hx => by rw [mem_singleton.mp hx]; decide) (by rw [hdirs]), hdirs]
    rfl
  · rfl

theorem visits_of_reads {dirs : List Path} {s : Loader} (h : ∀ dir ∈ dirs, ¬ fs.Fails dir) :
    visits root fs dirs s = (s.loadAll root (dirs.flatMap fs.pluginsIn), true) := by
  induction dirs generalizing s with
  | nil => rfl
  | cons dir dirs ih =>
    obtain ⟨hdir, hdirs⟩ := forall_mem_cons.mp h
    have hread : fs.read dir = fs.pluginsIn dir := by
      rw [Fs.read, List.takeWhile_eq_self_iff.mpr]
      · rfl
      · intro item hitem
        refine decide_eq_true fun heq => hdir (.inr (heq ▸ hitem))
    rw [visits, if_neg hdir, ih hdirs, hread, flatMap_cons, Loader.loadAll, Loader.loadAll, Loader.loadAll, foldl_append]

theorem visits_of_fails {before after : List Path} {dir : Path} {s : Loader}
    (h : ∀ d ∈ before, ¬ fs.Fails d) (hfails : fs.Fails dir) :
    visits root fs (before ++ dir :: after) s = (s.loadAll root (before.flatMap fs.pluginsIn ++ fs.read dir), false) := by
  induction before generalizing s with
  | nil => rw [nil_append, visits, if_pos hfails]; rfl
  | cons d before ih =>
    obtain ⟨hd, hbefore⟩ := forall_mem_cons.mp h
    have hone := @visits_of_reads root fs [d] s (List.forall_mem_singleton.mpr hd)
    rw [visits, if_neg hd] at hone
    have hread : s.loadAll root (fs.read d) = s.loadAll root (fs.pluginsIn d) := by
      simpa [visits] using congrArg Prod.fst hone
    rw [cons_append, visits, if_neg hd, ih hbefore, hread, flatMap_cons, append_assoc]
    simp only [Loader.loadAll, foldl_append]

theorem first_fails (fs : Fs) (dirs : List Path) : (∀ dir ∈ dirs, ¬ fs.Fails dir) ∨
    ∃ before dir after, dirs = before ++ dir :: after ∧ (∀ d ∈ before, ¬ fs.Fails d) ∧ fs.Fails dir := by
  induction dirs with
  | nil => exact .inl nofun
  | cons d dirs ih =>
    by_cases hd : fs.Fails d
    · exact .inr ⟨[], d, dirs, rfl, nofun, hd⟩
    · obtain hnone | ⟨before, dir, after, rfl, hbefore, hdir⟩ := ih
      · exact .inl (forall_mem_cons.mpr ⟨hd, hnone⟩)
      · exact .inr ⟨d :: before, dir, after, rfl, forall_mem_cons.mpr ⟨hd, hbefore⟩, hdir⟩

/-- The plugins that were loaded, of those that were found. -/
def okOf (xs : List (Path × Except String Manifest)) : List (Path × Manifest) :=
  xs.filterMap fun x => x.2.toOption.map fun m => (x.1, m)

@[simp] theorem okOf_ok (path : Path) (m : Manifest) : okOf [(path, .ok m)] = [(path, m)] := rfl

@[simp] theorem okOf_error (path : Path) (e : String) : okOf [(path, .error e)] = [] := rfl

theorem okOf_append (xs ys : List (Path × Except String Manifest)) : okOf (xs ++ ys) = okOf xs ++ okOf ys := filterMap_append

theorem okOf_flatMap (dirs : List Path) : okOf (dirs.flatMap fs.pluginsIn) = dirs.flatMap fs.loads := by
  induction dirs with
  | nil => rfl
  | cons dir dirs ih => rw [flatMap_cons, okOf_append, ih, flatMap_cons]; rfl

theorem loaded_of_reads (h : fs.Reads) : ∃ xs, loadPlugins root fs r =
    ((⟨r, {}, []⟩ : Loader).loadAll root xs, decide (∀ dir ∈ fs.scanned, ¬ fs.Fails dir)) ∧
    okOf xs = fs.scanned.flatMap fs.loads ∧
      ((∀ dir ∈ fs.scanned, ¬ fs.Fails dir) → xs = fs.scanned.flatMap fs.pluginsIn) := by
  rw [loadPlugins_eq]
  obtain hnone | ⟨before, dir, after, heq, hbefore, hdir⟩ := first_fails fs fs.scanned
  · refine ⟨fs.scanned.flatMap fs.pluginsIn, ?_, okOf_flatMap _, fun _ => rfl⟩
    rw [visits_of_reads hnone, decide_eq_true hnone]
  · have hsome : ¬ ∀ d ∈ fs.scanned, ¬ fs.Fails d := fun hall => by
      refine hall dir ?_ hdir
      rw [heq]
      exact mem_append_right _ mem_cons_self
    have hempty := h before dir after heq hdir
    refine ⟨before.flatMap fs.pluginsIn ++ fs.read dir, ?_, ?_, fun hall => absurd hall hsome⟩
    · rw [heq, visits_of_fails hbefore hdir, ← heq, decide_eq_false hsome]
    · -- what was named before the failure loads nothing, nor does what is behind
      have hread : okOf (fs.read dir) = [] := by
        have hsub : (okOf (fs.read dir)).Sublist (fs.loads dir) :=
          ((takeWhile_sublist _).filterMap _).filterMap _
        rw [hempty dir mem_cons_self] at hsub
        exact List.sublist_nil.mp hsub
      have hbehind : (dir :: after).flatMap fs.loads = [] := List.flatMap_eq_nil_iff.mpr hempty
      rw [okOf_append, okOf_flatMap, hread, append_nil, heq, flatMap_append, hbehind, append_nil]

end Spec

/-! ## two orders of one tree -/

namespace SameTree

variable {fs fs' : Fs}

theorem items (h : SameTree fs fs') (dir : Path) : (fs'.items dir).Perm (fs.items dir) := by
  unfold Fs.items
  obtain ⟨hnone', hnone⟩ | ⟨items, items', hitems, hitems', hperm⟩ := h.entries dir
  · rw [hnone, hnone']
  · rw [hitems, hitems']
    exact hperm

section

variable (h : SameTree fs fs')
include h

theorem pluginAt : fs'.pluginAt = fs.pluginAt := by
  funext dir item
  cases item <;> simp [Fs.pluginAt, h.plugin]

theorem containerAt : fs'.containerAt = fs.containerAt := by
  funext dir item
  cases item <;> simp [Fs.containerAt, h.plugin]

theorem pluginsIn (dir : Path) : (fs'.pluginsIn dir).Perm (fs.pluginsIn dir) := by
  unfold Fs.pluginsIn
  rw [h.pluginAt]
  exact (h.items dir).filterMap _

theorem loads (dir : Path) : (fs'.loads dir).Perm (fs.loads dir) := (h.pluginsIn dir).filterMap _

theorem fails (dir : Path) : fs'.Fails dir ↔ fs.Fails dir := by
  unfold Fs.Fails
  obtain ⟨hnone', hnone⟩ | ⟨items, items', hitems, hitems', hperm⟩ := h.entries dir
  · rw [hnone, hnone']
    simp
  · rw [(h.items dir).mem_iff, hitems, hitems']
    simp

theorem containers (dir : Path) : fs'.containers dir = fs.containers dir := by
  unfold Fs.containers
  rw [h.containerAt]
  have hperm : ((fs'.items dir).filterMap (fs.containerAt dir)).Perm ((fs.items dir).filterMap (fs.containerAt dir)) :=
    (h.items dir).filterMap _
  refine List.Perm.eq_of_pairwise (fun a b _ _ hab hba => le_antisymm hab hba) (pairwise_insertionSort _ _)
    (pairwise_insertionSort _ _) ?_
  exact (perm_insertionSort _ _).trans (hperm.trans (perm_insertionSort _ _).symm)

theorem dirs (n : Nat) (dir : Path) : fs'.dirs n dir = fs.dirs n dir := by
  induction n generalizing dir with
  | zero => rfl
  | succ n ih =>
    unfold Fs.dirs
    rw [h.containers]
    exact congrArg _ (flatMap_congr fun name _ => ih _)

theorem scanned : fs'.scanned = fs.scanned := by
  unfold Fs.scanned
  rw [h.present, h.dirs]

end

end SameTree

/-! ## what loading does to the registry -/

namespace MemoryDispatcher

variable {d : MemoryDispatcher} {owner event event' : String} {priority p : Nat} {events : List String}

/-- The routes of one priority, in the order of their registration. -/
def routesAt (d : MemoryDispatcher) (p : Nat) (event : String) : List Route := (d.routes event).filter (·.priority = p)

/-- No plugin has two routes for an event. -/
def Single (d : MemoryDispatcher) : Prop := ∀ event, ((d.routes event).map (·.owner)).Nodup

theorem single_unregisterOwner (h : d.Single) : (d.unregisterOwner owner).Single := fun event =>
  (h event).sublist (List.filter_sublist.map _)

section

variable (hown : d.Own) (h : d.Single)
include hown h

theorem single_registerOwned : (d.registerOwned owner event priority ⟨owner, event⟩).Single := by
  intro event'
  by_cases hevent : event' = event
  · subst hevent
    rw [((routes_registerOwned_perm hown).map _).nodup_iff, map_append, map_singleton]
    refine List.nodup_append.mpr ⟨(h event').sublist (List.filter_sublist.map _), nodup_singleton _, ?_⟩
    intro o ho o' ho'
    obtain ⟨r, hr, rfl⟩ := mem_map.mp ho
    rw [mem_singleton.mp ho']
    exact of_decide_eq_true (mem_filter.mp hr).2
  · rw [routes_registerOwned_ne hevent]
    exact h event'

theorem single_registerAll : (d.registerAll owner priority events).Single := by
  induction events generalizing d with
  | nil => exact h
  | cons e events ih => exact ih (own_registerOwned hown) (single_registerOwned hown h)

theorem nodup_hooksFor (event : String) : (d.hooksFor event).Nodup := by
  have hnames : d.hooksFor event = ((d.routes event).map (·.owner)).map fun owner => (ProviderHook.mk owner event).name := by
    rw [map_map]
    refine map_congr_left fun r hr => ?_
    rw [hown event r hr]
    rfl
  rw [hnames]
  refine (h event).map fun owner owner' heq => ?_
  by_contra hne
  exact name_ne_iff.mpr hne heq

end

theorem routes_eq_of_routesAt {d' : MemoryDispatcher} (h : ∀ p, d.routesAt p event = d'.routesAt p event) :
    d.routes event = d'.routes event := eq_of_filter_key (d.sorted event) (d'.sorted event) h

theorem routesAt_unregisterOwner :
    (d.unregisterOwner owner).routesAt p event = (d.routesAt p event).filter (·.owner ≠ owner) := by
  simp only [routesAt, unregisterOwner, filter_filter, Bool.and_comm]

theorem routesAt_registerOwned (h : d.Own) : (d.registerOwned owner event priority ⟨owner, event⟩).routesAt p event =
    (d.routesAt p event).filter (·.owner ≠ owner) ++ if priority = p then [⟨priority, owner, ⟨owner, event⟩⟩] else [] := by
  have hnames : (d.routes event).filter (·.hook.name ≠ (⟨owner, event⟩ : ProviderHook).name) =
    (d.routes event).filter (·.owner ≠ owner) := by
    refine filter_congr fun r hr => ?_
    rw [h event r hr]
    exact decide_eq_decide.mpr name_ne_iff
  simp only [routesAt, registerOwned, Function.update_self, hnames]
  refine (filter_sortByKey Route.priority _ p).trans ?_
  rw [filter_append, filter_filter, filter_filter, filter_singleton]
  refine congrArg₂ _ (filter_congr fun r _ => Bool.and_comm _ _) ?_
  by_cases hp : priority = p <;> simp [hp]

theorem routesAt_registerOwned_ne (hne : event' ≠ event) :
    (d.registerOwned owner event priority ⟨owner, event⟩).routesAt p event' = d.routesAt p event' := by
  rw [routesAt, routes_registerOwned_ne hne, routesAt]

theorem routesAt_registerAll (h : d.Own) : (d.registerAll owner priority events).routesAt p event =
    if event ∈ events then
      (d.routesAt p event).filter (·.owner ≠ owner) ++ if priority = p then [⟨priority, owner, ⟨owner, event⟩⟩] else []
    else d.routesAt p event := by
  induction events generalizing d with
  | nil => rfl
  | cons e events ih =>
    refine (ih (own_registerOwned h)).trans ?_
    by_cases he : event = e
    · -- registered once more, it is where it was
      subst he
      rw [routesAt_registerOwned h, if_pos mem_cons_self]
      split
      · rw [filter_append, filter_filter]
        split <;> simp
      · rfl
    · rw [routesAt_registerOwned_ne he]
      simp [he]

end MemoryDispatcher

/-- The route of a plugin for an event. -/
def routeOf (r : AiRegistry) (p : Nat) (event : String) (x : Path × Manifest) : Option Route :=
  if x.2.priority = p ∧ (event ∈ x.2.hooks ∨ event ∈ r.declared x.2.name) then some ⟨p, x.2.name,
    ⟨x.2.name, event⟩⟩ else none

section Load

variable {r : AiRegistry} {m : Manifest} {dir : String} {started : Nat}

theorem providers_load : (r.load m dir started).providers = r.providers.insert m.name ⟨m.name, m, dir, started⟩ := by
  unfold AiRegistry.load AiRegistry.insertLoaded
  split <;> rfl

theorem declared_load (plugin : String) : (r.load m dir started).declared plugin = r.declared plugin := by
  unfold AiRegistry.load AiRegistry.insertLoaded
  split <;> rfl

theorem hooks_load : (r.load m dir started).hooks =
    (r.hooks.unregisterOwner m.name).registerAll m.name m.priority (m.hooks ∪ r.declared m.name) := by
  unfold AiRegistry.load AiRegistry.insertLoaded
  split <;> rfl

theorem own_load (h : r.hooks.Own) : (r.load m dir started).hooks.Own := by
  rw [hooks_load]
  exact own_registerAll (own_unregisterOwner h)

theorem single_load (hown : r.hooks.Own) (h : r.hooks.Single) : (r.load m dir started).hooks.Single := by
  rw [hooks_load]
  exact MemoryDispatcher.single_registerAll (own_unregisterOwner hown) (MemoryDispatcher.single_unregisterOwner h)

theorem routesAt_load (h : r.hooks.Own) (p : Nat) (event : String) (path : Path) :
    (r.load m dir started).hooks.routesAt p event =
      (r.hooks.routesAt p event).filter (·.owner ≠ m.name) ++ (routeOf r p event (path, m)).toList := by
  rw [hooks_load, MemoryDispatcher.routesAt_registerAll (own_unregisterOwner h), MemoryDispatcher.routesAt_unregisterOwner]
  simp only [routeOf, mem_union_iff, filter_filter, Bool.and_self]
  by_cases hwants : event ∈ m.hooks ∨ event ∈ r.declared m.name
  · by_cases hp : m.priority = p
    · subst hp
      simp [hwants]
    · simp [hwants, hp]
  · simp [hwants]

end Load

/-! ### after all loads -/

section LoadAll

variable {root : String} {s : Loader} {xs : List (Path × Except String Manifest)}

/-- The directory a name is bound to by a load. -/
def boundTo (root name : String) (x : Path × Manifest) : Option String :=
  if loadName x = name then some (display root x.1) else none

/-- What is known of a registry after some loads. -/
structure After (root : String) (r : AiRegistry) (xs : List (Path × Manifest)) (r' : AiRegistry) : Prop where
  own : r'.hooks.Own
  single : r'.hooks.Single
  declared : ∀ plugin, r'.declared plugin = r.declared plugin
  dirs : ∀ name, (r'.providers name).map (·.dir) =
    ((lasts loadName xs).filterMap (boundTo root name)).head?.or ((r.providers name).map (·.dir))
  routes : ∀ p event, r'.hooks.routesAt p event =
    (r.hooks.routesAt p event).filter (fun route => route.owner ∉ xs.map loadName) ++
      (lasts loadName xs).filterMap (routeOf r p event)

variable {r r' : AiRegistry} {ys : List (Path × Manifest)}

theorem After.nil (h : r.hooks.Own) (hsingle : r.hooks.Single) : After root r [] r :=
  ⟨h, hsingle, fun _ => rfl, fun _ => by simp, fun _ _ => by simp⟩

theorem filterMap_filter_name {β : Type} {f : Path × Manifest → Option β} {name : String} (owner : β → String)
    (hf : ∀ x b, f x = some b → owner b = loadName x) (l : List (Path × Manifest)) :
    (l.filter (loadName · ≠ name)).filterMap f = (l.filterMap f).filter (owner · ≠ name) := by
  rw [filterMap_filter, filter_filterMap]
  refine filterMap_congr fun x _ => ?_
  cases hx : f x with
  | none => simp
  | some b => simp [hf x b hx, Option.filter]

theorem routeOf_owner {p : Nat} {event : String} {x : Path × Manifest} {route : Route}
    (h : routeOf r p event x = some route) :
    route.owner = loadName x := by
  unfold routeOf at h
  split at h
  · rw [← Option.some.inj h]
    rfl
  · contradiction

theorem After.load (h : After root r ys r') (path : Path) (m : Manifest) (started : Nat) :
    After root r (ys ++ [(path, m)]) (r'.load m (display root path) started) := by
  refine ⟨own_load h.own, single_load h.own h.single, fun plugin =>
    (declared_load plugin).trans (h.declared plugin), fun name => ?_, fun p event => ?_⟩
  · rw [providers_load, Table.insert_apply, lasts_concat, filterMap_append]
    by_cases hname : name = m.name
    · subst hname
      have hnone : ((lasts loadName ys).filter (loadName · ≠ loadName (path, m))).filterMap (boundTo root m.name) = [] := by
        exact List.filterMap_eq_nil_iff.mpr fun x hx => if_neg (of_decide_eq_true (mem_filter.mp hx).2)
      rw [hnone, if_pos rfl]
      simp [boundTo, loadName]
    · have hsame : ((lasts loadName ys).filter (loadName · ≠ loadName (path, m))).filterMap (boundTo root name) =
          (lasts loadName ys).filterMap (boundTo root name) := by
        rw [filterMap_filter]
        refine filterMap_congr fun x _ => ?_
        by_cases hx : loadName x = m.name
        · have hother : boundTo root name x = none := if_neg fun heq => hname (heq.symm.trans hx)
          rw [hother, ite_self]
        · exact if_pos (decide_eq_true hx)
      rw [hsame, if_neg hname, h.dirs]
      simp [boundTo, loadName, Ne.symm hname]
  · have hroute : routeOf r' p event (path, m) = routeOf r p event (path, m) := by
      unfold routeOf
      rw [h.declared]
    have hlast : (routeOf r p event (path, m)).toList = [(path, m)].filterMap (routeOf r p event) := by
      cases hroute : routeOf r p event (path, m) <;> simp [hroute]
    rw [routesAt_load h.own p event path, h.routes, hroute, lasts_concat, filterMap_append, filter_append,
      filterMap_filter_name (·.owner) (fun _ _ => routeOf_owner), filter_filter, hlast, append_assoc]
    refine congrArg (· ++ _) (filter_congr fun route _ => ?_)
    rw [map_append, map_singleton, ← Bool.decide_and]
    simp only [mem_append, mem_singleton, not_or, ne_eq]
    exact decide_eq_decide.mpr and_comm

theorem loadAll_append (ys : List (Path × Except String Manifest)) :
    s.loadAll root (xs ++ ys) = (s.loadAll root xs).loadAll root ys :=
  foldl_append

theorem After.loadAll (h : After root r ys s.registry) : After root r (ys ++ okOf xs) (s.loadAll root xs).registry := by
  induction xs using reverseRecOn with
  | nil => simpa [okOf, Loader.loadAll] using h
  | append_singleton xs x ih =>
    obtain ⟨path, outcome⟩ := x
    rw [loadAll_append, okOf_append, ← append_assoc]
    cases outcome with
    | ok m => exact ih.load path m _
    | error e =>
      rw [okOf_error, append_nil]
      exact ih

theorem log_loadAll : (s.loadAll root xs).log = s.log ++ xs.map Prod.fst := by
  induction xs using reverseRecOn with
  | nil => simp [Loader.loadAll]
  | append_singleton xs x ih =>
    obtain ⟨path, outcome⟩ := x
    rw [loadAll_append, map_append, ← append_assoc, ← ih]
    cases outcome <;> rfl

/-- What is reported of the plugins that failed. -/
def failureOf (root : String) (x : Path × Except String Manifest) : Option (String × String) :=
  match x.2 with
  | .ok _ => none
  | .error e => some (display root x.1, e)

theorem report_loadAll : (s.loadAll root xs).report =
    ⟨s.report.loaded ++ (okOf xs).map loadName, s.report.failed ++ xs.filterMap (failureOf root)⟩ := by
  induction xs using reverseRecOn with
  | nil => simp [Loader.loadAll, okOf]
  | append_singleton xs x ih =>
    obtain ⟨path, outcome⟩ := x
    rw [loadAll_append, okOf_append, map_append, filterMap_append, ← append_assoc, ← append_assoc]
    cases outcome with
    | ok m =>
      show ({ (s.loadAll root xs).report with loaded := (s.loadAll root xs).report.loaded ++ [m.name] } : LoadReport) = _
      rw [ih]
      simp [failureOf, loadName]
    | error e =>
      show ({ (s.loadAll root xs).report with failed :=
        (s.loadAll root xs).report.failed ++ [(display root path, e)] } : LoadReport) = _
      rw [ih]
      simp [failureOf]

end LoadAll

/-! ## where the order does not matter -/

section Discovers

variable {root : String} {fs fs' : Fs} {r : AiRegistry}

namespace Fs

theorem pluginAt_eq_some {dir : Path} {item : Item} {x : Path × Except String Manifest} (h : fs.pluginAt dir item = some x) :
    ∃ name, item = .dir name ∧ x.1 = dir ++ [name] := by
  cases item with
  | dir name =>
    simp only [pluginAt] at h
    split at h
    · contradiction
    · obtain ⟨outcome, -, rfl⟩ := Option.map_eq_some_iff.mp h
      exact ⟨name, rfl, rfl⟩
  | fails | other => contradiction

theorem items_nodup (fs : Fs) (dir : Path) : ((fs.items dir).filterMap Item.name?).Nodup := by
  unfold items
  cases hentries : fs.entries dir with
  | none => exact .nil
  | some items => exact fs.nodup dir items hentries

theorem pluginsIn_pairwise (fs : Fs) (dir : Path) : (fs.pluginsIn dir).Pairwise fun x y => x.1 ≠ y.1 := by
  have hnodup : ((fs.items dir).filterMap Item.name?).Pairwise (· ≠ ·) := fs.items_nodup dir
  refine pairwise_filterMap.mpr ((pairwise_filterMap.mp hnodup).imp fun {i j} hne x hx y hy heq => ?_)
  obtain ⟨name, rfl, hpath⟩ := pluginAt_eq_some hx
  obtain ⟨name', rfl, hpath'⟩ := pluginAt_eq_some hy
  rw [hpath, hpath', append_cancel_left_eq, List.cons.injEq] at heq
  exact hne name rfl name' rfl heq.1

theorem mem_loads {dir path : Path} {m : Manifest} : (path, m) ∈ fs.loads dir ↔ (path, Except.ok m) ∈ fs.pluginsIn dir := by
  unfold loads
  rw [mem_filterMap]
  constructor
  · rintro ⟨⟨path', outcome⟩, hmem, hx⟩
    cases outcome with
    | ok m' =>
      obtain ⟨rfl, rfl⟩ := Prod.mk.inj (Option.some.inj hx)
      exact hmem
    | error e => contradiction
  · exact fun hmem => ⟨_, hmem, rfl⟩

theorem loads_pairwise (fs : Fs) (dir : Path) : (fs.loads dir).Pairwise fun x y => x.1 ≠ y.1 := by
  refine pairwise_filterMap.mpr ((fs.pluginsIn_pairwise dir).imp fun {x y} hne a ha b hb heq => hne ?_)
  obtain ⟨m, -, rfl⟩ := Option.map_eq_some_iff.mp ha
  obtain ⟨m', -, rfl⟩ := Option.map_eq_some_iff.mp hb
  exact heq

theorem loads_nodup (fs : Fs) (dir : Path) : (fs.loads dir).Nodup :=
  (fs.loads_pairwise dir).imp fun hne heq => hne (congrArg Prod.fst heq)

end Fs

theorem SameTree.reads (h : SameTree fs fs') (hreads : fs.Reads) : fs'.Reads := by
  intro before dir after heq hfails dir' hdir'
  rw [h.scanned] at heq
  have hnil := hreads before dir after heq ((h.fails dir).mp hfails) dir' hdir'
  have hperm := h.loads dir'
  rw [hnil] at hperm
  exact List.perm_nil.mp hperm

theorem apart_boundTo (name : String) {x y : Path × Manifest} (h : Apart r x y) :
    loadName x ≠ loadName y ∧ (boundTo root name x = none ∨ boundTo root name y = none) := by
  refine ⟨h.1, ?_⟩
  by_cases hx : loadName x = name
  · exact .inr (if_neg fun hy => h.1 (hx.trans hy.symm))
  · exact .inl (if_neg hx)

theorem apart_routeOf (p : Nat) (event : String) {x y : Path × Manifest} (h : Apart r x y) :
    loadName x ≠ loadName y ∧ (routeOf r p event x = none ∨ routeOf r p event y = none) := by
  refine ⟨h.1, ?_⟩
  by_cases hx : x.2.priority = p ∧ (event ∈ x.2.hooks ∨ event ∈ r.declared x.2.name)
  · refine .inr (if_neg fun hy => ?_)
    exact h.2 event hx.2 hy.2 (hx.1.trans hy.1.symm)
  · exact .inl (if_neg hx)

section

variable (hown : r.hooks.Own) (hsingle : r.hooks.Single) (hreads : fs.Reads)
include hown hsingle hreads

theorem after_of_reads :
    After root r (fs.scanned.flatMap fs.loads) (loadPlugins root fs r).1.registry := by
  obtain ⟨xs, hload, hok, -⟩ := @loaded_of_reads root fs r hreads
  rw [hload, ← hok]
  exact @After.loadAll _ _ _ _ [] (.nil hown hsingle)

theorem sameOutcome_of_distinct (hdistinct : fs.Distinct r) (hsame : SameTree fs fs') :
    SameOutcome (loadPlugins root fs r) (loadPlugins root fs' r) := by
  have hafter := @after_of_reads root fs r hown hsingle hreads
  have hafter' := @after_of_reads root fs' r hown hsingle (hsame.reads hreads)
  rw [hsame.scanned] at hafter'
  have hperm : ∀ dir, (fs.loads dir).Perm (fs'.loads dir) := fun dir => (hsame.loads dir).symm
  obtain ⟨xs, hload, -, hall⟩ := @loaded_of_reads root fs r hreads
  obtain ⟨xs', hload', -, hall'⟩ := @loaded_of_reads root fs' r (hsame.reads hreads)
  have hfails : (∀ dir ∈ fs'.scanned, ¬ fs'.Fails dir) ↔ ∀ dir ∈ fs.scanned, ¬ fs.Fails dir := by
    rw [hsame.scanned]
    exact forall₂_congr fun dir _ => not_congr (hsame.fails dir)
  refine ⟨fun name => ?_, fun event => ?_, ?_, fun hreturned => ?_⟩
  · rw [hafter.dirs, hafter'.dirs, filterMap_lasts_flatMap hdistinct (fun _ _ => apart_boundTo name) hperm fs.loads_nodup]
  · refine congrArg (List.map _) (MemoryDispatcher.routes_eq_of_routesAt fun p => ?_)
    rw [hafter.routes, hafter'.routes,
      filterMap_lasts_flatMap hdistinct (fun _ _ => apart_routeOf p event) hperm fs.loads_nodup]
    refine congrArg (· ++ _) (filter_congr fun route _ => decide_eq_decide.mpr (not_congr ?_))
    exact ((List.Perm.flatMap_left _ fun dir _ => hperm dir).map loadName).mem_iff
  · rw [hload, hload']
    exact decide_eq_decide.mpr hfails.symm
  · rw [hload] at hreturned
    have hnone := of_decide_eq_true hreturned
    have hfound : (fs.scanned.flatMap fs.pluginsIn).Perm (fs'.scanned.flatMap fs'.pluginsIn) := by
      rw [hsame.scanned]
      exact List.Perm.flatMap_left _ fun dir _ => (hsame.pluginsIn dir).symm
    rw [hload, hload', report_loadAll, report_loadAll, hall hnone, hall' (hfails.mpr hnone)]
    exact ⟨((hfound.filterMap _).map _).append_left _, (hfound.filterMap _).append_left _⟩

theorem discovers_of_distinct (hdistinct : fs.Distinct r) : Discovers root fs r := by
  refine fun fs' hsame => ⟨sameOutcome_of_distinct hown hsingle hreads hdistinct hsame, fun path hoffers => ?_⟩
  obtain ⟨dir, hdir, m, hm⟩ := hoffers
  obtain ⟨xs', hload', hok', -⟩ := @loaded_of_reads root fs' r (hsame.reads hreads)
  have hin : (path, m) ∈ okOf xs' := by
    rw [hok', hsame.scanned]
    exact mem_flatMap.mpr ⟨dir, hdir, (hsame.loads dir).mem_iff.mpr (Fs.mem_loads.mpr hm)⟩
  obtain ⟨x, hx, hok⟩ := mem_filterMap.mp hin
  obtain ⟨m', -, heq⟩ := Option.map_eq_some_iff.mp hok
  rw [hload', log_loadAll]
  exact mem_append_right _ (mem_map.mpr ⟨x, hx, congrArg Prod.fst heq⟩)

end

end Discovers

/-! ## where it does -/

section Orders

variable {root : String} {fs fs' : Fs} {r : AiRegistry}

namespace Fs

theorem prefix_of_mem_dirs {n : Nat} {dir x : Path} (h : x ∈ fs.dirs n dir) : dir <+: x := by
  induction n generalizing dir with
  | zero =>
    obtain rfl := mem_singleton.mp h
    exact prefix_refl _
  | succ n ih =>
    obtain rfl | h := List.mem_cons.mp h
    · exact prefix_refl _
    · obtain ⟨name, -, hx⟩ := mem_flatMap.mp h
      exact (prefix_append dir [name]).trans (ih hx)

theorem nodup_containers (fs : Fs) (dir : Path) : (fs.containers dir).Nodup := by
  refine (perm_insertionSort _ _).nodup_iff.mpr ?_
  have hnodup : ((fs.items dir).filterMap Item.name?).Pairwise (· ≠ ·) := fs.items_nodup dir
  refine pairwise_filterMap.mpr ((pairwise_filterMap.mp hnodup).imp fun {i j} hne name hname name' hname' => ?_)
  have hitem : ∀ {i : Item} {name : String}, fs.containerAt dir i = some name → i.name? = some name := by
    intro i name hi
    cases i with
    | dir n =>
      simp only [containerAt] at hi
      split at hi
      · contradiction
      · exact hi
    | fails | other => contradiction
  exact hne name (hitem hname) name' (hitem hname')

theorem nodup_dirs (fs : Fs) (n : Nat) (dir : Path) : (fs.dirs n dir).Nodup := by
  induction n generalizing dir with
  | zero => exact nodup_singleton dir
  | succ n ih =>
    refine List.nodup_cons.mpr ⟨fun hmem => ?_, List.nodup_flatMap.mpr ⟨fun name _ => ih _, ?_⟩⟩
    · obtain ⟨name, -, hx⟩ := mem_flatMap.mp hmem
      have hlen := (prefix_of_mem_dirs hx).length_le
      rw [length_append, length_singleton] at hlen
      omega
    · refine (fs.nodup_containers dir).imp fun {name name'} hne x hx hx' => hne ?_
      have heq := prefix_of_prefix_length_le (prefix_of_mem_dirs hx) (prefix_of_mem_dirs hx') (by simp)
      simpa using heq.eq_of_length (by simp)

theorem nodup_scanned (fs : Fs) : fs.scanned.Nodup := by
  unfold scanned
  split
  · exact fs.nodup_dirs _ _
  · exact .nil

/-- The entries of one directory named in another order. -/
def reorder (fs : Fs) (dir : Path) (items : List Item) (h : items.Perm (fs.items dir)) : Fs where
  present := fs.present
  entries := Function.update fs.entries dir ((fs.entries dir).map fun _ => items)
  plugin := fs.plugin
  nodup dir' items' hitems := by
    by_cases hdir : dir' = dir
    · subst hdir
      rw [Function.update_self] at hitems
      obtain ⟨-, -, rfl⟩ := Option.map_eq_some_iff.mp hitems
      exact (h.filterMap _).nodup_iff.mpr (fs.items_nodup dir')
    · rw [Function.update_of_ne hdir] at hitems
      exact fs.nodup dir' items' hitems

theorem sameTree_reorder {dir : Path} {items : List Item} (h : items.Perm (fs.items dir)) :
    SameTree fs (fs.reorder dir items h) := by
  refine ⟨rfl, rfl, fun dir' => ?_⟩
  by_cases hdir : dir' = dir
  · subst hdir
    simp only [reorder, Function.update_self]
    cases hentries : fs.entries dir' with
    | none => exact .inl ⟨rfl, rfl⟩
    | some old =>
      rw [Fs.items, hentries] at h
      exact .inr ⟨old, items, rfl, rfl, h⟩
  · simp only [reorder, Function.update_of_ne hdir]
    cases hentries : fs.entries dir' with
    | none => exact .inl ⟨rfl, rfl⟩
    | some old => exact .inr ⟨old, old, rfl, rfl, .refl _⟩

theorem items_reorder {dir : Path} {items : List Item} (h : items.Perm (fs.items dir)) :
    (fs.reorder dir items h).items dir = items := by
  simp only [Fs.items, reorder, Function.update_self]
  cases hentries : fs.entries dir with
  | none =>
    rw [Fs.items, hentries] at h
    exact (List.perm_nil.mp h).symm
  | some old => rfl

theorem exists_fails_first {dir : Path} (h : fs.Fails dir) : ∃ fs', SameTree fs fs' ∧ fs'.read dir = [] := by
  by_cases hmem : Item.fails ∈ fs.items dir
  · have hperm : (Item.fails :: (fs.items dir).erase .fails).Perm (fs.items dir) := (perm_cons_erase hmem).symm
    refine ⟨fs.reorder dir _ hperm, sameTree_reorder hperm, ?_⟩
    rw [read, items_reorder hperm]
    rfl
  · have hnone : fs.items dir = [] := by
      rw [items, h.resolve_right hmem]
      rfl
    refine ⟨fs, ⟨rfl, rfl, fun dir' => ?_⟩, by rw [read, hnone]; rfl⟩
    cases hentries : fs.entries dir' with
    | none => exact .inl ⟨rfl, rfl⟩
    | some items => exact .inr ⟨items, items, rfl, rfl, .refl _⟩

theorem exists_last {dir : Path} {x : Path × Manifest} (h : x ∈ fs.loads dir) :
    ∃ fs', SameTree fs fs' ∧ ∃ xs, fs'.loads dir = xs ++ [x] := by
  obtain ⟨y, hy, hok⟩ := mem_filterMap.mp h
  obtain ⟨item, hitem, hplugin⟩ := mem_filterMap.mp hy
  have hperm : ((fs.items dir).erase item ++ [item]).Perm (fs.items dir) :=
    (List.perm_append_comm.trans (perm_cons_erase hitem).symm)
  refine ⟨fs.reorder dir _ hperm, sameTree_reorder hperm, ?_⟩
  rw [loads, pluginsIn, items_reorder hperm, (sameTree_reorder hperm).pluginAt, filterMap_append, filterMap_append]
  refine ⟨_, congrArg (_ ++ ·) ?_⟩
  simp only [filterMap_cons, hplugin, filterMap_nil, hok]

end Fs

theorem not_swapped {α : Type} {l : List α} {x y : α} (h : l.Nodup) (hxy : [x, y].Sublist l) : ¬ [y, x].Sublist l := by
  intro hyx
  induction l with
  | nil => contradiction
  | cons z l ih =>
    obtain ⟨hnot, hnodup⟩ := List.nodup_cons.mp h
    have hin : ∀ {a b : α}, [a, b].Sublist l → a ∈ l ∧ b ∈ l := fun hs => ⟨hs.subset (by simp), hs.subset (by simp)⟩
    obtain hxy' | ⟨rfl, hy⟩ := List.cons_sublist_cons'.mp hxy
    · obtain hyx' | ⟨rfl, -⟩ := List.cons_sublist_cons'.mp hyx
      · exact ih hnodup hxy' hyx'
      · exact hnot (hin hxy').2
    · obtain hyx' | ⟨rfl, -⟩ := List.cons_sublist_cons'.mp hyx
      · exact hnot (hin hyx').2
      · exact hnot (List.singleton_sublist.mp hy)

theorem After.single_bound {r' : AiRegistry} {xs : List (Path × Manifest)} (h : After root r xs r') {x : Path × Manifest}
    (hx : x ∈ lasts loadName xs) : (r'.providers (loadName x)).map (·.dir) = some (display root x.1) := by
  have hpairs : (lasts loadName xs).Pairwise fun a b => boundTo root (loadName x) a = none ∨
    boundTo root (loadName x) b = none := by
    have hnames : (lasts loadName xs).Pairwise fun a b => loadName a ≠ loadName b :=
      List.pairwise_map.mp (nodup_names_lasts xs)
    refine hnames.imp fun {a b} hne => ?_
    by_cases ha : loadName a = loadName x
    · exact .inr (if_neg fun hb => hne (ha.trans hb.symm))
    · exact .inl (if_neg ha)
  have hmem : display root x.1 ∈ (lasts loadName xs).filterMap (boundTo root (loadName x)) :=
  mem_filterMap.mpr ⟨x, hx, if_pos rfl⟩
  rw [h.dirs]
  obtain hnil | ⟨b, hb⟩ := filterMap_short hpairs
  · rw [hnil] at hmem
    contradiction
  · rw [hb] at hmem ⊢
    rw [mem_singleton.mp hmem]
    rfl

/-- The hooks of two plugins that share an event at one priority, in the order of their loads. -/
theorem After.pair_hooksFor {r' : AiRegistry} {xs : List (Path × Manifest)} (h : After root r xs r')
    {x y : Path × Manifest} {event : String}
    (hxy : [x, y].Sublist (lasts loadName xs)) (hpriority : x.2.priority = y.2.priority)
    (hx : event ∈ x.2.hooks ∨ event ∈ r.declared x.2.name) (hy : event ∈ y.2.hooks ∨ event ∈ r.declared y.2.name) :
    [(ProviderHook.mk x.2.name event).name, (ProviderHook.mk y.2.name event).name].Sublist (r'.hooks.hooksFor event) := by
  have hroutes : ([x, y].filterMap (routeOf r y.2.priority event)).Sublist (r'.hooks.routesAt y.2.priority event) := by
    rw [h.routes]
    exact (hxy.filterMap _).trans (sublist_append_right _ _)
  have hshared := (hroutes.trans filter_sublist).map (·.hook.name)
  simpa [MemoryDispatcher.hooksFor, routeOf, hpriority, hx, hy] using hshared

end Orders

section Converse

variable {root : String} {fs fs' : Fs} {r : AiRegistry}

theorem display_concat (dir : Path) (name : String) : display root (dir ++ [name]) = display root dir ++ "/" ++ name := by
  simp [display, foldl_append]

theorem Fs.mem_loads_dir {dir : Path} {x : Path × Manifest} (h : x ∈ fs.loads dir) : ∃ name, x.1 = dir ++ [name] := by
  obtain ⟨item, -, hitem⟩ := mem_filterMap.mp (mem_loads.mp h)
  obtain ⟨name, -, hname⟩ := pluginAt_eq_some hitem
  exact ⟨name, hname⟩

theorem Fs.eq_of_display {dir : Path} {x y : Path × Manifest} (hx : x ∈ fs.loads dir) (hy : y ∈ fs.loads dir)
    (h : display root x.1 = display root y.1) : x = y := by
  obtain ⟨name, hname⟩ := mem_loads_dir hx
  obtain ⟨name', hname'⟩ := mem_loads_dir hy
  rw [hname, hname', display_concat, display_concat, String.append_right_inj] at h
  have hpaths : ((fs.loads dir).map Prod.fst).Nodup := List.pairwise_map.mpr (fs.loads_pairwise dir)
  refine inj_on_of_nodup_map hpaths hx hy ?_
  rw [hname, hname', h]

/-- Where everything is loaded in every order, nothing is in or behind a directory that fails. -/
theorem reads_of_discovers (h : Discovers root fs r) : fs.Reads := by
  intro before dir after heq hfails dir' hdir'
  refine List.eq_nil_iff_forall_not_mem.mpr fun x hx => ?_
  -- the first directory that fails
  obtain hnone | ⟨b, d, a, hfirst, hb, hd⟩ := first_fails fs (before ++ [dir])
  · exact hnone dir (mem_append_right _ mem_cons_self) hfails
  · have hscanned : fs.scanned = b ++ d :: (a ++ after) := by
      rw [heq, ← singleton_append, ← append_assoc, hfirst]
      simp
    have hbehind : dir' ∈ d :: (a ++ after) := by
      obtain rfl | hafter := List.mem_cons.mp hdir'
      · have hmem : dir' ∈ b ++ d :: a := hfirst ▸ mem_append_right _ mem_cons_self
        obtain hin | hin := mem_append.mp hmem
        · exact absurd hfails (hb dir' hin)
        · rw [← cons_append]
          exact mem_append_left _ hin
      · exact mem_cons_of_mem _ (mem_append_right _ hafter)
    obtain ⟨fs', hsame, hread⟩ := Fs.exists_fails_first hd
    have hloaded : x.1 ∈ (loadPlugins root fs' r).1.log := by
      refine (h fs' hsame).2 x.1 ⟨dir', ?_, x.2, Fs.mem_loads.mp hx⟩
      rw [hscanned]
      exact mem_append_right _ hbehind
    rw [loadPlugins_eq, hsame.scanned, hscanned, visits_of_fails (fun d' hd' => fun hf => hb d' hd' ((hsame.fails d').mp hf))
      ((hsame.fails d).mpr hd), hread, append_nil, log_loadAll] at hloaded
    obtain ⟨y, hy, hpath⟩ := mem_map.mp hloaded
    obtain ⟨d', hd', hy⟩ := mem_flatMap.mp hy
    obtain ⟨item, -, hitem⟩ := mem_filterMap.mp hy
    obtain ⟨name, -, hname⟩ := Fs.pluginAt_eq_some hitem
    obtain ⟨name', hname'⟩ := Fs.mem_loads_dir hx
    -- its directory would come before and behind
    have hsamedir : d' = dir' := by
      rw [hname, hname'] at hpath
      exact (append_inj' hpath rfl).1
    have hnodup := fs.nodup_scanned
    rw [hscanned] at hnodup
    exact (List.nodup_append.mp hnodup).2.2 d' hd' dir' hbehind hsamedir

theorem exists_kept (hown : r.hooks.Own) (hsingle : r.hooks.Single) (hreads : fs.Reads)
    {before after : List Path} {dir : Path}
    (heq : fs.scanned = before ++ dir :: after) {x : Path × Manifest} (hx : x ∈ fs.loads dir) :
    ∃ fs' xs, SameTree fs fs' ∧ (xs ++ [x]).Perm (fs.loads dir) ∧
      After root r (before.flatMap fs'.loads ++ ((xs ++ [x]) ++ after.flatMap fs'.loads))
        (loadPlugins root fs' r).1.registry ∧
      ∀ name, name ∈ (after.flatMap fs'.loads).map loadName ↔ name ∈ (after.flatMap fs.loads).map loadName := by
  obtain ⟨fs', hsame, xs, hxs⟩ := Fs.exists_last hx
  have hafter := @after_of_reads root fs' r hown hsingle (hsame.reads hreads)
  rw [hsame.scanned, heq, flatMap_append, flatMap_cons, hxs] at hafter
  refine ⟨fs', xs, hsame, hxs ▸ hsame.loads dir, hafter, fun name => ?_⟩
  exact ((List.Perm.flatMap_left _ fun d _ => hsame.loads d).map loadName).mem_iff

theorem mem_lasts_concat {before after xs : List (Path × Manifest)} {x : Path × Manifest}
    (hfree : loadName x ∉ after.map loadName) :
    x ∈ lasts loadName (before ++ ((xs ++ [x]) ++ after)) := by
  rw [lasts_append, lasts_append loadName (xs ++ [x]), lasts_concat]
  simp only [mem_append, mem_filter, mem_singleton]
  exact .inr (.inl ⟨.inr trivial, decide_eq_true hfree⟩)

theorem names_of_discovers (hown : r.hooks.Own) (hsingle : r.hooks.Single) (h : Discovers root fs r) :
    Clear loadName fs.loads (fun x y => loadName x ≠ loadName y) fs.scanned := by
  have hreads := reads_of_discovers h
  intro before dir after heq x hx y hy hne hfx hfy hname
  -- with either of them last, the name is bound to its directory
  have hbound : ∀ z ∈ fs.loads dir, loadName z ∉ (after.flatMap fs.loads).map loadName →
      ((loadPlugins root fs r).1.registry.providers (loadName z)).map (·.dir) = some (display root z.1) := by
    intro z hz hfz
    obtain ⟨fs', xs, hsame, -, hafter, hnames⟩ := @exists_kept root fs r hown hsingle hreads _ _ _ heq _ hz
    rw [(h fs' hsame).1.registered]
    exact hafter.single_bound (mem_lasts_concat fun hin => hfz ((hnames _).mp hin))
  have hdirs := (hbound x hx hfx).symm.trans ((congrArg (fun name =>
    ((loadPlugins root fs r).1.registry.providers name).map (·.dir)) hname).trans (hbound y hy hfy))
  exact hne (Fs.eq_of_display hx hy (Option.some.inj hdirs))

theorem distinct_of_discovers (hown : r.hooks.Own) (hsingle : r.hooks.Single) (h : Discovers root fs r) : fs.Distinct r := by
  have hreads := reads_of_discovers h
  have hnames := names_of_discovers hown hsingle h
  intro before dir after heq x hx y hy hne hfx hfy
  refine ⟨hnames before dir after heq x hx y hy hne hfx hfy, fun event hex hey hpriority => ?_⟩
  -- with either of them last, its hook is behind that of the other
  have hbehind : ∀ a ∈ fs.loads dir, ∀ b ∈ fs.loads dir, b ≠ a → loadName a ∉ (after.flatMap fs.loads).map loadName →
      loadName b ∉ (after.flatMap fs.loads).map loadName → b.2.priority = a.2.priority →
      (event ∈ b.2.hooks ∨ event ∈ r.declared b.2.name) → (event ∈ a.2.hooks ∨ event ∈ r.declared a.2.name) →
      [(ProviderHook.mk b.2.name event).name, (ProviderHook.mk a.2.name event).name].Sublist
        ((loadPlugins root fs r).1.registry.hooks.hooksFor event) := by
    intro a ha b hb hba hfa hfb hp heb hea
    obtain ⟨fs', xs, hsame, hperm, hafter, hlater⟩ := @exists_kept root fs r hown hsingle hreads _ _ _ heq _ ha
    rw [(h fs' hsame).1.hooks]
    have hin : b ∈ xs := by
      obtain hin | hin := mem_append.mp (hperm.mem_iff.mpr hb)
      · exact hin
      · exact absurd (mem_singleton.mp hin) hba
    have honly : ∀ c ∈ xs, loadName c = loadName b → c = b := by
      intro c hc hcb
      by_contra hne
      have hc' := hperm.mem_iff.mp (mem_append_left [a] hc)
      exact hnames before dir after heq c hc' b hb hne (hcb ▸ hfb) hfb hcb
    exact hafter.pair_hooksFor (pair_sublist_lasts hin honly (hnames before dir after heq b hb a ha hba hfb hfa)
      (fun hin => hfa ((hlater _).mp hin)) fun hin => hfb ((hlater _).mp hin)) hp heb hea
  have hafter := @after_of_reads root fs r hown hsingle hreads
  exact not_swapped (MemoryDispatcher.nodup_hooksFor hafter.own hafter.single event)
    (hbehind y hy x hx hne hfy hfx hpriority hex hey) (hbehind x hx y hy (Ne.symm hne) hfx hfy hpriority.symm hey hex)

end Converse

/-! ## runs -/

/-- What every registry has of its dispatcher. -/
structure Tidy (s : State) : Prop where
  own : s.registry.hooks.Own
  single : s.registry.hooks.Single

namespace Tidy

variable {s s' : State}

theorem new : Tidy State.new := ⟨own_new, fun _ => .nil⟩

theorem registers (h : Tidy s) {r : AiRegistry} {m : Manifest} {since : String → List String}
    (hhooks : r.hooks = s.registry.hooks) :
    Tidy ⟨r.registerManifestHooks m, since⟩ := by
  have hown : r.hooks.Own := hhooks ▸ h.own
  have hsingle : r.hooks.Single := hhooks ▸ h.single
  exact ⟨own_registerAll (own_unregisterOwner hown),
    MemoryDispatcher.single_registerAll (own_unregisterOwner hown) (MemoryDispatcher.single_unregisterOwner hsingle)⟩

theorem drops (h : Tidy s) {r : AiRegistry} {name : String} {since : String → List String}
    (hhooks : r.hooks = s.registry.hooks.unregisterOwner name) : Tidy ⟨r, since⟩ :=
  ⟨hhooks ▸ own_unregisterOwner h.own, hhooks ▸ MemoryDispatcher.single_unregisterOwner h.single⟩

theorem step {a : Action} (h : Tidy s) (hstep : s.step a = some s') : Tidy s' := by
  cases a with
  | load m dir started =>
    obtain rfl := Option.some.inj hstep
    exact h.registers insertLoaded_hooks
  | remove name =>
    obtain rfl := Option.some.inj hstep
    exact h.drops rfl
  | declareConfigHook plugin event =>
    obtain rfl := Option.some.inj hstep
    exact ⟨MemoryDispatcher.own_registerOwned h.own, MemoryDispatcher.single_registerOwned h.own h.single⟩
  | unload name =>
    simp only [State.step] at hstep
    split at hstep
    · obtain rfl := Option.some.inj hstep
      exact h.drops rfl
    · contradiction
  | reloadScript name m =>
    simp only [State.step] at hstep
    split at hstep
    · split at hstep
      · obtain rfl := Option.some.inj hstep
        exact h.registers rfl
      · contradiction
    · contradiction

end Tidy

/-- With any registry that is reached, the order in which a file system names its entries does not
matter to a scan, and nothing is left out by it, exactly when nothing is left to load in or behind a
directory that fails and the plugins of one directory are apart. -/
theorem discovery_iff {acts : List Action} {s : State}
    (hexec : exec State.step State.new acts = some s) (root : String) (fs : Fs) :
    Discovers root fs s.registry ↔ fs.Reads ∧ fs.Distinct s.registry := by
  obtain ⟨hown, hsingle⟩ := exec_invariant (fun _ _ _ h hstep => h.step hstep) hexec Tidy.new
  exact ⟨fun h => ⟨reads_of_discovers h, distinct_of_discovers hown hsingle h⟩,
    fun h => discovers_of_distinct hown hsingle h.1 h.2⟩

/-- Two plugins beside a container with one that does not load, and what is not looked at. -/
def cookbook : Fs where
  present := true
  entries
    | [] => some [.dir ".git", .dir "tts", .other, .dir "cookbook", .dir "ivr"]
    | ["cookbook"] => some [.dir "old"]
    | _ => none
  plugin
    | ["tts"] => some (.ok sidecarManifest)
    | ["ivr"] => some (.ok scriptManifest)
    | ["cookbook", "old"] => some (.error "plugin.toml missing")
    | _ => none
  nodup dir items h := by
    split at h
    · obtain rfl := Option.some.inj h
      decide
    · obtain rfl := Option.some.inj h
      decide
    · contradiction

theorem discovers_cookbook : Discovers "plugins" cookbook
    (State.new.registry.declareConfigHook "ivr" "on_dialog_created") := by
  refine (@discovery_iff [.declareConfigHook "ivr" "on_dialog_created"] _ rfl "plugins" cookbook).mpr ⟨?_, ?_⟩
  · intro before dir after heq hfails
    have hmem : dir ∈ cookbook.scanned := by
      rw [heq]
      exact mem_append_right _ mem_cons_self
    have hreads : ∀ dir ∈ cookbook.scanned, ¬ cookbook.Fails dir := by decide +kernel
    exact absurd hfails (hreads dir hmem)
  · intro before dir after heq x hx y hy hne
    have hmem : dir ∈ cookbook.scanned := by
      rw [heq]
      exact mem_append_right _ mem_cons_self
    have hapart : ∀ dir ∈ cookbook.scanned, ∀ x ∈ cookbook.loads dir, ∀ y ∈ cookbook.loads dir, x ≠ y →
        x.2.name ≠ y.2.name ∧ x.2.priority ≠ y.2.priority := by
      decide +kernel
    obtain ⟨hname, hpriority⟩ := hapart dir hmem x hx y hy hne
    exact fun _ _ => ⟨hname, fun _ _ _ => hpriority⟩

/-- Two versions of a plugin side by side, in either order. -/
def versions (first second : String) (h : first ≠ second) : Fs where
  present := true
  entries dir := if dir = [] then some [.dir first, .dir second] else none
  plugin dir := if dir = [first] ∨ dir = [second] then some (.ok sidecarManifest) else none
  nodup dir items hitems := by
    split at hitems
    · obtain rfl := Option.some.inj hitems
      simpa [Item.name?] using h
    · contradiction

/-- A container that cannot be read, before one with a plugin. -/
def shut : Fs where
  present := true
  entries
    | [] => some [.dir "closed", .dir "open"]
    | ["open"] => some [.dir "tts"]
    | _ => none
  plugin dir := if dir = ["open", "tts"] then some (.ok sidecarManifest) else none
  nodup dir items h := by
    split at h
    · obtain rfl := Option.some.inj h
      decide
    · obtain rfl := Option.some.inj h
      decide
    · contradiction

/-- The name is bound to the directory that happens to be named last, and a container that cannot
be read keeps a plugin outside it from being loaded. -/
theorem versions_unordered : (∃ fs fs', SameTree fs fs' ∧
      ((loadPlugins "plugins" fs .new).1.registry.providers "tts").map (·.dir) = some "plugins/v2" ∧
      ((loadPlugins "plugins" fs' .new).1.registry.providers "tts").map (·.dir) =
        some "plugins/v1" ∧ ¬ Discovers "plugins" fs .new) ∧
    shut.Offers ["open", "tts"] ∧ (loadPlugins "plugins" shut .new).1.log = [] := by
  have hfirst : ((loadPlugins "plugins" (versions "v1" "v2"
    (by decide)) .new).1.registry.providers "tts").map (·.dir) = some "plugins/v2" := by
    decide +kernel
  have hsecond : ((loadPlugins "plugins" (versions "v2" "v1"
    (by decide)) .new).1.registry.providers "tts").map (·.dir) = some "plugins/v1" := by
    decide +kernel
  have hsame : SameTree (versions "v1" "v2" (by decide)) (versions "v2" "v1" (by decide)) := by
    refine ⟨rfl, funext fun dir => ?_, fun dir => ?_⟩
    · simp only [versions, or_comm]
    · by_cases hdir : dir = []
      · refine .inr ⟨_, _, if_pos hdir, if_pos hdir, .swap _ _ _⟩
      · exact .inl ⟨if_neg hdir, if_neg hdir⟩
  refine ⟨⟨_, _, hsame, hfirst, hsecond, fun h => ?_⟩,
    ⟨["open"], by decide +kernel, sidecarManifest, by decide +kernel⟩, by decide +kernel⟩
  have hregistered := (h _ hsame).1.registered "tts"
  rw [hfirst, hsecond] at hregistered
  exact absurd hregistered (by decide)

end SmithsNet.Plugin
