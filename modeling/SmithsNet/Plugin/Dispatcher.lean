import Mathlib

/-!
# SmithsNet.Plugin.Dispatcher

The routes of the hook dispatcher (`smiths-plugin/src/dispatcher.rs`): for every
event the hooks that are called, by priority, those of one priority in the order
they were registered.

A hook is known by its name, `plugin.event`, and a second registration of a name
takes the place of the first.  `routesOf` are the routes of one owner: registering
a hook makes one of them and leaves the others as they were, up to their order.
-/

namespace SmithsNet.Plugin

/-- A hook that calls a plugin's method through the provider map. -/
structure ProviderHook where
  plugin : String
  method : String
  deriving DecidableEq

def ProviderHook.name (h : ProviderHook) : String := h.plugin ++ "." ++ h.method

structure Route where
  priority : Nat
  owner : String
  hook : ProviderHook
  deriving DecidableEq

/-- The routes of every event are sorted by priority. -/
structure MemoryDispatcher where
  routes : String → List Route
  sorted : ∀ event, (routes event).Pairwise fun a b => a.priority ≤ b.priority

namespace MemoryDispatcher

def new : MemoryDispatcher := ⟨fun _ => [], fun _ => .nil⟩

/-- `sort_by_key`, which is stable. -/
def sortByPriority (rs : List Route) : List Route := rs.insertionSort fun a b => a.priority ≤ b.priority

theorem pairwise_sortByPriority (rs : List Route) :
    (sortByPriority rs).Pairwise fun a b => a.priority ≤ b.priority := by
  have : Std.Total fun a b : Route => a.priority ≤ b.priority := ⟨fun a b => Nat.le_total _ _⟩
  have : IsTrans Route fun a b => a.priority ≤ b.priority := ⟨fun a b c => Nat.le_trans⟩
  exact List.pairwise_insertionSort _ rs

/-- Register `hook` for `event` in place of the one with its name. -/
def registerOwned (d : MemoryDispatcher) (owner event : String) (priority : Nat) (hook : ProviderHook) :
    MemoryDispatcher where
  routes := Function.update d.routes event
    (sortByPriority ((d.routes event).filter (·.hook.name ≠ hook.name) ++ [⟨priority, owner, hook⟩]))
  sorted event' := by
    rw [Function.update_apply]
    split
    · exact pairwise_sortByPriority _
    · exact d.sorted event'

/-- Drop every hook `owner` registered, across all events. -/
def unregisterOwner (d : MemoryDispatcher) (owner : String) : MemoryDispatcher where
  routes event := (d.routes event).filter (·.owner ≠ owner)
  sorted event := (d.sorted event).filter _

/-- The routes of one owner. -/
def routesOf (d : MemoryDispatcher) (owner event : String) : List Route :=
  (d.routes event).filter (·.owner = owner)

/-- Every hook is the one of its owner for its event. -/
def Own (d : MemoryDispatcher) : Prop := ∀ event, ∀ r ∈ d.routes event, r.hook = ⟨r.owner, event⟩

section

variable {d : MemoryDispatcher} {owner owner' event event' : String} {priority : Nat}

theorem own_new : new.Own := fun _ _ h => absurd h List.not_mem_nil

theorem own_unregisterOwner (h : d.Own) : (d.unregisterOwner owner).Own :=
  fun event r hr => h event r (List.mem_filter.mp hr).1

theorem routesOf_unregisterOwner :
    (d.unregisterOwner owner).routesOf owner' event = if owner' = owner then [] else d.routesOf owner' event := by
  simp only [routesOf, unregisterOwner, List.filter_filter]
  split
  · next hsame =>
    subst hsame
    simp
  · next hne =>
    refine List.filter_congr fun r _ => ?_
    by_cases hr : r.owner = owner' <;> simp [hr, hne]

theorem name_ne_iff : (ProviderHook.mk owner event).name ≠ (ProviderHook.mk owner' event).name ↔ owner ≠ owner' := by
  simp only [ProviderHook.name, ne_eq, String.append_left_inj]

/-- The routes of the event, up to their order: those of the others, and the new one. -/
theorem routes_registerOwned_perm (h : d.Own) :
    ((d.registerOwned owner event priority ⟨owner, event⟩).routes event).Perm
      ((d.routes event).filter (·.owner ≠ owner) ++ [⟨priority, owner, ⟨owner, event⟩⟩]) := by
  simp only [registerOwned, Function.update_self]
  refine (List.perm_insertionSort _ _).trans (.of_eq ?_)
  congr 1
  refine List.filter_congr fun r hr => ?_
  rw [h event r hr]
  exact decide_eq_decide.mpr name_ne_iff

theorem routes_registerOwned_ne (hne : event' ≠ event) :
    (d.registerOwned owner event priority ⟨owner, event⟩).routes event' = d.routes event' :=
  Function.update_of_ne hne _ _

theorem own_registerOwned (h : d.Own) : (d.registerOwned owner event priority ⟨owner, event⟩).Own := by
  intro event' r hr
  by_cases hevent : event' = event
  · subst hevent
    obtain hr | hr := List.mem_append.mp ((routes_registerOwned_perm h).mem_iff.mp hr)
    · exact h event' r (List.mem_filter.mp hr).1
    · rw [List.mem_singleton.mp hr]
  · rw [routes_registerOwned_ne hevent] at hr
    exact h event' r hr

theorem routesOf_registerOwned_self (h : d.Own) :
    (d.registerOwned owner event priority ⟨owner, event⟩).routesOf owner event =
      [⟨priority, owner, ⟨owner, event⟩⟩] := by
  refine List.perm_singleton.mp (((routes_registerOwned_perm h).filter _).trans (.of_eq ?_))
  simp [List.filter_append, List.filter_filter]

theorem routesOf_registerOwned_ne (h : d.Own) (hne : owner' ≠ owner ∨ event' ≠ event) :
    ((d.registerOwned owner event priority ⟨owner, event⟩).routesOf owner' event').Perm (d.routesOf owner' event') := by
  by_cases hevent : event' = event
  · subst hevent
    have howner : owner' ≠ owner := hne.resolve_right (not_not_intro rfl)
    refine ((routes_registerOwned_perm h).filter _).trans (.of_eq ?_)
    simp only [List.filter_append, List.filter_filter, routesOf]
    rw [List.filter_singleton, decide_eq_false (Ne.symm howner), cond_false, List.append_nil]
    refine List.filter_congr fun r _ => ?_
    by_cases hr : r.owner = owner' <;> simp [hr, howner]
  · rw [routesOf, routes_registerOwned_ne hevent]
    exact .refl _

end

/-- Register one hook for each of some events. -/
def registerAll (d : MemoryDispatcher) (owner : String) (priority : Nat) (events : List String) : MemoryDispatcher :=
  events.foldl (fun d event => d.registerOwned owner event priority ⟨owner, event⟩) d

section

variable {d : MemoryDispatcher} {owner owner' event : String} {priority : Nat} {events : List String}

theorem own_registerAll (h : d.Own) : (d.registerAll owner priority events).Own := by
  induction events generalizing d with
  | nil => exact h
  | cons e events ih => exact ih (own_registerOwned h)

theorem routesOf_registerAll_ne (h : d.Own) (hne : owner' ≠ owner ∨ event ∉ events) :
    ((d.registerAll owner priority events).routesOf owner' event).Perm (d.routesOf owner' event) := by
  induction events generalizing d with
  | nil => exact .refl _
  | cons e events ih =>
    rw [List.mem_cons, not_or] at hne
    exact (ih (own_registerOwned h) (hne.imp id And.right)).trans
      (routesOf_registerOwned_ne h (hne.imp id And.left))

theorem routesOf_registerAll_of_mem (h : d.Own) (hmem : event ∈ events) :
    (d.registerAll owner priority events).routesOf owner event = [⟨priority, owner, ⟨owner, event⟩⟩] := by
  induction events generalizing d with
  | nil => contradiction
  | cons e events ih =>
    by_cases hlater : event ∈ events
    · exact ih (own_registerOwned h) hlater
    · obtain rfl : event = e := (List.mem_cons.mp hmem).resolve_right hlater
      -- the later events leave the one just registered
      exact List.perm_singleton.mp ((routesOf_registerAll_ne (own_registerOwned h) (.inr hlater)).trans
        (.of_eq (routesOf_registerOwned_self h)))

end

end MemoryDispatcher

end SmithsNet.Plugin
