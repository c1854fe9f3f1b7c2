import SmithsNet.Lib.Exec
import SmithsNet.Lib.Slots

/-!
# SmithsNet.Plugin.ScriptProvider

The runtimes of a script plugin (`smiths-plugin/src/script_provider.rs`):
invocations run the hot one and count their failures, a swap puts a new one in
its place and keeps the old one, and a row of failures brings that back.

The hot slot, the slot of the previous runtime and the counter are guarded each
for itself.  A swap holds the lock of the hot slot from the first to the last of
its steps; a rollback takes the previous runtime, then the lock, then the counter.
An invocation counts for whatever runtime is hot when it ends.

`hot_is_right`: in every run in which a failed invocation is only counted while
its own runtime is the one swapped in last (or there is none to go back to), and
in which no swap begins while a rollback is under way, the hot runtime is the one
swapped in last or, after `ROLLBACK_AFTER` failures of that in a row, the one
before it.  `swap_overwritten`: what happens else.
-/

namespace SmithsNet.Plugin.Script

open Lib

/-- Number of consecutive errors that bring the previous runtime back. -/
def ROLLBACK_AFTER : Nat := 5

/-- A compiled runtime; they are numbered as they are swapped in. -/
abbrev Runtime := Nat

/-- Where an `invoke` is. -/
inductive Invocation
  | running (runtime : Runtime)
  /-- It has counted enough errors and asks for the previous runtime. -/
  | taking (runtime : Runtime)
  /-- It has it and asks for the hot slot. -/
  | restoring (runtime previous : Runtime)
  /-- The counter has still to be reset. -/
  | resetting
  | done
  deriving DecidableEq

/-- It is on its way to bring the previous runtime back. -/
def Invocation.rollsBack : Invocation → Bool
  | .taking _ | .restoring _ _ => true
  | .running _ | .resetting | .done => false

/-- Where a `swap_runtime` is that holds the hot slot's lock. -/
inductive Swap
  | retaining (old : Runtime)
  | resetting
  deriving DecidableEq

structure State where
  hot : Runtime
  previous : Option Runtime
  consecutiveErrors : Nat
  invocations : List Invocation
  /-- The swap that holds the lock of the hot slot. -/
  swapping : Option Swap
  /-- The runtime swapped in last, and the one it replaced. -/
  latest : Runtime
  replaced : Option Runtime
  /-- The invocations that ended since: of which runtime, and whether they worked. -/
  ended : List (Runtime × Bool)

/-- `ScriptProvider::new` -/
def State.new : State where
  hot := 0
  previous := none
  consecutiveErrors := 0
  invocations := []
  swapping := none
  latest := 0
  replaced := none
  ended := []

inductive Action
  /-- An invocation takes the hot runtime. -/
  | invoke
  /-- It ends, and is counted. -/
  | record (n : Nat) (ok : Bool)
  | take (n : Nat)
  | restore (n : Nat)
  | reset (n : Nat)
  /-- A swap gets the lock and replaces the hot runtime. -/
  | swap
  | retain
  | resetErrors

namespace State

/-- The error counter is a `u32`. -/
def countError (s : State) (n : Nat) (runtime : Runtime) : State :=
  let errors := (s.consecutiveErrors + 1) % 2 ^ 32
  { s with
    consecutiveErrors := errors
    invocations := s.invocations.set n (if ROLLBACK_AFTER ≤ errors then .taking runtime else .done)
    ended := s.ended ++ [(runtime, false)] }

def step (s : State) : Action → Option State
  | .invoke =>
    if s.swapping = none then some { s with invocations := s.invocations ++ [.running s.hot] } else none
  | .record n ok =>
    match s.invocations[n]? with
    | some (.running runtime) =>
      some (if ok then
          { s with
            consecutiveErrors := 0
            invocations := s.invocations.set n .done
            ended := s.ended ++ [(runtime, true)] }
        else s.countError n runtime)
    | _ => none
  | .take n =>
    match s.invocations[n]? with
    | some (.taking runtime) =>
      some (match s.previous with
        | some previous =>
          { s with
            previous := none
            invocations := s.invocations.set n (.restoring runtime previous) }
        | none => { s with invocations := s.invocations.set n .done })
    | _ => none
  | .restore n =>
    match s.invocations[n]? with
    | some (.restoring _ previous) =>
      if s.swapping = none then
        some { s with hot := previous, invocations := s.invocations.set n .resetting }
      else none
    | _ => none
  | .reset n =>
    match s.invocations[n]? with
    | some .resetting =>
      some { s with consecutiveErrors := 0, invocations := s.invocations.set n .done }
    | _ => none
  | .swap =>
    if s.swapping = none then
      some { s with
        hot := s.latest + 1
        swapping := some (.retaining s.hot)
        latest := s.latest + 1
        replaced := some s.hot
        ended := [] }
    else none
  | .retain =>
    match s.swapping with
    | some (.retaining old) => some { s with previous := some old, swapping := some .resetting }
    | _ => none
  | .resetErrors =>
    if s.swapping = some .resetting then some { s with consecutiveErrors := 0, swapping := none } else none

/-- How the invocations of the runtime swapped in last ended. -/
def verdicts (s : State) : List Bool := (s.ended.filter fun e => e.1 = s.latest).map Prod.snd

/-- It has failed often enough in a row. -/
def Failed (s : State) : Prop := List.replicate ROLLBACK_AFTER false <:+: s.verdicts

/-- The hot runtime is the one swapped in last or, if that failed, the one before;
and what is rolled back is the one swapped in last. -/
structure Right (s : State) : Prop where
  hot : s.hot = s.latest ∨ s.replaced = some s.hot ∧ s.Failed
  rollback : ∀ (n : Nat) runtime previous, s.invocations[n]? = some (.restoring runtime previous) →
    runtime = s.latest ∧ s.hot = s.latest ∧ s.replaced = some previous

end State

/-- The steps that count for the right runtime. -/
def Attributed (s : State) : Action → Prop
  | .record n false => s.invocations[n]? = some (.running s.latest) ∨ s.previous = none ∧ s.swapping = none
  | .swap => ∀ i ∈ s.invocations, i.rollsBack = false
  | _ => True

instance (s : State) : DecidablePred (Attributed s)
  | .record _ false => inferInstanceAs (Decidable (_ ∨ _ ∧ _))
  | .swap => inferInstanceAs (Decidable (∀ i ∈ s.invocations, _))
  | .record _ true | .invoke | .take _ | .restore _ | .reset _ | .retain | .resetErrors => isTrue trivial

/-! ## the invariant -/

structure Inv (s : State) : Prop where
  right : s.hot = s.latest ∨ s.replaced = some s.hot ∧ s.Failed
  known : s.hot ≤ s.latest ∧ (∀ p, s.replaced = some p → p ≤ s.latest) ∧
    ∀ (n : Nat) r, s.invocations[n]? = some (.running r) → r ≤ s.latest
  /-- What is kept is what was replaced, once the swap has put it there. -/
  previous : (∀ old, s.swapping ≠ some (.retaining old)) → ∀ p, s.previous = some p →
    s.replaced = some p ∧ s.hot = s.latest
  retaining : ∀ old, s.swapping = some (.retaining old) → s.replaced = some old
  /-- During a swap nobody runs the new runtime and nobody rolls back. -/
  swapping : s.swapping ≠ none → s.hot = s.latest ∧
    ∀ (n : Nat) i, s.invocations[n]? = some i → i.rollsBack = false ∧ i ≠ .running s.latest
  /-- Errors are counted for the runtime swapped in last. -/
  count : s.swapping = none → s.previous ≠ none → List.replicate s.consecutiveErrors false <:+ s.verdicts
  taking : ∀ (n : Nat) r, s.invocations[n]? = some (.taking r) → s.previous ≠ none → r = s.latest ∧ s.Failed
  restoring : ∀ (n : Nat) r p, s.invocations[n]? = some (.restoring r p) →
    r = s.latest ∧ s.hot = s.latest ∧ s.replaced = some p ∧ s.Failed ∧ s.previous = none
  alone : ∀ (n m : Nat) r p r' p', s.invocations[n]? = some (.restoring r p) →
    s.invocations[m]? = some (.restoring r' p') → n = m

theorem Inv.new : Inv State.new := by
  constructor <;> simp [State.new]

section Verdicts

variable {s s' : State}

theorem verdicts_record (hlatest : s'.latest = s.latest) {r : Runtime} {ok : Bool}
    (hended : s'.ended = s.ended ++ [(r, ok)]) :
    s'.verdicts = s.verdicts ++ if r = s.latest then [ok] else [] := by
  unfold State.verdicts
  rw [hended, hlatest, List.filter_append, List.map_append]
  congr 1
  by_cases hr : r = s.latest <;> simp [hr]

theorem failed_record (hlatest : s'.latest = s.latest) {r : Runtime} {ok : Bool}
    (hended : s'.ended = s.ended ++ [(r, ok)]) (h : s.Failed) : s'.Failed := by
  unfold State.Failed
  rw [verdicts_record hlatest hended]
  exact h.trans (List.prefix_append _ _).isInfix

theorem replicate_suffix {a : Bool} {n m : Nat} (h : n ≤ m) : List.replicate n a <:+ List.replicate m a := by
  obtain ⟨k, rfl⟩ := Nat.exists_eq_add_of_le' h
  rw [List.replicate_add]
  exact List.suffix_append _ _

end Verdicts

section Steps

variable {s s' : State}

/-- An invocation that may come up without a rollback. -/
def Fits (s : State) : Invocation → Prop
  | .running r => r ≤ s.latest ∧ (s.swapping ≠ none → r ≠ s.latest)
  | .taking r => s.swapping = none ∧ (s.previous ≠ none → r = s.latest ∧ s.Failed)
  | .restoring _ _ => False
  | .resetting | .done => True

section

variable (h : Inv s)
include h

theorem Inv.moves (hhot : s'.hot = s.hot) (hprevious : s'.previous = s.previous)
    (hswapping : s'.swapping = s.swapping) (hlatest : s'.latest = s.latest) (hreplaced : s'.replaced = s.replaced)
    (hfailed : s.Failed → s'.Failed)
    (hcount : s'.swapping = none → s'.previous ≠ none → List.replicate s'.consecutiveErrors false <:+ s'.verdicts)
    (hnew : ∀ (n : Nat) i, s'.invocations[n]? = some i → s.invocations[n]? = some i ∨ Fits s' i) : Inv s' := by
  constructor
  · rw [hhot, hlatest, hreplaced]
    exact h.right.imp id (And.imp id hfailed)
  · rw [hhot, hlatest, hreplaced]
    refine ⟨h.known.1, h.known.2.1, fun n r hr => ?_⟩
    obtain hr | hfits := hnew n _ hr
    · exact h.known.2.2 n r hr
    · exact hlatest ▸ hfits.1
  · rw [hhot, hlatest, hreplaced, hswapping, hprevious]
    exact h.previous
  · rw [hreplaced, hswapping]
    exact h.retaining
  · intro hs
    rw [hswapping] at hs
    refine ⟨by rw [hhot, hlatest]; exact (h.swapping hs).1, fun n i hi => ?_⟩
    rw [hlatest]
    obtain hi | hfits := hnew n i hi
    · exact (h.swapping hs).2 n i hi
    · cases i with
      | running r =>
        refine ⟨rfl, fun hr => ?_⟩
        obtain rfl := Invocation.running.inj hr
        exact hfits.2 (hswapping ▸ hs) hlatest.symm
      | taking r => exact absurd (hswapping ▸ hfits.1) hs
      | restoring r p => exact hfits.elim
      | resetting => exact ⟨rfl, nofun⟩
      | done => exact ⟨rfl, nofun⟩
  · exact hcount
  · intro n r hr hp
    rw [hlatest]
    obtain hr | hfits := hnew n _ hr
    · exact (h.taking n r hr (hprevious ▸ hp)).imp id hfailed
    · exact hlatest ▸ hfits.2 hp
  · intro n r p hr
    obtain hr | hfits := hnew n _ hr
    · obtain ⟨h₁, h₂, h₃, h₄, h₅⟩ := h.restoring n r p hr
      rw [hlatest, hhot, hreplaced, hprevious]
      exact ⟨h₁, h₂, h₃, hfailed h₄, h₅⟩
    · exact hfits.elim
  · intro n m r p r' p' hn hm
    obtain hn | hfits := hnew n _ hn
    · obtain hm | hfits := hnew m _ hm
      · exact h.alone n m r p r' p' hn hm
      · exact hfits.elim
    · exact hfits.elim

theorem Inv.invoke (hstep : s.step .invoke = some s') : Inv s' := by
  simp only [State.step] at hstep
  split at hstep
  · next hnone =>
    obtain rfl := Option.some.inj hstep
    refine h.moves rfl rfl rfl rfl rfl id h.count fun n i hi => ?_
    obtain hi | rfl := slot_append hi
    · exact .inl hi
    · exact .inr ⟨h.known.1, fun hs => absurd hnone hs⟩
  · contradiction

theorem Inv.succeed {n : Nat} (hstep : s.step (.record n true) = some s') : Inv s' := by
  simp only [State.step] at hstep
  split at hstep
  · obtain rfl := Option.some.inj hstep
    refine h.moves rfl rfl rfl rfl rfl (failed_record rfl rfl) (fun _ _ => List.nil_suffix) fun m i hi => ?_
    obtain ⟨-, hi⟩ | ⟨-, rfl⟩ := slot_set hi
    · exact .inl hi
    · exact .inr trivial
  · contradiction

theorem Inv.fail {n : Nat} (ha : Attributed s (.record n false))
    (hstep : s.step (.record n false) = some s') : Inv s' := by
  simp only [State.step, Bool.false_eq_true, if_false] at hstep
  split at hstep
  · next r hr =>
    obtain rfl := Option.some.inj hstep
    have hsame : (s.countError n r).latest = s.latest := rfl
    have hended : (s.countError n r).ended = s.ended ++ [(r, false)] := rfl
    have hnone : s.swapping = none := by
      obtain hrun | ⟨-, hnone⟩ := ha
      · by_contra hs
        exact ((h.swapping hs).2 n _ hrun).2 rfl
      · exact hnone
    have hmine : s.previous ≠ none → r = s.latest := by
      intro hp
      obtain hrun | ⟨hprev, -⟩ := ha
      · exact Invocation.running.inj (Option.mem_unique hr hrun)
      · exact absurd hprev hp
    -- the counter is the number of failures at the end
    have hsuffix : s.previous ≠ none →
        List.replicate (s.countError n r).consecutiveErrors false <:+ (s.countError n r).verdicts := by
      intro hp
      obtain ⟨before, hbefore⟩ := h.count hnone hp
      rw [verdicts_record hsame hended, if_pos (hmine hp), ← hbefore, List.append_assoc, ← List.replicate_succ']
      exact (replicate_suffix (Nat.mod_le _ _)).trans (List.suffix_append _ _)
    refine h.moves rfl rfl rfl rfl rfl (failed_record hsame hended) (fun _ hp => hsuffix hp) fun m i hi => ?_
    obtain ⟨-, hi⟩ | ⟨-, rfl⟩ := slot_set hi
    · exact .inl hi
    · right
      by_cases henough : ROLLBACK_AFTER ≤ (s.consecutiveErrors + 1) % 2 ^ 32
      · rw [if_pos henough]
        exact ⟨hnone, fun hp => ⟨hmine hp, (replicate_suffix henough).isInfix.trans (hsuffix hp).isInfix⟩⟩
      · rw [if_neg henough]
        trivial
  · contradiction

theorem Inv.take {n : Nat} (hstep : s.step (.take n) = some s') : Inv s' := by
  simp only [State.step] at hstep
  split at hstep
  · next r hr =>
    obtain rfl := Option.some.inj hstep
    cases hp : s.previous with
    | none =>
      refine h.moves rfl hp.symm rfl rfl rfl id (fun _ hnever => absurd rfl hnever) fun m i hi => ?_
      obtain ⟨-, hi⟩ | ⟨-, rfl⟩ := slot_set hi
      · exact .inl hi
      · exact .inr trivial
    | some p =>
      have hnone : s.swapping = none := by
        by_contra hs
        exact Bool.noConfusion ((h.swapping hs).2 n _ hr).1
      have hprevious : s.previous ≠ none := by rw [hp]; nofun
      obtain ⟨hreplaced, hhot⟩ := h.previous (by rw [hnone]; nofun) p hp
      obtain ⟨hlatest, hfailed⟩ := h.taking n r hr hprevious
      -- nobody else has a previous runtime in hand: it was there to be taken
      have hfirst : ∀ (m : Nat) r' p', s.invocations[m]? ≠ some (.restoring r' p') := by
        intro m r' p' hm
        exact hprevious (h.restoring m r' p' hm).2.2.2.2
      constructor
      · exact h.right
      · refine ⟨h.known.1, h.known.2.1, fun m r' hm => ?_⟩
        obtain ⟨-, hm⟩ | ⟨-, hm⟩ := slot_set hm
        · exact h.known.2.2 m r' hm
        · contradiction
      · nofun
      · exact h.retaining
      · intro hs
        exact absurd hnone hs
      · nofun
      · nofun
      · intro m r' p' hm
        obtain ⟨-, hm⟩ | ⟨-, hm⟩ := slot_set hm
        · exact absurd hm (hfirst m r' p')
        · obtain ⟨rfl, rfl⟩ := Invocation.restoring.inj hm
          exact ⟨hlatest, hhot, hreplaced, hfailed, rfl⟩
      · intro m m' r₁ p₁ r₂ p₂ hm hm'
        obtain ⟨-, hm⟩ | ⟨rfl, -⟩ := slot_set hm
        · exact absurd hm (hfirst m r₁ p₁)
        · obtain ⟨-, hm'⟩ | ⟨rfl, -⟩ := slot_set hm'
          · exact absurd hm' (hfirst m' r₂ p₂)
          · rfl
  · contradiction

theorem Inv.restore {n : Nat} (hstep : s.step (.restore n) = some s') : Inv s' := by
  simp only [State.step] at hstep
  split at hstep
  · next r p hr =>
    split at hstep
    · next hnone =>
      obtain rfl := Option.some.inj hstep
      obtain ⟨-, -, hreplaced, hfailed, hprevious⟩ := h.restoring n r p hr
      have hgone : ∀ {m : Nat} {r' p'}, (s.invocations.set n .resetting)[m]? ≠ some (.restoring r' p') := by
        intro m r' p' hm
        obtain ⟨hne, hm⟩ | ⟨-, hm⟩ := slot_set hm
        · exact hne (h.alone m n _ _ _ _ hm hr)
        · contradiction
      constructor
      · exact .inr ⟨hreplaced, hfailed⟩
      · refine ⟨h.known.2.1 p hreplaced, h.known.2.1, fun m r' hm => ?_⟩
        obtain ⟨-, hm⟩ | ⟨-, hm⟩ := slot_set hm
        · exact h.known.2.2 m r' hm
        · contradiction
      · intro _ p' hp'
        exact absurd (hp'.symm.trans hprevious) nofun
      · exact h.retaining
      · intro hs
        exact absurd hnone hs
      · exact h.count
      · intro m r' _ hp'
        exact absurd hprevious hp'
      · intro m r' p' hm
        exact absurd hm hgone
      · intro m m' r₁ p₁ r₂ p₂ hm
        exact absurd hm hgone
    · contradiction
  · contradiction

theorem Inv.reset {n : Nat} (hstep : s.step (.reset n) = some s') : Inv s' := by
  simp only [State.step] at hstep
  split at hstep
  · obtain rfl := Option.some.inj hstep
    refine h.moves rfl rfl rfl rfl rfl id (fun _ _ => List.nil_suffix) fun m i hi => ?_
    obtain ⟨-, hi⟩ | ⟨-, rfl⟩ := slot_set hi
    · exact .inl hi
    · exact .inr trivial
  · contradiction

theorem Inv.swap (ha : Attributed s .swap) (hstep : s.step .swap = some s') : Inv s' := by
  simp only [State.step] at hstep
  split at hstep
  · obtain rfl := Option.some.inj hstep
    have hcalm : ∀ {n : Nat} {i}, s.invocations[n]? = some i → i.rollsBack = false :=
      fun hi => ha _ (List.mem_of_getElem? hi)
    constructor
    · exact .inl rfl
    · refine ⟨Nat.le_refl _, ?_, fun n r hn => Nat.le_succ_of_le (h.known.2.2 n r hn)⟩
      intro p hp
      obtain rfl := Option.some.inj hp
      exact Nat.le_succ_of_le h.known.1
    · intro hs
      exact absurd rfl (hs _)
    · intro old hs
      obtain rfl := Swap.retaining.inj (Option.some.inj hs)
      rfl
    · intro _
      refine ⟨rfl, fun n i hi => ⟨hcalm hi, ?_⟩⟩
      rintro rfl
      exact absurd (h.known.2.2 n _ hi) (Nat.not_succ_le_self _)
    · nofun
    · intro n r hn
      exact Bool.noConfusion (hcalm hn)
    · intro n r p hn
      exact Bool.noConfusion (hcalm hn)
    · intro n m r p r' p' hn
      exact Bool.noConfusion (hcalm hn)
  · contradiction

theorem Inv.retain (hstep : s.step .retain = some s') : Inv s' := by
  simp only [State.step] at hstep
  split at hstep
  · next old hs =>
    obtain rfl := Option.some.inj hstep
    have hswapping := h.swapping (by rw [hs]; nofun)
    constructor
    · exact h.right
    · exact h.known
    · intro _ p hp
      obtain rfl := Option.some.inj hp
      exact ⟨h.retaining old hs, hswapping.1⟩
    · nofun
    · exact fun _ => hswapping
    · nofun
    · intro n r hn
      exact Bool.noConfusion (hswapping.2 n _ hn).1
    · intro n r p hn
      exact Bool.noConfusion (hswapping.2 n _ hn).1
    · exact h.alone
  · contradiction

theorem Inv.resetErrors (hstep : s.step .resetErrors = some s') : Inv s' := by
  simp only [State.step] at hstep
  split at hstep
  · next hs =>
    obtain rfl := Option.some.inj hstep
    refine ⟨h.right, h.known, fun _ => h.previous (by rw [hs]; nofun), nofun, nofun, fun _ _ => List.nil_suffix,
      h.taking, h.restoring, h.alone⟩
  · contradiction

end

end Steps

/-! ## runs -/

theorem Inv.step {s s' : State} {a : Action} (h : Inv s) (ha : Attributed s a) (hstep : s.step a = some s') : Inv s' := by
  cases a with
  | invoke => exact h.invoke hstep
  | record n ok =>
    cases ok with
    | true => exact h.succeed hstep
    | false => exact h.fail ha hstep
  | take n => exact h.take hstep
  | restore n => exact h.restore hstep
  | reset n => exact h.reset hstep
  | swap => exact h.swap ha hstep
  | retain => exact h.retain hstep
  | resetErrors => exact h.resetErrors hstep

/-- In every run whose failures are counted for the runtime they are of, and whose
swaps wait for rollbacks, the hot runtime is the right one. -/
theorem hot_is_right {acts : List Action} {s : State} (hexec : exec State.step State.new acts = some s)
    (hmeets : Meets State.step Attributed State.new acts) : s.Right := by
  have h : Inv s := exec_invariant_of_meets (fun _ _ _ h ha hstep => h.step ha hstep) hexec hmeets .new
  refine ⟨h.right, fun n r p hn => ?_⟩
  obtain ⟨hlatest, hhot, hreplaced, -⟩ := h.restoring n r p hn
  exact ⟨hlatest, hhot, hreplaced⟩

/-- A runtime that fails five times, and is rolled back. -/
def failingSwap : List Action :=
  ([.invoke, .record 0 true, .swap, .retain, .resetErrors] : List Action) ++
    ((List.range 5).flatMap (fun n => [.invoke, .record (n + 1) false]) : List Action) ++
    ([.take 5, .restore 5, .reset 5] : List Action)

theorem hot_is_right_failingSwap :
    ∃ s, exec State.step State.new failingSwap = some s ∧ s.hot = 0 ∧ s.latest = 1 ∧ s.Right := by
  obtain ⟨s, hexec⟩ := Option.isSome_iff_exists.mp
    (by decide +kernel : (exec State.step State.new failingSwap).isSome = true)
  have hview : (exec State.step State.new failingSwap).map (fun s => (s.hot, s.latest)) = some (0, 1) := by
    decide +kernel
  rw [hexec, Option.map_some, Option.some.injEq] at hview
  obtain ⟨hhot, hlatest⟩ := Prod.mk.inj hview
  exact ⟨s, hexec, hhot, hlatest, hot_is_right hexec (by decide +kernel)⟩

/-- Five invocations of the old runtime fail after the swap. -/
def staleFailures : List Action :=
  (List.replicate 5 .invoke : List Action) ++ ([.swap, .retain, .resetErrors] : List Action) ++
    ((List.range 5).map (.record · false) : List Action) ++ ([.take 4, .restore 4] : List Action)

/-- A rollback that has the previous runtime in hand while another is swapped in. -/
def lateRollback : List Action :=
  ([.swap, .retain, .resetErrors] : List Action) ++ (List.replicate 5 .invoke : List Action) ++
    ((List.range 5).map (.record · false) : List Action) ++
    ([.take 4, .swap, .retain, .resetErrors, .restore 4] : List Action)

/-- A new runtime is rolled back that has not run once, and one that was just
swapped in is overwritten with one that is older than what it replaced. -/
theorem swap_overwritten :
    (∃ s, exec State.step State.new staleFailures = some s ∧ s.hot ≠ s.latest ∧ s.verdicts = [] ∧ ¬ s.Right) ∧
    ∃ s, exec State.step State.new lateRollback = some s ∧ s.hot = 0 ∧ s.latest = 2 ∧ s.replaced = some 1 ∧
      ¬ s.Right := by
  constructor
  · obtain ⟨s, hexec⟩ := Option.isSome_iff_exists.mp
      (by decide +kernel : (exec State.step State.new staleFailures).isSome = true)
    have hview : (exec State.step State.new staleFailures).map (fun s => (s.hot, s.latest, s.verdicts)) =
        some (0, 1, []) := by
      decide +kernel
    rw [hexec, Option.map_some, Option.some.injEq, Prod.mk.injEq, Prod.mk.injEq] at hview
    obtain ⟨hhot, hlatest, hverdicts⟩ := hview
    have hne : s.hot ≠ s.latest := by rw [hhot, hlatest]; decide
    refine ⟨s, hexec, hne, hverdicts, fun h => ?_⟩
    obtain hsame | ⟨-, hfailed⟩ := h.hot
    · exact hne hsame
    · rw [State.Failed, hverdicts] at hfailed
      exact absurd hfailed (by decide)
  · obtain ⟨s, hexec⟩ := Option.isSome_iff_exists.mp
      (by decide +kernel : (exec State.step State.new lateRollback).isSome = true)
    have hview : (exec State.step State.new lateRollback).map (fun s => (s.hot, s.latest, s.replaced)) =
        some (0, 2, some 1) := by
      decide +kernel
    rw [hexec, Option.map_some, Option.some.injEq, Prod.mk.injEq, Prod.mk.injEq] at hview
    obtain ⟨hhot, hlatest, hreplaced⟩ := hview
    refine ⟨s, hexec, hhot, hlatest, hreplaced, fun h => ?_⟩
    obtain hsame | ⟨hback, -⟩ := h.hot
    · rw [hhot, hlatest] at hsame
      contradiction
    · rw [hhot, hreplaced] at hback
      contradiction

end SmithsNet.Plugin.Script
