import Mathlib
import SmithsNet.Lib.Hex

/-!
# SmithsNet.Uas.Tags

Local tags and branches (`smiths-sip/src/uas.rs`, `next_tag`): a counter of the process,
added to the clock's nanoseconds after these are mixed with the process id.  The counter
alone never repeats in `2^64` calls; the sum does when the mixed clock falls by as much as
the counter rose (`tags_nodup_iff`), and `^` makes it fall although the clock does not.
-/

namespace SmithsNet.Uas

open Lib

/-- The low 64 bits of the nanoseconds since the epoch; nothing before it. -/
def nanosOf (now : Int) : UInt64 := if 0 ≤ now then UInt64.ofNat now.toNat else 0

/-- What the counter is added to. -/
def mixedClock (pid : UInt32) (now : Int) : UInt64 := nanosOf now ^^^ pid.toUInt64

/-- `next_tag`: the tag, and the counter afterwards. -/
def nextTag (pid : UInt32) (now : Int) (counter : UInt64) : Text × UInt64 :=
  ("smiths-".toList ++ hexFixed 16 (counter + mixedClock pid now).toNat, counter + 1)

/-- The tags of one call after the other, each with its reading of the clock. -/
def nextTags (pid : UInt32) (counter : UInt64) : List Int → List Text
  | [] => []
  | now :: readings => (nextTag pid now counter).1 :: nextTags pid (nextTag pid now counter).2 readings

/-- No two calls between which the mixed clock falls by their distance. -/
def NeverFallsByDistance (pid : UInt32) (readings : List Int) : Prop :=
  ∀ (i j : Nat) (earlier later : Int), i < j → readings[i]? = some earlier → readings[j]? = some later →
    mixedClock pid earlier ≠ mixedClock pid later + UInt64.ofNat (j - i)

theorem hexFixed_toNat_inj {a b : UInt64} (h : hexFixed 16 a.toNat = hexFixed 16 b.toNat) : a = b := by
  have hlong : ∀ u : UInt64, u.toNat < 16 ^ 16 := by
    intro u
    have hlt := u.toNat_lt
    omega
  exact UInt64.toNat_inj.mp (hexFixed_inj (hlong a) (hlong b) h)

theorem nextTag_inj {pid : UInt32} {now now' : Int} {counter counter' : UInt64} :
    (nextTag pid now counter).1 = (nextTag pid now' counter').1 ↔
      counter + mixedClock pid now = counter' + mixedClock pid now' := by
  unfold nextTag
  rw [List.append_cancel_left_eq]
  constructor
  · intro h
    exact hexFixed_toNat_inj h
  · intro h
    rw [h]

theorem length_nextTags (pid : UInt32) (counter : UInt64) (readings : List Int) :
    (nextTags pid counter readings).length = readings.length := by
  induction readings generalizing counter with
  | nil => rfl
  | cons now readings ih => simp [nextTags, ih]

theorem getElem?_nextTags (pid : UInt32) (counter : UInt64) (readings : List Int) (i : Nat) :
    (nextTags pid counter readings)[i]? =
      readings[i]?.map fun now => (nextTag pid now (counter + UInt64.ofNat i)).1 := by
  induction readings generalizing counter i with
  | nil => rfl
  | cons now readings ih =>
    cases i with
    | zero => simp [nextTags]
    | succ i =>
      have hcounter : counter + 1 + UInt64.ofNat i = counter + UInt64.ofNat (i + 1) := by
        rw [UInt64.ofNat_add, UInt64.add_assoc, UInt64.add_comm (UInt64.ofNat i)]
        rfl
      simp only [nextTags, List.getElem?_cons_succ, ih]
      rw [show (nextTag pid now counter).2 = counter + 1 from rfl, hcounter]

theorem tags_eq_iff {pid : UInt32} {earlier later : Int} {counter : UInt64} {i j : Nat} (h : i < j) :
    (nextTag pid earlier (counter + UInt64.ofNat i)).1 = (nextTag pid later (counter + UInt64.ofNat j)).1 ↔
      mixedClock pid earlier = mixedClock pid later + UInt64.ofNat (j - i) := by
  have hj : UInt64.ofNat j = UInt64.ofNat i + UInt64.ofNat (j - i) := by
    rw [← UInt64.ofNat_add]
    congr 1
    omega
  rw [nextTag_inj, hj]
  generalize UInt64.ofNat (j - i) = d
  generalize UInt64.ofNat i = n
  grind

/-- **The tags of a process are pairwise distinct exactly when the mixed clock never falls,
between two calls, by the number of calls from one to the other.** -/
theorem tags_nodup_iff (pid : UInt32) (counter : UInt64) (readings : List Int) :
    (nextTags pid counter readings).Nodup ↔ NeverFallsByDistance pid readings := by
  rw [List.nodup_iff_getElem?_ne_getElem?]
  constructor
  · intro h i j earlier later hij hearlier hlater heq
    have hlt : j < readings.length := (List.getElem?_eq_some_iff.mp hlater).1
    refine h i j hij (by rwa [length_nextTags]) ?_
    rw [getElem?_nextTags, getElem?_nextTags, hearlier, hlater]
    exact congrArg some ((tags_eq_iff hij).mpr heq)
  · intro h i j hij hj heq
    rw [length_nextTags] at hj
    have hearlier := List.getElem?_eq_getElem (show i < readings.length by omega)
    have hlater := List.getElem?_eq_getElem hj
    rw [getElem?_nextTags, getElem?_nextTags, hearlier, hlater] at heq
    exact h i j _ _ hij hearlier hlater ((tags_eq_iff hij).mp (Option.some.inj heq))

/-- A mixed clock that never goes back, with room above it for the calls, never falls by
their distance. -/
theorem neverFallsByDistance_of_ascending {pid : UInt32} {readings : List Int}
    (hup : (readings.map (mixedClock pid)).Pairwise (· ≤ ·))
    (hroom : ∀ now ∈ readings, (mixedClock pid now).toNat + readings.length < 2 ^ 64) :
    NeverFallsByDistance pid readings := by
  intro i j earlier later hij hearlier hlater heq
  obtain ⟨hi, rfl⟩ := List.getElem?_eq_some_iff.mp hearlier
  obtain ⟨hj, rfl⟩ := List.getElem?_eq_some_iff.mp hlater
  have hle := List.pairwise_iff_getElem.mp (List.pairwise_map.mp hup) i j hi hj hij
  have hfit := hroom _ (List.getElem_mem hj)
  have hstep : (UInt64.ofNat (j - i)).toNat = j - i :=
    UInt64.toNat_ofNat_of_lt' (show j - i < 2 ^ 64 by omega)
  have hsum := congrArg UInt64.toNat heq
  rw [UInt64.toNat_add, hstep, Nat.mod_eq_of_lt (by omega)] at hsum
  rw [UInt64.le_iff_toNat_le] at hle
  omega

/-- Two calls a nanosecond apart, in process 1. -/
theorem tags_collide : ¬ ∀ (pid : UInt32) (readings : List Int), readings.Pairwise (· ≤ ·) →
    (nextTags pid 0 readings).Nodup := by
  intro h
  exact absurd (h 1 [1700000000000000002, 1700000000000000003] (by decide)) (by decide +kernel)

end SmithsNet.Uas
