import Mathlib
import SmithsNet.Lib.Text

/-!
# SmithsNet.Lib.Wire

What binary layouts are read and written with: a field is a slice at an
offset, a number is its bytes in little-endian or big-endian order, text is
its UTF-8 bytes.

* `slice_flatten` — a slice of a concatenation is one of its pieces;
* `leNat_leBytes`, `leBytes_leNat` — reading a written number, writing a read
  one; `beNat_beBytes_of_lt` for the other order;
* `fromUtf8_toUtf8`, `toUtf8_of_fromUtf8` — the same for text.
-/

namespace SmithsNet.Lib

/-! ## slices -/

section Slice

variable {α : Type}

/-- The `k` elements from position `i` on. -/
def slice (s : List α) (i k : Nat) : List α := (s.drop i).take k

theorem length_slice {s : List α} {i k : Nat} (h : i + k ≤ s.length) :
    (slice s i k).length = k := by
  simp [slice]
  omega

theorem length_slice_le (s : List α) (i k : Nat) : (slice s i k).length ≤ k :=
  List.length_take_le k _

theorem slice_slice {s : List α} {i k j l : Nat} (h : j + l ≤ k) :
    slice (slice s i k) j l = slice s (i + j) l := by
  simp only [slice, List.drop_take, List.drop_drop, List.take_take]
  rw [Nat.min_eq_left (by omega)]

theorem slice_append_drop (s : List α) (i k : Nat) : slice s i k ++ s.drop (i + k) = s.drop i := by
  rw [slice, ← List.drop_drop, List.take_append_drop]

/-- Where the `j`-th of the pieces starts. -/
def startOf (ps : List (List α)) (j : Nat) : Nat := ((ps.take j).map List.length).sum

theorem slice_flatten {ps : List (List α)} {p : List α} {i k : Nat} (j : Nat)
    (hget : ps[j]? = some p) (hi : startOf ps j = i) (hk : p.length = k) :
    slice ps.flatten i k = p := by
  subst hi
  subst hk
  induction ps generalizing j with
  | nil => simp at hget
  | cons q ps ih =>
    cases j with
    | zero =>
      simp only [List.getElem?_cons_zero, Option.some.injEq] at hget
      simp [slice, startOf, hget]
    | succ j =>
      have hrest := ih j (by simpa using hget)
      have hstart : startOf (q :: ps) (j + 1) = q.length + startOf ps j := by simp [startOf]
      unfold slice at hrest ⊢
      rw [List.flatten_cons, hstart, List.drop_append, List.drop_eq_nil_of_le (by omega),
        List.nil_append, Nat.add_sub_cancel_left, hrest]

/-- Successive slices of the given sizes from a position on, and the rest. -/
def slicesFrom (s : List α) : Nat → List Nat → List (List α)
  | i, [] => [s.drop i]
  | i, k :: ks => slice s i k :: slicesFrom s (i + k) ks

theorem flatten_slicesFrom (s : List α) (i : Nat) (ks : List Nat) :
    (slicesFrom s i ks).flatten = s.drop i := by
  induction ks generalizing i with
  | nil => simp [slicesFrom]
  | cons k ks ih => rw [slicesFrom, List.flatten_cons, ih, slice_append_drop]

end Slice

/-! ## little-endian numbers -/

/-- The `k` low bytes of a number, least significant first. -/
def leBytes : Nat → Nat → Bytes
  | 0, _ => []
  | k + 1, n => UInt8.ofNat n :: leBytes k (n / 256)

/-- The number that bytes spell, least significant first. -/
def leNat : Bytes → Nat
  | [] => 0
  | b :: bs => b.toNat + 256 * leNat bs

@[simp] theorem length_leBytes (k n : Nat) : (leBytes k n).length = k := by
  induction k generalizing n with
  | zero => rfl
  | succ k ih => simp [leBytes, ih]

theorem leNat_leBytes (k n : Nat) : leNat (leBytes k n) = n % 256 ^ k := by
  induction k generalizing n with
  | zero => simp [leBytes, leNat, Nat.mod_one]
  | succ k ih =>
    have hsplit : n % 256 ^ (k + 1) = n % 256 + 256 * (n / 256 % 256 ^ k) := by
      rw [Nat.pow_succ', Nat.mod_mul]
    rw [hsplit, leBytes, leNat, ih, UInt8.toNat_ofNat']

theorem leNat_leBytes_of_lt {k n : Nat} (h : n < 256 ^ k) : leNat (leBytes k n) = n := by
  rw [leNat_leBytes, Nat.mod_eq_of_lt h]

theorem leBytes_leNat (bs : Bytes) : leBytes bs.length (leNat bs) = bs := by
  induction bs with
  | nil => rfl
  | cons b bs ih =>
    have hb := b.toNat_lt
    have hrest : (b.toNat + 256 * leNat bs) / 256 = leNat bs := by omega
    have hfirst : UInt8.ofNat (b.toNat + 256 * leNat bs) = b := by
      apply UInt8.toNat_inj.mp
      simp only [UInt8.toNat_ofNat']
      omega
    simp only [List.length_cons, leBytes, leNat]
    rw [hrest, hfirst, ih]

theorem leNat_lt (bs : Bytes) : leNat bs < 256 ^ bs.length := by
  induction bs with
  | nil => simp [leNat]
  | cons b bs ih =>
    have hb := b.toNat_lt
    simp only [leNat, List.length_cons, Nat.pow_succ']
    omega

/-! ## big-endian numbers -/

/-- The `k` low bytes of a number, most significant first. -/
def beBytes (k n : Nat) : Bytes := (leBytes k n).reverse

/-- The number that bytes spell, most significant first. -/
def beNat (bs : Bytes) : Nat := leNat bs.reverse

@[simp] theorem length_beBytes (k n : Nat) : (beBytes k n).length = k := by
  simp [beBytes]

theorem beNat_beBytes_of_lt {k n : Nat} (h : n < 256 ^ k) : beNat (beBytes k n) = n := by
  rw [beNat, beBytes, List.reverse_reverse, leNat_leBytes_of_lt h]

theorem beNat_lt (bs : Bytes) : beNat bs < 256 ^ bs.length := by
  simpa [beNat] using leNat_lt bs.reverse

/-! ## UTF-8 -/

theorem fromUtf8_toUtf8 (s : Text) : fromUtf8 (toUtf8 s) = some s := by
  unfold fromUtf8 toUtf8 String.fromUTF8?
  have hbytes : ByteArray.mk (String.ofList s).toByteArray.data.toList.toArray =
      (String.ofList s).toByteArray := by simp
  rw [hbytes, dif_pos (String.ofList s).isValidUTF8]
  exact congrArg some String.toList_ofList

theorem toUtf8_inj {s t : Text} (h : toUtf8 s = toUtf8 t) : s = t := by
  have hs := fromUtf8_toUtf8 s
  rw [h, fromUtf8_toUtf8] at hs
  exact (Option.some.inj hs).symm

theorem toUtf8_of_fromUtf8 {bs : Bytes} {s : Text} (h : fromUtf8 bs = some s) : toUtf8 s = bs := by
  unfold fromUtf8 String.fromUTF8? at h
  split at h
  · simp only [Option.map_some, Option.some.injEq] at h
    subst h
    simp [toUtf8, String.fromUTF8]
  · contradiction

/-- Text read with a default is never longer than what it was read from. -/
theorem length_toUtf8_getD_le (bs : Bytes) :
    (toUtf8 ((fromUtf8 bs).getD [])).length ≤ bs.length := by
  cases h : fromUtf8 bs with
  | none => exact Nat.zero_le _
  | some s => simp [toUtf8_of_fromUtf8 h]

/-- Writing text read with a default, when it did not need the default. -/
theorem toUtf8_getD {bs : Bytes} (h : fromUtf8 bs ≠ none) :
    toUtf8 ((fromUtf8 bs).getD []) = bs := by
  obtain ⟨s, hs⟩ := Option.ne_none_iff_exists'.mp h
  rw [hs]
  exact toUtf8_of_fromUtf8 hs

/-- How many continuation bytes a lead byte asks for, and the range the first
of them lies in. -/
def utf8Lead (b : UInt8) : Option (Nat × UInt8 × UInt8) :=
  if 0xC2 ≤ b ∧ b ≤ 0xDF then some (1, 0x80, 0xBF)
  else if b = 0xE0 then some (2, 0xA0, 0xBF)
  else if b = 0xED then some (2, 0x80, 0x9F)
  else if 0xE1 ≤ b ∧ b ≤ 0xEF then some (2, 0x80, 0xBF)
  else if b = 0xF0 then some (3, 0x90, 0xBF)
  else if 0xF1 ≤ b ∧ b ≤ 0xF3 then some (3, 0x80, 0xBF)
  else if b = 0xF4 then some (3, 0x80, 0x8F)
  else none

/-- How many of the bytes continue a sequence: the first within its range, the
others within `80..BF`, at most `k` in all. -/
def utf8Tail : Nat → UInt8 → UInt8 → Bytes → Nat
  | 0, _, _, _ => 0
  | _, _, _, [] => 0
  | k + 1, lo, hi, b :: bs => if lo ≤ b ∧ b ≤ hi then utf8Tail k 0x80 0xBF bs + 1 else 0

/-- Every maximal ill-formed part becomes one replacement character. -/
def replaceInvalid : Nat → Bytes → Text
  | 0, _ => []
  | _, [] => []
  | fuel + 1, b :: bs =>
    if b < 0x80 then Char.ofNat b.toNat :: replaceInvalid fuel bs
    else
      match utf8Lead b with
      | none => '\uFFFD' :: replaceInvalid fuel bs
      | some (k, lo, hi) =>
        let n := utf8Tail k lo hi bs
        if n = k then
          (fromUtf8 (b :: bs.take n)).getD ['\uFFFD'] ++ replaceInvalid fuel (bs.drop n)
        else '\uFFFD' :: replaceInvalid fuel (bs.drop n)

/-- `String::from_utf8_lossy` -/
def fromUtf8Lossy (bs : Bytes) : Text := (fromUtf8 bs).getD (replaceInvalid bs.length bs)

theorem fromUtf8Lossy_toUtf8 (s : Text) : fromUtf8Lossy (toUtf8 s) = s := by
  simp [fromUtf8Lossy, fromUtf8_toUtf8]

end SmithsNet.Lib
