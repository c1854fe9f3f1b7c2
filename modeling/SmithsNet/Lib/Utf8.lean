import Mathlib
import SmithsNet.Lib.Wire

/-!
# SmithsNet.Lib.Utf8

What lossy decoding makes of text with other bytes behind it: the text, and then whatever the
other bytes are decoded to (`fromUtf8Lossy_append`).  A replacement never reaches back into
well-formed bytes.
-/

namespace SmithsNet.Lib

/-! ## one character -/

theorem toUtf8_eq (s : Text) : toUtf8 s = s.flatMap String.utf8EncodeChar := by
  rw [toUtf8, String.toByteArray_ofList, List.utf8Encode]
  simp

theorem toUtf8_cons (c : Char) (s : Text) : toUtf8 (c :: s) = String.utf8EncodeChar c ++ toUtf8 s := by
  rw [toUtf8_eq, toUtf8_eq, List.flatMap_cons]

theorem toUtf8_append (s t : Text) : toUtf8 (s ++ t) = toUtf8 s ++ toUtf8 t := by simp [toUtf8]

theorem utf8Tail_append {b lo hi : UInt8} {tail : Bytes} (hb : lo ≤ b ∧ b ≤ hi) (htail : ∀ x ∈ tail, 0x80 ≤ x ∧ x ≤ 0xBF)
    (rest : Bytes) : utf8Tail (tail.length + 1) lo hi (b :: (tail ++ rest)) = tail.length + 1 := by
  induction tail generalizing b lo hi with
  | nil => rw [List.length_nil, utf8Tail, if_pos hb, utf8Tail]
  | cons x tail ih =>
    obtain ⟨hx, htail⟩ := List.forall_mem_cons.mp htail
    rw [utf8Tail, if_pos hb, List.length_cons, List.cons_append, ih hx htail]

theorem replaceInvalid_lead {c : Char} {a b lo hi : UInt8} {tail : Bytes} (hc : fromUtf8 (a :: b :: tail) = some [c])
    (ha : ¬ a < 0x80) (hlead : utf8Lead a = some (tail.length + 1, lo, hi)) (hb : lo ≤ b ∧ b ≤ hi)
    (htail : ∀ x ∈ tail, 0x80 ≤ x ∧ x ≤ 0xBF) (fuel : Nat) (rest : Bytes) :
    replaceInvalid (fuel + 1) (a :: b :: (tail ++ rest)) = c :: replaceInvalid fuel rest := by
  have hread := utf8Tail_append hb htail rest
  have htake : (b :: (tail ++ rest)).take (tail.length + 1) = b :: tail := by simp
  have hdrop : (b :: (tail ++ rest)).drop (tail.length + 1) = rest := by simp
  simp only [replaceInvalid, if_neg ha, hlead, hread, if_pos, htake, hdrop, hc, Option.getD_some]
  rfl

theorem ofNat_between (lo hi : Nat) {n : Nat} (hlo : lo ≤ n) (hhi : n ≤ hi) (hhi' : hi < 256) :
    UInt8.ofNat lo ≤ UInt8.ofNat n ∧ UInt8.ofNat n ≤ UInt8.ofNat hi := by
  simp only [UInt8.le_iff_toNat_le, UInt8.toNat_ofNat']
  omega

theorem forall_mem_continuation (tail : List Nat) :
    ∀ x ∈ tail.map fun v => UInt8.ofNat (v % 64 + 128), (0x80 : UInt8) ≤ x ∧ x ≤ 0xBF := by
  intro x hx
  obtain ⟨v, -, rfl⟩ := List.mem_map.mp hx
  exact ofNat_between 128 191 (by omega) (by omega) (by decide)

/-- The lead byte of two, three and four, and the range of the byte behind it. -/
theorem utf8Lead_ofNat {n : Nat} (hlo : 0xC2 ≤ n) (hhi : n ≤ 0xF4) : utf8Lead (UInt8.ofNat n) =
      if n ≤ 0xDF then some (1, 0x80, 0xBF)
      else if n ≤ 0xEF then some (2, if n = 0xE0 then 0xA0 else 0x80, if n = 0xED then 0x9F else 0xBF)
      else some (3, if n = 0xF0 then 0x90 else 0x80, if n = 0xF4 then 0x8F else 0xBF) := by
  interval_cases n <;> rfl

theorem replaceInvalid_char (c : Char) (fuel : Nat) (rest : Bytes) :
    replaceInvalid (fuel + 1) (String.utf8EncodeChar c ++ rest) = c :: replaceInvalid fuel rest := by
  have hback : fromUtf8 (String.utf8EncodeChar c) = some [c] := by
    have hone := fromUtf8_toUtf8 [c]
    rwa [toUtf8_eq, List.flatMap_singleton] at hone
  have hvalid : c.val.toNat < 0xD800 ∨ 0xDFFF < c.val.toNat ∧ c.val.toNat < 0x110000 := c.valid
  have hlarge : ∀ {n : Nat}, 128 ≤ n → n < 256 → ¬ UInt8.ofNat n < 0x80 := by
    intro n hlo hhi
    rw [UInt8.lt_iff_toNat_lt, UInt8.toNat_ofNat', Nat.mod_eq_of_lt hhi]
    exact Nat.not_lt.mpr hlo
  unfold String.utf8EncodeChar at hback ⊢
  generalize hv : c.val.toNat = v at hback hvalid ⊢
  simp only at hback ⊢
  split_ifs at hback ⊢ with h1 h2 h3
  · -- one byte
    have hsmall : UInt8.ofNat v < 0x80 := by
      rw [UInt8.lt_iff_toNat_lt, UInt8.toNat_ofNat', Nat.mod_eq_of_lt (by omega)]
      exact Nat.lt_succ_of_le h1
    have hchar : Char.ofNat (UInt8.ofNat v).toNat = c := by
      rw [UInt8.toNat_ofNat', Nat.mod_eq_of_lt (by omega), ← hv]
      exact Char.ofNat_toNat c
    rw [List.singleton_append, replaceInvalid, if_pos hsmall, hchar]
  · have hlead : utf8Lead (UInt8.ofNat (v / 64 % 32 + 192)) = some (([] : Bytes).length + 1, 0x80, 0xBF) := by
      rw [utf8Lead_ofNat (by omega) (by omega), if_pos (by omega)]
      rfl
    exact replaceInvalid_lead hback (hlarge (by omega) (by omega)) hlead
      (ofNat_between 128 191 (by omega) (by omega) (by decide)) (by simp) fuel rest
  · have hlead : utf8Lead (UInt8.ofNat (v / 4096 % 16 + 224)) =
        some ([UInt8.ofNat (v % 64 + 128)].length + 1, if v / 4096 % 16 + 224 = 0xE0 then 0xA0 else 0x80,
          if v / 4096 % 16 + 224 = 0xED then 0x9F else 0xBF) := by
      rw [utf8Lead_ofNat (by omega) (by omega), if_neg (by omega), if_pos (by omega)]
      rfl
    refine replaceInvalid_lead hback (hlarge (by omega) (by omega)) hlead ?_ (forall_mem_continuation [v]) fuel rest
    split_ifs with he0 hed hed
    · omega
    · exact ofNat_between 0xA0 0xBF (by omega) (by omega) (by decide)
    · exact ofNat_between 0x80 0x9F (by omega) (by omega) (by decide)
    · exact ofNat_between 0x80 0xBF (by omega) (by omega) (by decide)
  · have hlead : utf8Lead (UInt8.ofNat (v / 262144 % 8 + 240)) =
        some ([UInt8.ofNat (v / 64 % 64 + 128), UInt8.ofNat (v % 64 + 128)].length + 1,
          if v / 262144 % 8 + 240 = 0xF0 then 0x90 else 0x80, if v / 262144 % 8 + 240 = 0xF4 then 0x8F else 0xBF) := by
      rw [utf8Lead_ofNat (by omega) (by omega), if_neg (by omega), if_neg (by omega)]
      rfl
    refine replaceInvalid_lead hback (hlarge (by omega) (by omega)) hlead ?_ (forall_mem_continuation [v / 64, v]) fuel rest
    split_ifs with hf0 hf4 hf4
    · omega
    · exact ofNat_between 0x90 0xBF (by omega) (by omega) (by decide)
    · exact ofNat_between 0x80 0x8F (by omega) (by omega) (by decide)
    · exact ofNat_between 0x80 0xBF (by omega) (by omega) (by decide)

/-! ## a text -/

theorem replaceInvalid_fuel {bs : Bytes} {fuel fuel' : Nat} (h : bs.length ≤ fuel) (h' : bs.length ≤ fuel') :
    replaceInvalid fuel bs = replaceInvalid fuel' bs := by
  induction fuel generalizing bs fuel' with
  | zero =>
    obtain rfl := List.length_eq_zero_iff.mp (Nat.le_zero.mp h)
    cases fuel' <;> rfl
  | succ fuel ih =>
    cases bs with
    | nil => cases fuel' <;> rfl
    | cons b bs =>
      obtain _ | fuel' := fuel'
      · cases h'
      rw [List.length_cons] at h h'
      have hdrop : ∀ n, replaceInvalid fuel (bs.drop n) = replaceInvalid fuel' (bs.drop n) := by
        intro n
        apply ih <;> (rw [List.length_drop]; omega)
      have hrest := hdrop 0
      rw [List.drop_zero] at hrest
      simp only [replaceInvalid, hrest, hdrop]

theorem replaceInvalid_append (s : Text) (rest : Bytes) :
    replaceInvalid (toUtf8 s ++ rest).length (toUtf8 s ++ rest) = s ++ replaceInvalid rest.length rest := by
  induction s with
  | nil => rfl
  | cons c s ih =>
    have hlen : (toUtf8 s ++ rest).length + 1 ≤ (String.utf8EncodeChar c ++ (toUtf8 s ++ rest)).length := by
      have hone := c.utf8Size_pos
      have hwhole : (String.utf8EncodeChar c ++ (toUtf8 s ++ rest)).length = _ := List.length_append
      rw [String.length_utf8EncodeChar] at hwhole
      omega
    obtain ⟨extra, hextra⟩ := Nat.exists_eq_add_of_le hlen
    rw [toUtf8_cons, List.append_assoc, hextra, Nat.add_right_comm, replaceInvalid_char,
      replaceInvalid_fuel (Nat.le_add_right _ extra) (Nat.le_refl _), ih, List.cons_append]

theorem fromUtf8Lossy_eq (bs : Bytes) : fromUtf8Lossy bs = replaceInvalid bs.length bs := by
  unfold fromUtf8Lossy
  cases hread : fromUtf8 bs with
  | none => rfl
  | some s =>
    have hwhole := replaceInvalid_append s []
    rw [List.append_nil, toUtf8_of_fromUtf8 hread] at hwhole
    rw [hwhole]
    exact (List.append_nil s).symm

/-- **A text is decoded as it is**, and what comes behind it does not matter. -/
theorem fromUtf8Lossy_append (s : Text) (rest : Bytes) : fromUtf8Lossy (toUtf8 s ++ rest) = s ++ fromUtf8Lossy rest := by
  rw [fromUtf8Lossy_eq, fromUtf8Lossy_eq, replaceInvalid_append]

end SmithsNet.Lib
