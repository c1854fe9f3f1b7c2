import SmithsNet.Lib.Text

/-!
# SmithsNet.Lib.Hex

Numbers with a fixed count of hexadecimal digits, in lower case: what `{:016x}` writes for
a number of 64 bits.  Below the power they are long enough for, different numbers look
different (`hexFixed_inj`), and so do different bytes with two digits each (`hexEncode_inj`).
-/

namespace SmithsNet.Lib

/-- `{:0wx}` for a number that needs no more than `w` digits. -/
def hexFixed : Nat → Nat → Text
  | 0, _ => []
  | w + 1, n => hexFixed w (n / 16) ++ [Nat.digitChar (n % 16)]

theorem length_hexFixed (w n : Nat) : (hexFixed w n).length = w := by
  induction w generalizing n with
  | zero => rfl
  | succ w ih => rw [hexFixed, List.length_append, ih, List.length_singleton]

theorem digitChar_inj {d e : Nat} (hd : d < 16) (he : e < 16) (h : Nat.digitChar d = Nat.digitChar e) : d = e := by
  have hall : ∀ d < 16, ∀ e < 16, Nat.digitChar d = Nat.digitChar e → d = e := by decide
  exact hall d hd e he h

theorem hexFixed_inj {w n m : Nat} (hn : n < 16 ^ w) (hm : m < 16 ^ w) (h : hexFixed w n = hexFixed w m) : n = m := by
  induction w generalizing n m with
  | zero =>
    rw [Nat.pow_zero] at hn hm
    omega
  | succ w ih =>
    rw [Nat.pow_succ] at hn hm
    obtain ⟨hhigh, hlow⟩ := List.append_inj' h rfl
    have hdiv : n / 16 = m / 16 := ih (by omega) (by omega) hhigh
    have hmod : n % 16 = m % 16 :=
      digitChar_inj (Nat.mod_lt _ (by decide)) (Nat.mod_lt _ (by decide)) (List.cons.inj hlow).1
    omega

/-- Two digits for each byte. -/
def hexEncode (bytes : List UInt8) : Text := bytes.flatMap fun b => hexFixed 2 b.toNat

theorem hexEncode_cons (b : UInt8) (bytes : List UInt8) : hexEncode (b :: bytes) = hexFixed 2 b.toNat ++ hexEncode bytes :=
  List.flatMap_cons

theorem hexEncode_inj {as bs : List UInt8} (h : hexEncode as = hexEncode bs) : as = bs := by
  induction as generalizing bs with
  | nil =>
    cases bs with
    | nil => rfl
    | cons b bs => contradiction
  | cons a as ih =>
    cases bs with
    | nil => contradiction
    | cons b bs =>
      rw [hexEncode_cons, hexEncode_cons] at h
      obtain ⟨hfirst, hrest⟩ := List.append_inj h (by rw [length_hexFixed, length_hexFixed])
      have hbyte := hexFixed_inj a.toNat_lt b.toNat_lt hfirst
      rw [UInt8.toNat_inj.mp hbyte, ih hrest]

end SmithsNet.Lib
