import Mathlib.Algebra.Group.Nat.Defs
import Mathlib.Data.Nat.Basic

/-! # Rounding to a number of significant bits

Round to nearest, ties to even, on natural numbers and integers. What is kept by rounding to `p` bits
is what has at most `p` significant bits.
-/
namespace EdgeProxy.Lib

def Significant (p n : ℕ) : Prop :=
  ∃ m < 2 ^ p, ∃ e, n = m * 2 ^ e
def excess (p n : ℕ) : ℕ :=
  n.log2 + 1 - p

/-- The nearest number with `p` significant bits; of two that are equally near, the one whose last
bit is 0. -/
def roundTo (p n : ℕ) : ℕ :=
  let unit := 2 ^ excess p n
  if 2 * (n % unit) < unit ∨ 2 * (n % unit) = unit ∧ n / unit % 2 = 0 then n / unit * unit
  else (n / unit + 1) * unit

variable {p n : ℕ}

lemma lt_two_pow_excess (p n : ℕ) : n < 2 ^ (p + excess p n) := by
  have hle : 2 ^ (n.log2 + 1) ≤ 2 ^ (p + excess p n) := by
    apply Nat.pow_le_pow_right (by decide)
    unfold excess
    omega
  exact Nat.lt_of_lt_of_le Nat.lt_log2_self hle
lemma div_two_pow_excess_lt (p n : ℕ) : n / 2 ^ excess p n < 2 ^ p := by
  rw [Nat.div_lt_iff_lt_mul (Nat.two_pow_pos _),← Nat.pow_add]
  exact lt_two_pow_excess p n

lemma Significant.dvd (h : Significant p n) : 2 ^ excess p n ∣ n := by
  obtain ⟨m,hm,e,rfl⟩ := h
  by_cases hzero : m * 2 ^ e = 0
  · rw [hzero]
    exact Nat.dvd_zero _
  · have hlt : m * 2 ^ e < 2 ^ (p + e) := by
      rw [Nat.pow_add]
      exact Nat.mul_lt_mul_of_pos_right hm (Nat.two_pow_pos e)
    have hlog : (m * 2 ^ e).log2 < p + e := (Nat.log2_lt hzero).2 hlt
    have hle : excess p (m * 2 ^ e) ≤ e := by
      unfold excess
      omega
    exact Nat.dvd_trans (Nat.pow_dvd_pow 2 hle) (Nat.dvd_mul_left _ m)

lemma dvd_roundTo (p n : ℕ) : 2 ^ excess p n ∣ roundTo p n := by
  unfold roundTo
  dsimp only
  split_ifs <;> exact Nat.dvd_mul_left _ _
lemma roundTo_of_dvd (h : 2 ^ excess p n ∣ n) : roundTo p n = n := by
  have hmod : n % 2 ^ excess p n = 0 := Nat.mod_eq_zero_of_dvd h
  unfold roundTo
  dsimp only
  rw [hmod,if_pos (.inl (Nat.two_pow_pos _)),Nat.div_mul_cancel h]
lemma roundTo_eq_iff : roundTo p n = n ↔ Significant p n := by
  constructor
  · intro h
    have hdvd := dvd_roundTo p n
    rw [h] at hdvd
    exact ⟨n / 2 ^ excess p n,div_two_pow_excess_lt p n,excess p n,(Nat.div_mul_cancel hdvd).symm⟩
  · exact fun h => roundTo_of_dvd h.dvd

lemma significant_of_lt (h : n < 2 ^ p) : Significant p n :=
  ⟨n,h,0,by rw [Nat.pow_zero,Nat.mul_one]⟩
def roundInt (p : ℕ) (z : ℤ) : ℤ :=
  z.sign * roundTo p z.natAbs
lemma roundInt_of_significant {p : ℕ} {z : ℤ} (h : Significant p z.natAbs) : roundInt p z = z := by
  rw [roundInt,roundTo_eq_iff.2 h]
  exact Int.sign_mul_natAbs z

lemma roundInt_natCast (p n : ℕ) : roundInt p n = roundTo p n := by
  cases n with
  | zero =>
    rw [roundTo_of_dvd (Nat.dvd_zero _)]
    exact Int.zero_mul _
  | succ => exact Int.one_mul _

end EdgeProxy.Lib
