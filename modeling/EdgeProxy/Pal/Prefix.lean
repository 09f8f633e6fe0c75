import EdgeProxy.Base.Error

/-! # Network prefixes

The prefix length of an interface, which `pal_os_to_prx_ifaddrinfo` counts in its netmask with the functions of
`util_misc.c`.
-/
namespace EdgeProxy.Pal
open List

/-- The loop of `count_leading_ones`, which goes on while a bit of the byte is left. -/
def countLeadingOnes (b lo : ℕ) : ℕ :=
  if b = 0 then lo else countLeadingOnes (b >>> 1) (lo + (b &&& 1))
termination_by b
decreasing_by omega

def countLeadingOnesInBuf : List UInt8 → ℕ
  | [] => 0
  | b :: buf => if b ≠ 0xff then countLeadingOnes b.toNat 0 else 8 + countLeadingOnesInBuf buf

/-- The prefix for the netmask of an address of either family. -/
def ifaddrPrefix (netmask : List UInt8) : UInt8 :=
  (countLeadingOnesInBuf netmask).toUInt8

/-- The bits of a byte from the most significant one. -/
def bits (b : UInt8) : List Bool :=
  [7,6,5,4,3,2,1,0].map b.toNat.testBit

def leadingOnes (bits : List Bool) : ℕ :=
  (bits.takeWhile id).length
def netmask (n : ℕ) : ℕ → List UInt8
  | 0 => []
  | len + 1 => (0xff00 >>> min n 8).toUInt8 :: netmask (n - 8) len

/-- No bit is set after the first one that is not. -/
def LeadingOnly (buf : List UInt8) : Prop :=
  ∀ b, buf.find? (· ≠ 0xff) = some b → (bits b).count true = leadingOnes (bits b)

lemma byte_ones (b : UInt8) : countLeadingOnes b.toNat 0 = (bits b).count true ∧
    (b = 0xff ∨ leadingOnes (bits b) ≠ (bits b).length) := by
  have hall : ∀ n : Fin 256, countLeadingOnes n 0 = (bits (.ofNat n)).count true ∧
      (UInt8.ofNat n = 0xff ∨ leadingOnes (bits (.ofNat n)) ≠ (bits (.ofNat n)).length) := by decide +kernel
  simpa using hall ⟨b.toNat,b.toNat_lt⟩
lemma leadingOnes_cons (b : UInt8) (rest : List Bool) :
    leadingOnes (bits b ++ rest) = if b ≠ 0xff then leadingOnes (bits b) else 8 + leadingOnes rest := by
  split_ifs with hb
  · rw [leadingOnes,takeWhile_append]
    exact congrArg length (if_neg ((byte_ones b).2.resolve_left hb))
  · cases not_not.1 hb
    exact Nat.add_comm (leadingOnes rest) 8
lemma countLeadingOnesInBuf_eq_iff (buf : List UInt8) :
    countLeadingOnesInBuf buf = leadingOnes (buf.flatMap bits) ↔ LeadingOnly buf := by
  induction buf with
  | nil => exact iff_of_true rfl nofun
  | cons b buf ih =>
    rw [countLeadingOnesInBuf,flatMap_cons,leadingOnes_cons,LeadingOnly,find?_cons]
    by_cases hb : b = 0xff
    · simpa [hb,LeadingOnly] using ih
    · simp [hb,(byte_ones b).1]
lemma countLeadingOnesInBuf_netmask {n len} (h : n ≤ 8 * len) : countLeadingOnesInBuf (netmask n len) = n := by
  induction len generalizing n with
  | zero => exact (Nat.le_zero.1 h).symm
  | succ len ih =>
    have hbyte : ∀ n < 8, (0xff00 >>> n).toUInt8 ≠ 0xff ∧ countLeadingOnes (0xff00 >>> n).toUInt8.toNat 0 = n := by
      decide +kernel
    rw [netmask,countLeadingOnesInBuf]
    by_cases hn : n < 8
    · rw [Nat.min_eq_left (by omega),if_pos (hbyte n hn).1,(hbyte n hn).2]
    · rw [Nat.min_eq_right (by omega),if_neg (by decide),ih (by omega)]
      omega

/-- The ones that lead a buffer are counted exactly if no others follow in its first byte that is not all ones. -/
theorem countsLeadingOnes (buf : List UInt8) :
    (countLeadingOnesInBuf buf = leadingOnes (buf.flatMap bits) ↔ LeadingOnly buf) ∧
      ∀ n len, n ≤ 8 * len → n < 256 → (ifaddrPrefix (netmask n len)).toNat = n := by
  refine ⟨countLeadingOnesInBuf_eq_iff buf,fun n len h hn => ?_⟩
  rw [ifaddrPrefix,countLeadingOnesInBuf_netmask h]
  exact Nat.mod_eq_of_lt hn

/-- A one after a zero is counted. -/
theorem isolatedOne_counted : countLeadingOnesInBuf [0xff,0x81] = 10 ∧ leadingOnes ([0xff,0x81].flatMap bits) = 9 := by
  decide +kernel

end EdgeProxy.Pal
