import EdgeProxy.Client.Reader

/-! # The MessagePack writer of the client

The class `Writer`, on a little endian machine where nothing else is said, over a stream that takes all it is given.
-/
namespace EdgeProxy.Client

open Lib Lib.MessagePack Int16

abbrev Write := StateT Bytes (Except Fault)
def write (b : Bytes) : Write Unit :=
  modify (· ++ b)
def writeNil : Write Unit :=
  write [0xc0]
def writeBool (val : Bool) : Write Unit :=
  write [if val then 0xc3 else 0xc2]
def writeByte (val : UInt8) : Write Unit :=
  if val ≤ 0x7f then write [val] else write (0xcc :: be 1 val.toNat)
def writeUShort (val : UInt16) : Write Unit :=
  if val ≤ 0xff then writeByte val.toUInt8 else write (0xcd :: be 2 val.toNat)
def writeUInt (val : UInt32) : Write Unit :=
  if val ≤ 0xffff then writeUShort val.toUInt16 else write (0xce :: be 4 val.toNat)
def writeULong (val : UInt64) : Write Unit :=
  if val ≤ 0xffffffff then writeUInt val.toUInt32 else write (0xcf :: be 8 val.toNat)

def writeSByte (val : Int8) : Write Unit :=
  if 0 ≤ val then writeByte val.toUInt8
  else if -32 ≤ val then write [0xe0 ||| val.toUInt8]
  else write (0xd0 :: be 1 val.toUInt8.toNat)
def writeShort (val : Int16) : Write Unit :=
  if 0 ≤ val then writeUShort val.toUInt16
  else if Int8.minValue.toInt16 ≤ val then writeSByte val.toInt8
  else write (0xd1 :: be 2 val.toUInt16.toNat)
def writeInt (val : Int32) : Write Unit :=
  if 0 ≤ val then writeUInt val.toUInt32
  else if Int16.minValue.toInt32 ≤ val then writeShort val.toInt16
  else write (0xd2 :: be 4 val.toUInt32.toNat)
def writeLong (val : Int64) : Write Unit :=
  if 0 ≤ val then writeULong val.toUInt64
  else if Int32.minValue.toInt64 ≤ val then writeInt val.toInt32
  else write (0xd3 :: be 8 val.toUInt64.toNat)
def writeBinHeader (size : ℕ) (little : Bool := true) : Write Unit :=
  if size ≤ 0xff then write (0xc4 :: be 1 size)
  else if size ≤ 0xffff then write (0xc5 :: hostOrder little (be 2 size))
  else write (0xc6 :: hostOrder little (be 4 size))
def writeBytes : Option Bytes → (little : Bool := true) → Write Unit
  | none,_ => throw .nullReference
  | some bytes,little => do
    writeBinHeader bytes.length little
    write bytes
def writeArrayHeader (size : ℕ) (little : Bool := true) : Write Unit :=
  if size ≤ 15 then write [0x90 ||| .ofNat size]
  else if size ≤ 0xffff then write (0xdc :: hostOrder little (be 2 size))
  else write (0xdd :: hostOrder little (be 4 size))
/-- The header of an array with one member more, in 32 bits. For the largest number the sum is negative, and its last
byte zero. -/
def writeObjectHeader (fields : ℕ) (little : Bool := true) : Write Unit := do
  writeArrayHeader ((fields + 1) % 2 ^ 31) little
  writeNil
def writeStrHeader (size : ℕ) (little : Bool := true) : Write Unit :=
  if size ≤ 31 then write [0xa0 ||| .ofNat size]
  else if size ≤ 0xff then write (0xd9 :: be 1 size)
  else if size ≤ 0xffff then write (0xda :: hostOrder little (be 2 size))
  else write (0xdb :: hostOrder little (be 4 size))
def writeString : Option String → (little : Bool := true) → Write Unit
  | none,_ => throw .nullReference
  | some val,little =>
    if (utf8 val).length < 2 ^ 31 then do
      writeStrHeader (utf8 val).length little
      write (utf8 val)
    else
      throw .argument

/-- A header in the byte order of the machine. -/
def ordered : Bool → Bytes → Bytes
  | true,b => b
  | false,[] => []
  | false,tag :: size => tag :: size.reverse

def Writes (w : Write Unit) (b : Bytes) : Prop :=
  ∀ out, Ok w out () (out ++ b)
lemma writes_write (b : Bytes) : Writes (write b) b := by
  intro out
  rfl
lemma writes_pure : Writes (pure ()) [] := by
  intro out
  simp

lemma Writes.seq {w w' b b'} (h : Writes w b) (h' : Writes w' b') : Writes (w >>= fun _ => w') (b ++ b') := by
  intro out
  rw [ok_bind]
  refine ⟨(),out ++ b,h out,?_⟩
  rw [← List.append_assoc]
  exact h' (out ++ b)
lemma Writes.of_eq {w b b'} (h : Writes w b) (e : b = b') : Writes w b' :=
  e ▸ h

/-- A number that fits is written by the writer of the next smaller type. -/
lemma writes_unsigned (limit : ℕ) {n p b} [Decidable p] {narrow : Write Unit} (hp : p ↔ n ≤ limit)
    (hnarrow : n ≤ limit → Writes narrow (packUint n)) (hwide : limit < n → packUint n = b) :
    Writes (if p then narrow else write b) (packUint n) := by
  split_ifs with h
  · exact hnarrow (hp.1 h)
  · rw [hwide (Nat.lt_of_not_le fun hle => h (hp.2 hle))]
    exact writes_write _
lemma writes_byte (v : UInt8) : Writes (writeByte v) (packUint v.toNat) := by
  have hlt := v.toNat_lt
  refine writes_unsigned 0x7f UInt8.le_iff_toNat_le (fun h => (writes_write _).of_eq ?_) fun h => ?_
  · rw [packUint,if_pos (by omega),UInt8.ofNat_toNat]
  · rw [packUint,if_neg (by omega),if_pos (by omega)]
lemma writes_ushort (v : UInt16) : Writes (writeUShort v) (packUint v.toNat) := by
  have hlt := v.toNat_lt
  refine writes_unsigned 0xff UInt16.le_iff_toNat_le (fun h => (writes_byte v.toUInt8).of_eq ?_) fun h => ?_
  · rw [UInt16.toNat_toUInt8,Nat.mod_eq_of_lt (by omega)]
  · rw [packUint,if_neg (by omega),if_neg (by omega),if_pos (by omega)]
lemma writes_uint (v : UInt32) : Writes (writeUInt v) (packUint v.toNat) := by
  have hlt := v.toNat_lt
  refine writes_unsigned 0xffff UInt32.le_iff_toNat_le (fun h => (writes_ushort v.toUInt16).of_eq ?_) fun h => ?_
  · rw [UInt32.toNat_toUInt16,Nat.mod_eq_of_lt (by omega)]
  · rw [packUint,if_neg (by omega),if_neg (by omega),if_neg (by omega),if_pos (by omega)]
lemma writes_ulong (v : UInt64) : Writes (writeULong v) (packUint v.toNat) := by
  refine writes_unsigned 0xffffffff UInt64.le_iff_toNat_le (fun h => (writes_uint v.toUInt32).of_eq ?_) fun h => ?_
  · rw [UInt64.toNat_toUInt32,Nat.mod_eq_of_lt (by omega)]
  · rw [packUint,if_neg (by omega),if_neg (by omega),if_neg (by omega),if_neg (by omega)]
lemma toNat_bits {w} (x : BitVec w) : x.toNat = if 0 ≤ x.toInt then x.toInt.toNat else (x.toInt + 2 ^ w).toNat := by
  have hlt : (x.toNat : ℤ) < 2 ^ w := by exact_mod_cast x.isLt
  have h := BitVec.toInt_eq_toNat_cond x
  push_cast at h
  split_ifs at ⊢ <;> omega
lemma or_e0 (b : UInt8) (h : 0xe0 ≤ b.toNat) : 0xe0 ||| b = b := by
  have hall : ∀ n : Fin 256, 0xe0 ≤ n.1 → (0xe0 : UInt8) ||| .ofNat n.1 = .ofNat n.1 := by decide +kernel
  simpa using hall ⟨b.toNat,b.toNat_lt⟩ h

lemma bmod_of_small {i w} (hw : 0 < w) (hlo : -2 ^ (w - 1) ≤ i) (hhi : i < 2 ^ (w - 1)) : i.bmod (2 ^ w) = i := by
  have hpow : (2 : ℤ) ^ w = 2 * 2 ^ (w - 1) := by
    rw [← pow_succ']
    congr 1
    omega
  apply Int.bmod_eq_of_le <;> push_cast <;> omega

lemma writes_signed (low : ℤ) {i n w p q b} [Decidable p] [Decidable q] {unsigned narrow : Write Unit}
    (hunsigned : Writes unsigned (packUint n)) (hbits : n = if 0 ≤ i then i.toNat else (i + 2 ^ w).toNat)
    (hp : p ↔ 0 ≤ i) (hq : q ↔ low ≤ i)
    (hnarrow : n = (i + 2 ^ w).toNat → low ≤ i → i < 0 → Writes narrow (packInt i))
    (hwide : n = (i + 2 ^ w).toNat → i < low → i < 0 → packNeg i = b) :
    Writes (if p then unsigned else if q then narrow else write b) (packInt i) := by
  by_cases h : 0 ≤ i
  · rw [if_pos h] at hbits
    rw [if_pos (hp.2 h),packInt,if_pos h,← hbits]
    exact hunsigned
  · rw [if_neg h] at hbits
    rw [if_neg fun hle => h (hp.1 hle)]
    split_ifs with hlow
    · exact hnarrow hbits (hq.1 hlow) (Int.lt_of_not_ge h)
    · rw [packInt,if_neg h,hwide hbits (Int.lt_of_not_ge fun hle => hlow (hq.2 hle)) (Int.lt_of_not_ge h)]
      exact writes_write _
lemma writes_sbyte (v : Int8) : Writes (writeSByte v) (packInt v.toInt) := by
  have hlo := v.le_toInt
  refine writes_signed (-2 ^ 5) (writes_byte v.toUInt8) (toNat_bits v.toBitVec) Int8.le_iff_toInt_le
    Int8.le_iff_toInt_le (fun hbits hlow h => (writes_write _).of_eq ?_) fun hbits hlow h => ?_
  · rw [packInt,if_neg h.not_ge,packNeg,if_pos hlow,or_e0 _ (by omega),← hbits,UInt8.ofNat_toNat]
  · rw [packNeg,if_neg hlow.not_ge,if_pos (by omega),hbits]
lemma writes_short (v : Int16) : Writes (writeShort v) (packInt v.toInt) := by
  have hlo := v.le_toInt
  refine writes_signed (-2 ^ 7) (writes_ushort v.toUInt16) (toNat_bits v.toBitVec) le_iff_toInt_le le_iff_toInt_le
    (fun _ hlow h => (writes_sbyte v.toInt8).of_eq ?_) fun hbits hlow h => ?_
  · rw [toInt_toInt8,bmod_of_small (by decide) hlow (by omega)]
  · rw [packNeg,if_neg (by omega),if_neg hlow.not_ge,if_pos (by omega),hbits]
lemma writes_int (v : Int32) : Writes (writeInt v) (packInt v.toInt) := by
  have hlo := v.le_toInt
  refine writes_signed (-2 ^ 15) (writes_uint v.toUInt32) (toNat_bits v.toBitVec) Int32.le_iff_toInt_le
    Int32.le_iff_toInt_le (fun _ hlow h => (writes_short v.toInt16).of_eq ?_) fun hbits hlow h => ?_
  · rw [Int32.toInt_toInt16,bmod_of_small (by decide) hlow (by omega)]
  · rw [packNeg,if_neg (by omega),if_neg (by omega),if_neg hlow.not_ge,if_pos (by omega),hbits]
lemma writes_long (v : Int64) : Writes (writeLong v) (packInt v.toInt) := by
  refine writes_signed (-2 ^ 31) (writes_ulong v.toUInt64) (toNat_bits v.toBitVec) Int64.le_iff_toInt_le
    Int64.le_iff_toInt_le (fun _ hlow h => (writes_int v.toInt32).of_eq ?_) fun hbits hlow h => ?_
  · rw [Int64.toInt_toInt32,bmod_of_small (by decide) hlow (by omega)]
  · rw [packNeg,if_neg (by omega),if_neg (by omega),if_neg (by omega),if_neg hlow.not_ge,hbits]

lemma writes_binHeader (n : ℕ) (little : Bool := true) :
    Writes (writeBinHeader n little) (ordered little (packBin n)) := by
  unfold writeBinHeader packBin
  split_ifs
  all_goals first | (cases little <;> exact writes_write _) | omega
lemma or_add {n k} (hn : n < 2 ^ k) (m : ℕ) : 2 ^ k * m ||| n = 2 ^ k * m + n :=
  (Nat.two_pow_add_eq_or_of_lt hn m).symm
lemma or_ofNat {n k} (m : ℕ) (hn : n < 2 ^ k) (hm : 2 ^ k * m + n < 2 ^ 8) :
    UInt8.ofNat (2 ^ k * m) ||| .ofNat n = .ofNat (2 ^ k * m + n) := by
  apply UInt8.toNat_inj.1
  simp only [UInt8.toNat_or,UInt8.toNat_ofNat']
  rw [Nat.mod_eq_of_lt (by omega),Nat.mod_eq_of_lt (by omega),Nat.mod_eq_of_lt hm]
  exact or_add hn m
lemma writes_arrayHeader (n : ℕ) (little : Bool := true) :
    Writes (writeArrayHeader n little) (ordered little (packArray n)) := by
  unfold writeArrayHeader packArray
  split_ifs
  · have hor : 0x90 ||| UInt8.ofNat n = .ofNat (0x90 + n) := or_ofNat (k := 4) 9 (by omega) (by omega)
    rw [hor]
    cases little <;> exact writes_write _
  all_goals first | (cases little <;> exact writes_write _) | omega
lemma writes_strHeader (n : ℕ) (little : Bool := true) :
    Writes (writeStrHeader n little) (ordered little (packStr n)) := by
  unfold writeStrHeader packStr
  split_ifs
  · have hor : 0xa0 ||| UInt8.ofNat n = .ofNat (0xa0 + n) := or_ofNat (k := 5) 5 (by omega) (by omega)
    rw [hor]
    cases little <;> exact writes_write _
  all_goals first | (cases little <;> exact writes_write _) | omega

end EdgeProxy.Client
