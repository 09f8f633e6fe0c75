import Mathlib.Tactic.NormNum

/-! # MessagePack

The interface of a MessagePack library: writers and readers for each kind of value, and the law that every reader gives
back what the matching writer wrote. `Item` is the tree of values that a sequence of writer calls lays out, `Item.ser`
its bytes. An instance is the literal byte format, where every value is written in its shortest form.
-/
namespace EdgeProxy.Lib.MessagePack
open List UInt8

abbrev Bytes := List UInt8

inductive Fault where
  | typeMarker
  | data
  | length
  | invalidType
deriving DecidableEq

/-- What stands at the front of the input. Strings, binaries, arrays and maps are reported by their
length only: their content follows. -/
inductive Head where
  | nil
  | bool (b : Bool)
  | uint (n : UInt64)
  | int (n : Int64)
  | str (len : UInt32)
  | bin (len : UInt32)
  | array (len : UInt32)
  | map (len : UInt32)
  | other
deriving DecidableEq

structure Library where
  writeInteger : Int64 → Bytes
  writeUinteger : UInt64 → Bytes
  writeBool : Bool → Bytes
  writeNil : Bytes
  writeStrMarker : UInt32 → Bytes
  writeBinMarker : UInt32 → Bytes
  writeArray : UInt32 → Bytes
  readObject : Bytes → Except Fault (Head × Bytes)
  readInteger : Bytes → Except Fault (Int64 × Bytes)
  readUinteger : Bytes → Except Fault (UInt64 × Bytes)
  readBool : Bytes → Except Fault (Bool × Bytes)
  readNil : Bytes → Except Fault (Unit × Bytes)
  readStrSize : Bytes → Except Fault (UInt32 × Bytes)
  readBinSize : Bytes → Except Fault (UInt32 × Bytes)
  readArray : Bytes → Except Fault (UInt32 × Bytes)

structure Library.ReadsBack (lib : Library) : Prop where
  integer : ∀ v rest, lib.readInteger (lib.writeInteger v ++ rest) = .ok (v,rest)
  uinteger : ∀ v rest, lib.readUinteger (lib.writeUinteger v ++ rest) = .ok (v,rest)
  bool : ∀ v rest, lib.readBool (lib.writeBool v ++ rest) = .ok (v,rest)
  nil : ∀ rest, lib.readNil (lib.writeNil ++ rest) = .ok ((),rest)
  strSize : ∀ n rest, lib.readStrSize (lib.writeStrMarker n ++ rest) = .ok (n,rest)
  binSize : ∀ n rest, lib.readBinSize (lib.writeBinMarker n ++ rest) = .ok (n,rest)
  array : ∀ n rest, lib.readArray (lib.writeArray n ++ rest) = .ok (n,rest)
  objectNil : ∀ rest, lib.readObject (lib.writeNil ++ rest) = .ok (.nil,rest)
  objectArray : ∀ n rest, lib.readObject (lib.writeArray n ++ rest) = .ok (.array n,rest)

section

def Blob := { d : Bytes // d.length < 2 ^ 32 }
def Blob.size (b : Blob) : UInt32 :=
  .ofNat b.1.length
@[simp] lemma Blob.size_toNat (b : Blob) : b.size.toNat = b.1.length := by
  have h := b.2
  simpa [Blob.size] using h

inductive Item where
  | nil
  | int (v : Int64)
  | uint (v : UInt64)
  | bool (v : Bool)
  | str (s : Blob)
  | bin (d : Blob)
  | arr (items : List Item)

variable (lib : Library)

mutual

def Item.ser : Item → Bytes
  | .nil => lib.writeNil
  | .int v => lib.writeInteger v
  | .uint v => lib.writeUinteger v
  | .bool v => lib.writeBool v
  | .str s => lib.writeStrMarker s.size ++ s.1
  | .bin d => lib.writeBinMarker d.size ++ d.1
  | .arr items => lib.writeArray (.ofNat items.length) ++ Item.serList items
def Item.serList : List Item → Bytes
  | [] => []
  | i :: is => i.ser ++ Item.serList is

end

@[simp] lemma Item.serList_nil : serList lib [] = [] := by
  simp [serList]
@[simp] lemma Item.serList_cons (i : Item) (is : List Item) : serList lib (i :: is) = i.ser lib ++ serList lib is := by
  simp [serList]
lemma Item.serList_singleton (i : Item) : serList lib [i] = i.ser lib := by
  simp

lemma Item.serList_append (is js : List Item) : serList lib (is ++ js) = serList lib is ++ serList lib js := by
  induction is with
  | nil => simp
  | cons i is ih => simp [ih]

end

def be : ℕ → ℕ → Bytes
  | 0, _ => []
  | k + 1, n => be k (n / 256) ++ [.ofNat n]
def unbe (b : Bytes) : ℕ :=
  b.foldl (fun n d => n * 256 + d.toNat) 0

@[simp] lemma length_be (k n : ℕ) : (be k n).length = k := by
  induction k generalizing n with
  | zero => rfl
  | succ k ih => simp [be,ih]

lemma unbe_be (k n : ℕ) (h : n < 256 ^ k) : unbe (be k n) = n := by
  induction k generalizing n with
  | zero =>
    simp only [pow_zero,Nat.lt_one_iff] at h
    simp [be,unbe,h]
  | succ k ih =>
    have hdiv : n / 256 < 256 ^ k := by
      rw [Nat.div_lt_iff_lt_mul (by decide)]
      exact h
    have hlow := ih (n / 256) hdiv
    simp only [unbe] at hlow
    simp only [be,unbe,foldl_append,foldl_cons,foldl_nil,toNat_ofNat']
    omega

def readBe (k : ℕ) (b : Bytes) : Except Fault (ℕ × Bytes) :=
  if k ≤ b.length then .ok (unbe (b.take k),b.drop k) else .error .length
lemma readBe_be (k n : ℕ) (rest : Bytes) (h : n < 256 ^ k) : readBe k (be k n ++ rest) = .ok (n,rest) := by
  have htake : (be k n ++ rest).take k = be k n := by simp
  have hdrop : (be k n ++ rest).drop k = rest := by simp
  rw [readBe,if_pos (by simp),htake,hdrop,unbe_be k n h]
def packUint (n : ℕ) : Bytes :=
  if n < 2 ^ 7 then [.ofNat n]
  else if n < 2 ^ 8 then 0xcc :: be 1 n
  else if n < 2 ^ 16 then 0xcd :: be 2 n
  else if n < 2 ^ 32 then 0xce :: be 4 n
  else 0xcf :: be 8 n
def packNeg (i : ℤ) : Bytes :=
  if -2 ^ 5 ≤ i then [.ofNat (i + 2 ^ 8).toNat]
  else if -2 ^ 7 ≤ i then 0xd0 :: be 1 (i + 2 ^ 8).toNat
  else if -2 ^ 15 ≤ i then 0xd1 :: be 2 (i + 2 ^ 16).toNat
  else if -2 ^ 31 ≤ i then 0xd2 :: be 4 (i + 2 ^ 32).toNat
  else 0xd3 :: be 8 (i + 2 ^ 64).toNat
def packInt (i : ℤ) : Bytes :=
  if 0 ≤ i then packUint i.toNat else packNeg i
def packStr (n : ℕ) : Bytes :=
  if n < 2 ^ 5 then [.ofNat (0xa0 + n)]
  else if n < 2 ^ 8 then 0xd9 :: be 1 n
  else if n < 2 ^ 16 then 0xda :: be 2 n
  else 0xdb :: be 4 n
def packBin (n : ℕ) : Bytes :=
  if n < 2 ^ 8 then 0xc4 :: be 1 n
  else if n < 2 ^ 16 then 0xc5 :: be 2 n
  else 0xc6 :: be 4 n
def packArray (n : ℕ) : Bytes :=
  if n < 2 ^ 4 then [.ofNat (0x90 + n)]
  else if n < 2 ^ 16 then 0xdc :: be 2 n
  else 0xdd :: be 4 n

def signed (w n : ℕ) : Int64 :=
  .ofInt (if n < 2 ^ (w - 1) then n else n - 2 ^ w)
def sized (k : ℕ) (f : ℕ → Head) (b : Bytes) : Except Fault (Head × Bytes) :=
  (readBe k b).map fun p => (f p.1,p.2)

def readTagged (b : Bytes) : ℕ → Except Fault (Head × Bytes)
  | 0xc0 => .ok (.nil,b)
  | 0xc2 => .ok (.bool false,b)
  | 0xc3 => .ok (.bool true,b)
  | 0xc4 => sized 1 (fun n => .bin (.ofNat n)) b
  | 0xc5 => sized 2 (fun n => .bin (.ofNat n)) b
  | 0xc6 => sized 4 (fun n => .bin (.ofNat n)) b
  | 0xcc => sized 1 (fun n => .uint (.ofNat n)) b
  | 0xcd => sized 2 (fun n => .uint (.ofNat n)) b
  | 0xce => sized 4 (fun n => .uint (.ofNat n)) b
  | 0xcf => sized 8 (fun n => .uint (.ofNat n)) b
  | 0xd0 => sized 1 (fun n => .int (signed 8 n)) b
  | 0xd1 => sized 2 (fun n => .int (signed 16 n)) b
  | 0xd2 => sized 4 (fun n => .int (signed 32 n)) b
  | 0xd3 => sized 8 (fun n => .int (signed 64 n)) b
  | 0xd9 => sized 1 (fun n => .str (.ofNat n)) b
  | 0xda => sized 2 (fun n => .str (.ofNat n)) b
  | 0xdb => sized 4 (fun n => .str (.ofNat n)) b
  | 0xdc => sized 2 (fun n => .array (.ofNat n)) b
  | 0xdd => sized 4 (fun n => .array (.ofNat n)) b
  | 0xde => sized 2 (fun n => .map (.ofNat n)) b
  | 0xdf => sized 4 (fun n => .map (.ofNat n)) b
  | _ => .ok (.other,b)

def readHead : Bytes → Except Fault (Head × Bytes)
  | [] => .error .typeMarker
  | m :: b =>
    if m.toNat < 0x80 then .ok (.uint (.ofNat m.toNat),b)
    else if m.toNat < 0x90 then .ok (.map (.ofNat (m.toNat - 0x80)),b)
    else if m.toNat < 0xa0 then .ok (.array (.ofNat (m.toNat - 0x90)),b)
    else if m.toNat < 0xc0 then .ok (.str (.ofNat (m.toNat - 0xa0)),b)
    else if 0xe0 ≤ m.toNat then .ok (.int (.ofInt (m.toNat - 2 ^ 8)),b)
    else readTagged b m.toNat
def readAs {α : Type} (select : Head → Option α) (b : Bytes) : Except Fault (α × Bytes) :=
  (readHead b).bind fun p =>
    match select p.1 with
    | some a => .ok (a,p.2)
    | none => .error .invalidType
def Head.asInteger : Head → Option Int64
  | .uint n => if n.toNat < 2 ^ 63 then some (.ofInt n.toNat) else none
  | .int n => some n
  | _ => none
def Head.asUinteger : Head → Option UInt64
  | .uint n => some n
  | .int n => if 0 ≤ n.toInt then some (.ofNat n.toInt.toNat) else none
  | _ => none

def Head.asBool : Head → Option Bool
  | .bool b => some b
  | _ => none
def Head.asNil : Head → Option Unit
  | .nil => some ()
  | _ => none
def Head.asStr : Head → Option UInt32
  | .str n => some n
  | _ => none
def Head.asBin : Head → Option UInt32
  | .bin n => some n
  | _ => none
def Head.asArray : Head → Option UInt32
  | .array n => some n
  | _ => none

def format : Library where
  writeInteger v := packInt v.toInt
  writeUinteger v := packUint v.toNat
  writeBool v := [if v then 0xc3 else 0xc2]
  writeNil := [0xc0]
  writeStrMarker n := packStr n.toNat
  writeBinMarker n := packBin n.toNat
  writeArray n := packArray n.toNat
  readObject := readHead
  readInteger := readAs Head.asInteger
  readUinteger := readAs Head.asUinteger
  readBool := readAs Head.asBool
  readNil := readAs Head.asNil
  readStrSize := readAs Head.asStr
  readBinSize := readAs Head.asBin
  readArray := readAs Head.asArray

structure Library.WritesFormat (lib : Library) : Prop where
  integer : ∀ v, lib.writeInteger v = format.writeInteger v
  uinteger : ∀ v, lib.writeUinteger v = format.writeUinteger v
  bool : ∀ v, lib.writeBool v = format.writeBool v
  nil : lib.writeNil = format.writeNil
  strMarker : ∀ n, lib.writeStrMarker n = format.writeStrMarker n
  binMarker : ∀ n, lib.writeBinMarker n = format.writeBinMarker n
  array : ∀ n, lib.writeArray n = format.writeArray n

lemma format_writesFormat : format.WritesFormat :=
  ⟨fun _ => rfl,fun _ => rfl,fun _ => rfl,rfl,fun _ => rfl,fun _ => rfl,fun _ => rfl⟩

mutual

theorem Item.ser_of_writesFormat {lib : Library} (h : lib.WritesFormat) : ∀ i : Item, i.ser lib = i.ser format
  | .nil => h.nil
  | .int v => h.integer v
  | .uint v => h.uinteger v
  | .bool v => h.bool v
  | .str s => congrArg (· ++ s.1) (h.strMarker s.size)
  | .bin d => congrArg (· ++ d.1) (h.binMarker d.size)
  | .arr items => by rw [Item.ser,Item.ser,h.array,Item.serList_of_writesFormat h items]
theorem Item.serList_of_writesFormat {lib : Library} (h : lib.WritesFormat) :
    ∀ is : List Item, Item.serList lib is = Item.serList format is
  | [] => by rw [Item.serList_nil,Item.serList_nil]
  | i :: is => by
    rw [Item.serList_cons,Item.serList_cons,Item.ser_of_writesFormat h i,Item.serList_of_writesFormat h is]

end

lemma readHead_sized {m : UInt8} {k n : ℕ} {rest : Bytes} (f : ℕ → Head)
    (hm : decide (0xc0 ≤ m.toNat ∧ m.toNat < 0xe0)) (hf : ∀ b, readTagged b m.toNat = sized k f b) (h : n < 256 ^ k) :
    readHead (m :: be k n ++ rest) = .ok (f n,rest) := by
  have hm := of_decide_eq_true hm
  simp only [cons_append,readHead]
  rw [if_neg (by omega),if_neg (by omega),if_neg (by omega),if_neg (by omega),if_neg (by omega),hf,
    sized,readBe_be k n rest h]
  rfl
lemma readHead_packUint (n : ℕ) (rest : Bytes) (h : n < 2 ^ 64) :
    readHead (packUint n ++ rest) = .ok (.uint (.ofNat n),rest) := by
  unfold packUint
  split_ifs
  · have hm : n % 256 = n := by omega
    simp [readHead,hm]
    omega
  all_goals exact readHead_sized (fun n => .uint (.ofNat n)) rfl (fun _ => rfl) (by omega)
lemma readHead_packStr (n : ℕ) (rest : Bytes) (h : n < 2 ^ 32) :
    readHead (packStr n ++ rest) = .ok (.str (.ofNat n),rest) := by
  unfold packStr
  split_ifs
  · have hm : (ofNat (0xa0 + n)).toNat = 0xa0 + n := by
      simp only [toNat_ofNat']
      omega
    simp only [cons_append,nil_append,readHead,hm]
    rw [if_neg (by omega),if_neg (by omega),if_neg (by omega),if_pos (by omega),Nat.add_sub_cancel_left]
  all_goals exact readHead_sized (fun n => .str (.ofNat n)) rfl (fun _ => rfl) (by omega)
lemma readHead_packBin (n : ℕ) (rest : Bytes) (h : n < 2 ^ 32) :
    readHead (packBin n ++ rest) = .ok (.bin (.ofNat n),rest) := by
  unfold packBin
  split_ifs
  all_goals exact readHead_sized (fun n => .bin (.ofNat n)) rfl (fun _ => rfl) (by omega)
lemma readHead_packArray (n : ℕ) (rest : Bytes) (h : n < 2 ^ 32) :
    readHead (packArray n ++ rest) = .ok (.array (.ofNat n),rest) := by
  unfold packArray
  split_ifs
  · have hm : (ofNat (0x90 + n)).toNat = 0x90 + n := by
      simp only [toNat_ofNat']
      omega
    simp only [cons_append,nil_append,readHead,hm]
    rw [if_neg (by omega),if_neg (by omega),if_pos (by omega),Nat.add_sub_cancel_left]
  all_goals exact readHead_sized (fun n => .array (.ofNat n)) rfl (fun _ => rfl) (by omega)

lemma signed_of_neg (w : ℕ) (i : ℤ) (h : -2 ^ (w - 1) ≤ i) (h0 : i < 0) (hw : 0 < w) :
    signed w (i + 2 ^ w).toNat = .ofInt i := by
  have hpow : (2 : ℤ) ^ w = 2 * 2 ^ (w - 1) := by
    rw [← pow_succ']
    congr 1
    omega
  have hbig : ¬(i + 2 ^ w).toNat < 2 ^ (w - 1) := by
    intro hlt
    have : ((i + 2 ^ w).toNat : ℤ) < 2 ^ (w - 1) := by exact_mod_cast hlt
    omega
  rw [signed,if_neg hbig]
  congr 1
  omega

lemma readHead_packNeg (i : ℤ) (rest : Bytes) (h : -2 ^ 63 ≤ i) (h0 : i < 0) :
    readHead (packNeg i ++ rest) = .ok (.int (.ofInt i),rest) := by
  unfold packNeg
  split_ifs with h5 h7 h15 h31
  · have hm : (ofNat (i + 2 ^ 8).toNat).toNat = (i + 2 ^ 8).toNat := by
      simp only [toNat_ofNat']
      omega
    have hi : ((i + 2 ^ 8).toNat) - 2 ^ 8 = i := by omega
    simp only [cons_append,nil_append,readHead,hm,hi]
    rw [if_neg (by omega),if_neg (by omega),if_neg (by omega),if_neg (by omega),if_pos (by omega)]
  · rw [← signed_of_neg 8 i h7 h0 (by decide)]
    exact readHead_sized (fun n => .int (signed 8 n)) rfl (fun _ => rfl) (by omega)
  · rw [← signed_of_neg 16 i h15 h0 (by decide)]
    exact readHead_sized (fun n => .int (signed 16 n)) rfl (fun _ => rfl) (by omega)
  · rw [← signed_of_neg 32 i h31 h0 (by decide)]
    exact readHead_sized (fun n => .int (signed 32 n)) rfl (fun _ => rfl) (by omega)
  · rw [← signed_of_neg 64 i h h0 (by decide)]
    exact readHead_sized (fun n => .int (signed 64 n)) rfl (fun _ => rfl) (by omega)

lemma readAs_of_head {α : Type} {select : Head → Option α} {b rest : Bytes} {hd : Head} {a : α}
    (h : readHead b = .ok (hd,rest)) (hs : select hd = some a) : readAs select b = .ok (a,rest) := by
  simp [readAs,h,Except.bind,hs]

lemma readInteger_packInt (v : Int64) (rest : Bytes) :
    readAs Head.asInteger (packInt v.toInt ++ rest) = .ok (v,rest) := by
  have hlo := v.le_toInt
  have hhi := v.toInt_lt
  by_cases h0 : 0 ≤ v.toInt
  · rw [packInt,if_pos h0]
    refine readAs_of_head (readHead_packUint _ rest (by omega)) ?_
    have hn : (UInt64.ofNat v.toInt.toNat).toNat = v.toInt.toNat := by
      simp only [UInt64.toNat_ofNat']
      omega
    have hv : .ofInt v.toInt.toNat = v := by
      rw [Int.toNat_of_nonneg h0,Int64.ofInt_toInt]
    rw [Head.asInteger,hn,if_pos (by omega),hv]
  · rw [packInt,if_neg h0]
    refine readAs_of_head (readHead_packNeg _ rest (by omega) (by omega)) ?_
    rw [Head.asInteger,Int64.ofInt_toInt]

lemma format_readsBack : format.ReadsBack where
  integer := readInteger_packInt
  uinteger v rest := readAs_of_head (readHead_packUint _ rest v.toNat_lt) (by simp [Head.asUinteger])
  bool v rest := by cases v <;> rfl
  nil rest := rfl
  strSize n rest := readAs_of_head (readHead_packStr _ rest n.toNat_lt) (by simp [Head.asStr])
  binSize n rest := readAs_of_head (readHead_packBin _ rest n.toNat_lt) (by simp [Head.asBin])
  array n rest := readAs_of_head (readHead_packArray _ rest n.toNat_lt) (by simp [Head.asArray])
  objectNil rest := rfl
  objectArray n rest := by simpa [format] using readHead_packArray _ rest n.toNat_lt

end EdgeProxy.Lib.MessagePack
