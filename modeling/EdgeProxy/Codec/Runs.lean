import EdgeProxy.Codec.Mpack

/-! # Runs of the MessagePack decoder

What a run of each operation of the decoder that succeeds has done to the input and to the member counter, the casts of
narrow integers, and the memory of a string, which is allocated with one byte more than its length in 32 bits.
-/
namespace EdgeProxy.Codec

open Lib Lib.MessagePack

variable {lib : Library} {α : Type}

variable {s t : Source UInt8 DecCtx}

def moved (s : Source UInt8 DecCtx) (input : Bytes) (index : ℕ) : Source UInt8 DecCtx :=
  ⟨input,{ s.user with index }⟩
@[simp] lemma moved_input (input : Bytes) (index : ℕ) : (moved s input index).input = input :=
  rfl
@[simp] lemma moved_index (input : Bytes) (index : ℕ) : (moved s input index).user.index = index :=
  rfl

lemma ok_mpackReadBegin {u} : Ok mpackReadBegin s u t ↔ 0 < s.user.index ∧ t = moved s s.input (s.user.index - 1) := by
  by_cases h : s.user.index = 0
  · have hrun : mpackReadBegin.run s = .error (.err .invalidFormat) := by
      simp [mpackReadBegin,getIndex,h]
      rfl
    simp [Ok,hrun,h]
  · have hrun : mpackReadBegin.run s = .ok ((),moved s s.input (s.user.index - 1)) := by
      simp [mpackReadBegin,getIndex,h]
      rfl
    simp [Ok,hrun,Nat.pos_of_ne_zero h,eq_comm]

lemma ok_cmpRead {read} {a : α} :
    Ok (cmpRead read) s a t ↔ ∃ rest, read s.input = .ok (a,rest) ∧ t = moved s rest s.user.index := by
  simp only [cmpRead,ok_bind,ok_get]
  constructor
  · rintro ⟨_,_,⟨rfl,rfl⟩,h⟩
    split at h
    · exact absurd h ok_throw
    · rename_i rest heq
      obtain ⟨_,_,rfl,rfl,rfl⟩ := h
      exact ⟨rest,heq,rfl⟩
  · rintro ⟨rest,heq,rfl⟩
    refine ⟨s,s,⟨rfl,rfl⟩,?_⟩
    rw [heq]
    rfl

lemma ok_cmpStreamRead {limit d} : Ok (cmpStreamRead limit) s d t ↔
    limit ≤ s.input.length ∧ d = s.input.take limit ∧ t = moved s (s.input.drop limit) s.user.index := by
  simp only [cmpStreamRead,ok_bind,ok_get]
  constructor
  · rintro ⟨_,_,⟨rfl,rfl⟩,h⟩
    split_ifs at h with hlimit
    · obtain ⟨_,_,rfl,rfl,rfl⟩ := h
      exact ⟨hlimit,rfl,rfl⟩
    · exact absurd h ok_throw
  · rintro ⟨hlimit,rfl,rfl⟩
    refine ⟨s,s,⟨rfl,rfl⟩,?_⟩
    rw [if_pos hlimit]
    rfl

lemma ok_nested_iff {index body} {a : α} : Ok (nested index body) s a t ↔
    ∃ u, Ok body (moved s s.input index) a u ∧ t = moved u u.input s.user.index := by
  simp only [nested,getIndex,setIndex,ok_bind,ok_get,ok_modify,ok_pure]
  constructor
  · rintro ⟨_,_,⟨_,_,⟨rfl,rfl⟩,rfl,rfl⟩,_,_,rfl,_,u,hbody,_,_,rfl,rfl,rfl⟩
    exact ⟨u,hbody,rfl⟩
  · rintro ⟨u,hbody,rfl⟩
    exact ⟨_,_,⟨_,_,⟨rfl,rfl⟩,rfl,rfl⟩,(),_,rfl,a,u,hbody,(),_,rfl,rfl,rfl⟩

lemma ok_mpackReadObject {name} {object : Bool → Dec α} {a} :
    Ok (mpackReadObject lib name object) s a t ↔ 0 < s.user.index ∧ ∃ u, t = moved u u.input (s.user.index - 1) ∧
      ((∃ r, lib.readObject s.input = .ok (.nil,r) ∧ Ok (object true) (moved s r 0) a u) ∨
        ∃ size r r', lib.readObject s.input = .ok (.array size,r) ∧ 0 < size.toNat ∧ lib.readNil r = .ok ((),r') ∧
          Ok (object false) (moved s r' (size.toNat - 1)) a u) := by
  simp only [mpackReadObject,ok_bind,ok_mpackReadBegin,ok_cmpRead]
  constructor
  · rintro ⟨_,_,⟨hindex,rfl⟩,head,_,⟨r,hread,rfl⟩,h⟩
    split at h
    · obtain ⟨u,hbody,rfl⟩ := ok_nested_iff.1 h
      exact ⟨hindex,u,rfl,.inl ⟨r,hread,hbody⟩⟩
    · rename_i size
      obtain ⟨u,hbody,rfl⟩ := ok_nested_iff.1 h
      simp only [ok_bind,ok_mpackReadBegin,ok_cmpRead] at hbody
      obtain ⟨_,_,⟨hsize,rfl⟩,_,_,⟨r',hnil,rfl⟩,hbody⟩ := hbody
      exact ⟨hindex,u,rfl,.inr ⟨size,r,r',hread,hsize,hnil,hbody⟩⟩
    · exact absurd h ok_throw
  · rintro ⟨hindex,u,rfl,⟨r,hread,hbody⟩ | ⟨size,r,r',hread,hsize,hnil,hbody⟩⟩
    · exact ⟨(),_,⟨hindex,rfl⟩,_,_,⟨r,hread,rfl⟩,ok_nested_iff.2 ⟨u,hbody,rfl⟩⟩
    · refine ⟨(),_,⟨hindex,rfl⟩,_,_,⟨r,hread,rfl⟩,ok_nested_iff.2 ⟨u,?_,rfl⟩⟩
      simp only [ok_bind,ok_mpackReadBegin,ok_cmpRead]
      exact ⟨(),_,⟨hsize,rfl⟩,(),_,⟨r',hnil,rfl⟩,hbody⟩

lemma ok_mpackReadArray {name} {array : ℕ → Dec α} {a : α} :
    Ok (mpackReadArray lib name array) s a t ↔ 0 < s.user.index ∧ ∃ size r u, lib.readArray s.input = .ok (size,r) ∧
      Ok (array size.toNat) (moved s r size.toNat) a u ∧ t = moved u u.input (s.user.index - 1) := by
  simp only [mpackReadArray,ok_bind,ok_mpackReadBegin,ok_cmpRead,ok_nested_iff]
  constructor
  · rintro ⟨_,_,⟨hindex,rfl⟩,size,_,⟨r,hread,rfl⟩,u,hbody,rfl⟩
    exact ⟨hindex,size,r,u,hread,hbody,rfl⟩
  · rintro ⟨hindex,size,r,u,hread,hbody,rfl⟩
    exact ⟨(),_,⟨hindex,rfl⟩,size,_,⟨r,hread,rfl⟩,u,hbody,rfl⟩

open Base

/-- The decoder succeeds exactly if the value fits, and then returns that value. -/
def Narrows (x : Dec α) (s : Source UInt8 DecCtx) (toInt : α → ℤ) (v : ℤ) (fits : Prop) : Prop :=
  ((∃ n t, Ok x s n t) ↔ fits) ∧ ∀ n t, Ok x s n t → toInt n = v

lemma ok_read {read} {a : α} {rest} (hindex : 0 < s.user.index) (h : read s.input = .ok (a,rest)) :
    Ok (mpackReadBegin >>= fun _ => cmpRead read) s a (moved s rest (s.user.index - 1)) :=
  ok_bind.2 ⟨(),_,ok_mpackReadBegin.2 ⟨hindex,rfl⟩,ok_cmpRead.2 ⟨rest,h,rfl⟩⟩

lemma narrows_of_cast {β : Type} [DecidableEq β] {read v} {fits : Prop} {stop}
    (narrow : β → α) (widen : α → β) (toInt : α → ℤ) (ofWide : β → ℤ) (hread : Ok read s v t)
    (hwiden : ∀ n, ofWide (widen n) = toInt n) (hfits : widen (narrow v) = v ↔ fits) :
    Narrows (read >>= fun v => if widen (narrow v) = v then pure (narrow v) else throw stop) s toInt (ofWide v)
      fits := by
  have hok : ∀ n t', Ok (read >>= fun v => if widen (narrow v) = v then pure (narrow v) else throw stop) s n t' ↔
      widen (narrow v) = v ∧ n = narrow v ∧ t' = t := by
    intro n t'
    rw [ok_bind]
    constructor
    · rintro ⟨v',t₁,hv,h⟩
      obtain ⟨rfl,rfl⟩ := hv.det hread
      split_ifs at h with heq
      · exact ⟨heq,ok_pure.1 h⟩
      · exact absurd h ok_throw
    · rintro ⟨heq,rfl,rfl⟩
      exact ⟨v,t',hread,by rw [if_pos heq]; rfl⟩
  refine ⟨⟨fun ⟨n,t',h⟩ => hfits.1 ((hok n t').1 h).1,fun h => ⟨_,_,(hok _ _).2 ⟨hfits.2 h,rfl,rfl⟩⟩⟩,?_⟩
  intro n t' h
  obtain ⟨heq,rfl,-⟩ := (hok n t').1 h
  rw [← hwiden,heq]

/-- Every narrow integer is decoded exactly, and values that do not fit are refused. -/
theorem narrow_integers_exact (lib : Library) (place : ℕ → Option ℕ) (name : Option String)
    (s : Source UInt8 DecCtx) (hindex : 0 < s.user.index) :
    (∀ v rest, lib.readUinteger s.input = .ok (v,rest) →
      Narrows ((mpackDecoder lib place).decodeUint8 name) s (·.toNat) v.toNat (v.toNat < 256) ∧
      Narrows ((mpackDecoder lib place).decodeUint16 name) s (·.toNat) v.toNat (v.toNat < 65536) ∧
      Narrows ((mpackDecoder lib place).decodeUint32 name) s (·.toNat) v.toNat (v.toNat < 4294967296)) ∧
    (∀ v rest, lib.readInteger s.input = .ok (v,rest) →
      Narrows ((mpackDecoder lib place).decodeInt8 name) s (·.toInt) v.toInt (-128 ≤ v.toInt ∧ v.toInt < 128) ∧
      Narrows ((mpackDecoder lib place).decodeInt16 name) s (·.toInt) v.toInt (-32768 ≤ v.toInt ∧ v.toInt < 32768) ∧
      Narrows ((mpackDecoder lib place).decodeInt32 name) s (·.toInt) v.toInt
        (-2147483648 ≤ v.toInt ∧ v.toInt < 2147483648)) := by
  constructor
  · intro v rest h
    have hread : Ok (mpackReadUinteger lib name) s v _ := ok_read hindex h
    refine ⟨narrows_of_cast UInt64.toUInt8 UInt8.toUInt64 (·.toNat) (·.toNat) hread (by simp) ?_,
      narrows_of_cast UInt64.toUInt16 UInt16.toUInt64 (·.toNat) (·.toNat) hread (by simp) ?_,
      narrows_of_cast UInt64.toUInt32 UInt32.toUInt64 (·.toNat) (·.toNat) hread (by simp) ?_⟩
    all_goals
      rw [← UInt64.toNat_inj]
      simp
  · intro v rest h
    have hread : Ok (mpackReadInteger lib name) s v _ := ok_read hindex h
    refine ⟨narrows_of_cast Int64.toInt8 Int8.toInt64 (·.toInt) (·.toInt) hread (by simp) ?_,
      narrows_of_cast Int64.toInt16 Int16.toInt64 (·.toInt) (·.toInt) hread (by simp) ?_,
      narrows_of_cast Int64.toInt32 Int32.toInt64 (·.toInt) (·.toInt) hread (by simp) ?_⟩
    all_goals
      rw [← Int64.toInt_inj]
      simp [Int.bmod_def]
      omega

theorem uint256_narrows :
    Narrows ((mpackDecoder format some).decodeUint8 none) ⟨[0xcd,1,0],⟨1,⟨none,0⟩⟩⟩ (·.toNat) 256 (256 < 256) :=
  ((narrow_integers_exact format some none ⟨[0xcd,1,0],⟨1,⟨none,0⟩⟩⟩ (by decide)).1 256 [] rfl).1

/-- `fixed_validator` for a buffer of some length, `mem_allocator` or `crt_allocator` with or without memory left. -/
inductive StringAllocator where
  | fixed (length : UInt64)
  | heap (available : Bool)
deriving DecidableEq

/-- The size of the memory that is granted. A heap allocator asked for nothing frees the memory and stores null. -/
def StringAllocator.grant (allocator : StringAllocator) (size : UInt64) : Except PrxError UInt64 :=
  match allocator with
  | .fixed length => if size ≤ length then .ok size else .error .outOfMemory
  | .heap available => if 0 < size ∧ ¬available then .error .outOfMemory else .ok size

/-- What was copied into the memory: nothing, the rest of a stream that is too short, or the string with its
terminator. -/
inductive StringRead where
  | refused (e : PrxError)
  | short (granted : UInt64) (content : Bytes)
  | done (granted : UInt64) (content : Bytes)
deriving DecidableEq

/-- `mpack_read_string` after it has read the length. -/
def readStringInto (allocator : StringAllocator) (len32 : UInt32) (input : Bytes) : StringRead :=
  match allocator.grant (len32 + 1).toUInt64 with
  | .error e => .refused e
  | .ok size =>
    if size ≠ (len32 + 1).toUInt64 then .refused .outOfMemory
    else if len32.toNat ≤ input.length then .done size (input.take len32.toNat)
    else .short size input

def StringRead.InMemory : StringRead → Prop
  | .refused _ => True
  | .short granted content => content.length ≤ granted.toNat
  | .done granted content => content.length + 1 ≤ granted.toNat
instance : DecidablePred StringRead.InMemory := fun r => by
  cases r <;> unfold StringRead.InMemory <;> infer_instance
lemma StringAllocator.grant_eq {allocator : StringAllocator} {size granted}
    (h : allocator.grant size = .ok granted) : granted = size := by
  unfold grant at h
  split at h <;> split_ifs at h <;> cases h <;> rfl
lemma StringAllocator.grant_zero (allocator : StringAllocator) : allocator.grant 0 = .ok 0 := by
  cases allocator <;> simp [grant]

/-- A length whose successor wraps is granted nothing by any allocator, and copied all the same. -/
theorem readStringInto_inMemory_iff (allocator : StringAllocator) (len32 : UInt32) :
    (∀ input, (readStringInto allocator len32 input).InMemory) ↔ len32 ≠ 0xffffffff := by
  constructor
  · rintro h rfl
    have hshort := h [0]
    unfold readStringInto at hshort
    rw [show (0xffffffff + 1 : UInt32).toUInt64 = 0 from rfl,allocator.grant_zero] at hshort
    exact absurd hshort (by decide)
  · intro hne input
    have hsize : (len32 + 1).toUInt64.toNat = len32.toNat + 1 := by
      have hlt := len32.toNat_lt
      have hne' : len32.toNat ≠ 4294967295 := fun h => hne (UInt32.toNat_inj.1 h)
      simp
      omega
    unfold readStringInto
    split
    · trivial
    · rename_i size hgrant
      have hgranted := StringAllocator.grant_eq hgrant
      subst hgranted
      rw [if_neg (fun h => h rfl)]
      split_ifs
      · simp only [StringRead.InMemory,List.length_take]
        omega
      · simp only [StringRead.InMemory]
        omega

/-- A fixed buffer of sixteen bytes and the longest length. -/
theorem longest_not_inMemory : ¬(readStringInto (.fixed 16) 0xffffffff [1]).InMemory := by
  decide

/-- What decoding a string into a fixed buffer does with it. -/
theorem ok_mpackReadString_fixed {lib name n} {old v : Vector UInt8 n}
    {s t len32 rest} (hn : n < 18446744073709551616)
    (hindex : 0 < s.user.index) (hread : lib.readStrSize s.input = .ok (len32,rest)) :
    Ok (mpackReadString lib name (fixedValidator old)) s v t ↔
      ∃ granted content, readStringInto (.fixed (.ofNat n)) len32 rest = .done granted content ∧
        content.length + 1 ≤ n ∧ v = overlay old (content ++ [0]) ∧
        t = moved s (rest.drop len32.toNat) (s.user.index - 1) := by
  have hfits : (len32 + 1).toUInt64 ≤ .ofNat n ↔ (len32 + 1).toNat ≤ n := by
    rw [UInt64.le_iff_toNat_le,UInt64.toNat_ofNat',Nat.mod_eq_of_lt (by omega),UInt32.toNat_toUInt64]
  simp only [mpackReadString,ok_bind,ok_mpackReadBegin,ok_cmpRead,ok_cmpStreamRead,readStringInto,
    StringAllocator.grant,fixedValidator,hfits]
  constructor
  · rintro ⟨_,_,⟨-,rfl⟩,len,_,⟨r,hr,rfl⟩,store,_,halloc,d,_,⟨hlen,rfl,rfl⟩,hstore⟩
    cases hread.symm.trans hr
    split_ifs at halloc with hle
    · obtain ⟨rfl,rfl⟩ := ok_pure.1 halloc
      dsimp only at hstore
      split_ifs at hstore with hroom
      · obtain ⟨rfl,rfl⟩ := ok_pure.1 hstore
        refine ⟨(len32 + 1).toUInt64,rest.take len32.toNat,?_,by simpa using hroom,rfl,rfl⟩
        rw [if_pos hle]
        exact (if_neg fun h => h rfl).trans (if_pos hlen)
      · exact absurd hstore ok_throw
    · exact absurd halloc ok_throw
  · rintro ⟨granted,content,hdone,hroom,rfl,rfl⟩
    by_cases hle : (len32 + 1).toNat ≤ n
    · rw [if_pos hle] at hdone
      dsimp only at hdone
      rw [if_neg (fun h => h rfl)] at hdone
      split_ifs at hdone with hlen
      cases hdone
      refine ⟨(),_,⟨hindex,rfl⟩,len32,_,⟨rest,hread,rfl⟩,_,_,by rw [if_pos hle]; exact ok_pure.2 ⟨rfl,rfl⟩,_,_,
        ⟨hlen,rfl,rfl⟩,?_⟩
      rw [if_pos (by simpa using hroom)]
      rfl
    · rw [if_neg hle] at hdone
      cases hdone

end EdgeProxy.Codec
