import EdgeProxy.Client.Serializer
import EdgeProxy.Codec.Wire

/-! # What the client reads from native bytes

The client's reader on the items that the native encoder writes. A signed number loses bit 4 when its header is one
byte, and all but 16 bits when it is read as an `int`; content of 2 GiB or more is rejected.
-/
namespace EdgeProxy.Client

open Lib Lib.MessagePack List Item UInt8
open Codec (obj bin str int32 uint32 uint16 uint8 castLength truncate32)

variable {α β : Type}

lemma consumes_readBytes (d : Bytes) (st : ReaderState) : Consumes (readBytes d.length) d st d st := by
  intro rest
  have hle : d.length ≤ (d ++ rest).length := by simp
  have hrun : (readBytes d.length).run ⟨d ++ rest,st⟩ =
      .ok ((d ++ rest).take d.length,⟨(d ++ rest).drop d.length,st⟩) := by
    change (if d.length ≤ (d ++ rest).length then _ else _ : Read Bytes).run _ = _
    rw [if_pos hle]
    rfl
  rw [Ok,hrun,take_left,drop_left]
def Shows (b : Bytes) (type : Types) (value : UInt64) (little : Bool := true) : Prop :=
  ∀ st : ReaderState, Consumes (readHeader little) b st () { st with type,value }
lemma consumes_setHeader (type : Types) (value : UInt64) (st : ReaderState) :
    Consumes (setHeader type value) [] st () { st with type,value } := by
  intro rest
  rfl

variable {type : Types} {n : ℕ} {little : Bool}

lemma shows_byte {b value} (h : readAfter b little = setHeader type value) :
    Shows (ordered little [b]) type value little := by
  have hb : ordered little [b] = [b] := by cases little <;> rfl
  rw [hb]
  intro st
  change Consumes (readAfter b little) [] st () _
  rw [h]
  exact consumes_setHeader type value st
lemma readValue_of_width (h : type.width ≠ 0) : readValue type little = (do
      let _ ← getHeader
      let b ← readBytes type.width
      setHeader type (.ofNat (unbe (hostOrder little b)))) := by
  cases type <;> first | rfl | exact absurd rfl h
lemma readAfter_tag {b} (h : 0xc0 ≤ b.toNat ∧ b.toNat < 0xe0) :
    readAfter b little = readValue (.ofByte b.toNat) little := by
  simp only [readAfter,le_iff_toNat_le]
  rw [if_neg (by simp; omega),if_neg (by simp; omega),if_neg (by simp; omega),if_neg (by simp; omega),
    if_neg (by simp; omega)]

lemma shows_sized (b : UInt8) (type : Types) {k} (hn : n < 256 ^ k)
    (h : decide ((0xc0 ≤ b.toNat ∧ b.toNat < 0xe0) ∧ Types.ofByte b.toNat = type ∧ type.width = k ∧ k ≠ 0)) :
    Shows (ordered little (b :: be k n)) type (.ofNat n) little := by
  obtain ⟨hb,htype,rfl,hk⟩ := of_decide_eq_true h
  intro st
  have horder : ordered little (b :: be type.width n) = b :: hostOrder little (be type.width n) := by
    cases little <;> rfl
  have hback : hostOrder little (hostOrder little (be type.width n)) = be type.width n := by
    cases little <;> simp [hostOrder]
  have hlength : (hostOrder little (be type.width n)).length = type.width := by
    cases little <;> simp [hostOrder,length_be]
  rw [horder]
  change Consumes (readAfter b little) _ st () _
  rw [readAfter_tag hb,htype,readValue_of_width hk]
  refine .bind_nil (a := (st.type,st.value)) (fun rest => rfl) ?_
  have hread := consumes_readBytes (hostOrder little (be type.width n)) st
  have hset := consumes_setHeader type (.ofNat n) st
  rw [hlength] at hread
  nth_rewrite 1 [← unbe_be type.width n hn,← hback] at hset
  rw [← append_nil (hostOrder little (be type.width n))]
  exact hread.bind hset

lemma shows_uint (n : ℕ) (h : n < 2 ^ 64) : ∃ type : Types, type.isUnsigned ∧
    signedValue type (.ofNat n) = (UInt64.ofNat n).toInt64 ∧ Shows (packUint n) type (.ofNat n) := by
  unfold packUint
  split_ifs with h7 h8 h16 h32
  · refine ⟨.positiveFixNum,rfl,rfl,shows_byte ?_⟩
    have hb : ofNat n ≤ 0x7f := le_iff_toNat_le.2 (by simp; omega)
    have hand : (ofNat n &&& 0x7f).toUInt64 = .ofNat n := by
      apply UInt64.toNat_inj.1
      simp
      rw [Nat.and_two_pow_sub_one_eq_mod (n := 7)]
      omega
    rw [readAfter,if_pos hb,hand]
  · exact ⟨.uint8,rfl,rfl,shows_sized 0xcc .uint8 h8 rfl⟩
  · exact ⟨.uint16,rfl,rfl,shows_sized 0xcd .uint16 h16 rfl⟩
  · exact ⟨.uint32,rfl,rfl,shows_sized 0xce .uint32 h32 rfl⟩
  · exact ⟨.uint64,rfl,rfl,shows_sized 0xcf .uint64 h rfl⟩

/-- What the reader sees of a negative number: bit 4 is lost in a header of one byte. -/
def seen (i : ℤ) : ℤ :=
  if -32 ≤ i ∧ i < -16 then i + 16 else i

lemma toInt_toInt64 (x : UInt64) :
    x.toInt64.toInt = if 2 * x.toNat < 2 ^ 64 then (x.toNat : ℤ) else x.toNat - 2 ^ 64 := by
  have h : x.toInt64.toInt = _ := BitVec.toInt_eq_toNat_cond x.toBitVec
  exact_mod_cast h

lemma toInt_or_high {k m} {high : UInt64} {i} (hlo : -2 ^ k ≤ i) (hneg : i < 0)
    (h : decide (high.toNat = 2 ^ k * m ∧ 2 ^ k * m + 2 ^ k = 2 ^ 64 ∧ 2 * 2 ^ k ≤ 2 ^ 64)) :
    (.ofNat (i + 2 ^ k).toNat ||| high).toInt64.toInt = i := by
  obtain ⟨hhigh,hm,hk⟩ := of_decide_eq_true h
  have hn : (i + 2 ^ k).toNat < 2 ^ k := by
    have hcast : ((2 ^ k : ℕ) : ℤ) = 2 ^ k := by push_cast; rfl
    omega
  have hor : (.ofNat (i + 2 ^ k).toNat ||| high).toNat = 2 ^ k * m + (i + 2 ^ k).toNat := by
    rw [UInt64.toNat_or,UInt64.toNat_ofNat',Nat.mod_eq_of_lt (by omega),hhigh,Nat.or_comm]
    exact or_add hn m
  rw [toInt_toInt64,hor]
  push_cast
  have hm' : (2 : ℤ) ^ k * m + 2 ^ k = 2 ^ 64 := by exact_mod_cast hm
  omega

lemma shows_neg (i : ℤ) (hlo : -2 ^ 63 ≤ i) (hneg : i < 0) : ∃ (type : Types) (value : UInt64),
    type.isSigned ∧ type.isUnsigned = false ∧ (signedValue type value).toInt = seen i ∧
      Shows (packNeg i) type value := by
  unfold packNeg
  split_ifs
  · have hall : ∀ n : Fin 32,
        (signedValue .negativeFixNum (negativeFixNumValue (.ofNat (224 + n.1)))).toInt = seen (n.1 - 32) := by
      decide +kernel
    have hseen := hall ⟨(i + 32).toNat,by omega⟩
    have hb : 224 + (i + 32).toNat = (i + 2 ^ 8).toNat := by omega
    have hi : ((i + 32).toNat) - 32 = i := by omega
    rw [hb,hi] at hseen
    refine ⟨_,_,rfl,rfl,hseen,shows_byte ?_⟩
    rw [readAfter,if_neg fun h => absurd (le_iff_toNat_le.1 h) (by simp; omega),
      if_pos (le_iff_toNat_le.2 (by simp; omega))]
  all_goals have hseen : seen i = i := if_neg (by omega)
  all_goals rw [hseen]
  · exact ⟨.int8,_,rfl,rfl,toInt_or_high (m := 2 ^ 56 - 1) (by omega) hneg rfl,shows_sized 0xd0 .int8 (by omega) rfl⟩
  · exact ⟨.int16,_,rfl,rfl,toInt_or_high (m := 2 ^ 48 - 1) (by omega) hneg rfl,shows_sized 0xd1 .int16 (by omega) rfl⟩
  · exact ⟨.int32,_,rfl,rfl,toInt_or_high (m := 2 ^ 32 - 1) (by omega) hneg rfl,shows_sized 0xd2 .int32 (by omega) rfl⟩
  · have hshows : Shows (0xd3 :: be 8 (i + 2 ^ 64).toNat) .int64 (.ofNat _) := shows_sized 0xd3 .int64 (by omega) rfl
    refine ⟨.int64,_,rfl,rfl,?_,hshows⟩
    change (UInt64.ofNat (i + 2 ^ 64).toNat).toInt64.toInt = i
    rw [toInt_toInt64,UInt64.toNat_ofNat']
    omega

lemma shows_bool (v : Bool) : ∃ type : Types, type.isBoolean ∧
    Shows [if v then 0xc3 else 0xc2] type (if v then 1 else 0) := by
  cases v
  · exact ⟨.false,rfl,fun st rest => rfl⟩
  · exact ⟨.true,rfl,fun st rest => rfl⟩
lemma shows_bin (n : ℕ) (h : n < 2 ^ 32) (little : Bool := true) : ∃ type : Types, type.isBin ∧
    Shows (ordered little (packBin n)) type (.ofNat n) little := by
  unfold packBin
  split_ifs with h8 h16
  · exact ⟨.bin8,rfl,shows_sized 0xc4 .bin8 h8 rfl⟩
  · exact ⟨.bin16,rfl,shows_sized 0xc5 .bin16 h16 rfl⟩
  · exact ⟨.bin32,rfl,shows_sized 0xc6 .bin32 h rfl⟩

lemma shows_str (n : ℕ) (h : n < 2 ^ 32) (little : Bool := true) : ∃ type : Types, type.isStr ∧
    Shows (ordered little (packStr n)) type (.ofNat n) little := by
  unfold packStr
  split_ifs with h5 h8 h16
  · have hall : ∀ n : Fin 32, let b := ofNat (0xa0 + n.1)
        ¬b ≤ 0x7f ∧ ¬0xe0 ≤ b ∧ (0xa0 ≤ b ∧ b ≤ 0xbf) ∧ (b &&& 0x1f).toUInt64 = .ofNat n.1 := by decide +kernel
    obtain ⟨h1,h2,h3,hvalue⟩ := hall ⟨n,h5⟩
    refine ⟨.fixStr,rfl,shows_byte ?_⟩
    rw [readAfter,if_neg h1,if_neg h2,if_pos h3,hvalue]
  · exact ⟨.str8,rfl,shows_sized 0xd9 .str8 h8 rfl⟩
  · exact ⟨.str16,rfl,shows_sized 0xda .str16 h16 rfl⟩
  · exact ⟨.str32,rfl,shows_sized 0xdb .str32 h rfl⟩

lemma shows_array (n : ℕ) (h : n < 2 ^ 32) (little : Bool := true) : ∃ type : Types, type.isArray ∧
    Shows (ordered little (packArray n)) type (.ofNat n) little := by
  unfold packArray
  split_ifs with h4 h16
  · have hall : ∀ n : Fin 16, let b := ofNat (0x90 + n.1)
        ¬b ≤ 0x7f ∧ ¬0xe0 ≤ b ∧ ¬(0xa0 ≤ b ∧ b ≤ 0xbf) ∧ (0x90 ≤ b ∧ b ≤ 0x9f) ∧
        (b &&& 0xf).toUInt64 = .ofNat n.1 := by decide +kernel
    obtain ⟨h1,h2,h3,h4,hvalue⟩ := hall ⟨n,h4⟩
    refine ⟨.fixArray,rfl,shows_byte ?_⟩
    rw [readAfter,if_neg h1,if_neg h2,if_neg h3,if_pos h4,hvalue]
  · exact ⟨.array16,rfl,shows_sized 0xdc .array16 h16 rfl⟩
  · exact ⟨.array32,rfl,shows_sized 0xdd .array32 h rfl⟩

lemma consumes_nil (little : Bool) (st : ReaderState) :
    Consumes (readHeader little) [0xc0] st () { st with type := .nil } := by
  intro rest
  rfl
def Takes (m : Read α) (items : List Item) (a : α) : Prop :=
  ∀ st : ReaderState, st.strict → ∃ st', st'.strict ∧ Consumes m (Item.serList format items) st a st'
def Rejects (m : Read α) (items : List Item) : Prop :=
  ∀ st : ReaderState, st.strict → ∀ rest a t, ¬Ok m ⟨Item.serList format items ++ rest,st⟩ a t

variable {m : Read α} {f : α → Read β} {i : Item} {is js : List Item} {a : α} {b : β}

lemma takes_pure (a : α) : Takes (pure a) [] a := by
  intro st hst
  exact ⟨st,hst,consumes_pure a st⟩
lemma Takes.bind (h : Takes m is a) (h' : Takes (f a) js b) : Takes (m >>= f) (is ++ js) b := by
  intro st hst
  obtain ⟨st₁,hst₁,hm⟩ := h st hst
  obtain ⟨st₂,hst₂,hf⟩ := h' st₁ hst₁
  refine ⟨st₂,hst₂,?_⟩
  rw [serList_append]
  exact hm.bind hf

lemma Takes.item (h : Takes m [i] a) (h' : Takes (f a) js b) : Takes (m >>= f) (i :: js) b :=
  h.bind h'
lemma Takes.map {g : α → β} (h : Takes m is a) : Takes (m >>= fun a => pure (g a)) is (g a) := by
  have hmap := h.bind (f := fun a => pure (g a)) (takes_pure (g a))
  rwa [append_nil] at hmap

lemma Takes.item_rejects (h : Takes m [i] a) (h' : Rejects (f a) js) : Rejects (m >>= f) (i :: js) := by
  intro st hst rest b t hok
  obtain ⟨st₁,hst₁,hm⟩ := h st hst
  have hser : serList format (i :: js) ++ rest = serList format [i] ++ (serList format js ++ rest) := by
    simp
  rw [hser] at hok
  exact h' st₁ hst₁ rest b t (hm.ok_bind.1 hok)
lemma Rejects.bind (h : Rejects m [i]) : Rejects (m >>= f) (i :: js) := by
  intro st hst rest b t hok
  obtain ⟨a,u,hok₁,-⟩ := ok_bind.1 hok
  refine h st hst (serList format js ++ rest) a u ?_
  simpa using hok₁

lemma rejects_throw (e : Fault) : Rejects (throw e : Read α) is := by
  intro st hst rest a t hok
  exact absurd hok ok_throw
def TakesIf (p : Prop) (m : Read α) (items : List Item) (a : α) : Prop :=
  (p → Takes m items a) ∧ (¬p → Rejects m items)

variable {p q : Prop}

lemma Takes.takesIf (h : Takes m is a) : TakesIf True m is a :=
  ⟨fun _ => h,fun hp => absurd trivial hp⟩
lemma Takes.item_if (h : Takes m [i] a) (h' : TakesIf p (f a) js b) : TakesIf p (m >>= f) (i :: js) b :=
  ⟨fun hp => h.item (h'.1 hp),fun hp => h.item_rejects (h'.2 hp)⟩
lemma TakesIf.bind (h : TakesIf p m [i] a) (h' : Takes (f a) js b) : TakesIf p (m >>= f) (i :: js) b :=
  ⟨fun hp => (h.1 hp).item h',fun hp => (h.2 hp).bind⟩
lemma TakesIf.congr (h : TakesIf p m is a) (hpq : p ↔ q) : TakesIf q m is a :=
  ⟨fun hq => h.1 (hpq.2 hq),fun hq => h.2 fun hp => hq (hpq.1 hp)⟩

lemma TakesIf.item (h : TakesIf p m [i] a) (h' : p → TakesIf q (f a) js b) : TakesIf (p ∧ q) (m >>= f) (i :: js) b := by
  refine ⟨fun hpq => (h.1 hpq.1).item ((h' hpq.1).1 hpq.2),fun hpq => ?_⟩
  by_cases hp : p
  · exact (h.1 hp).item_rejects ((h' hp).2 fun hq => hpq ⟨hp,hq⟩)
  · exact (h.2 hp).bind

variable {accept : Types → Bool} {type : Types} {value : UInt64}

lemma Shows.readTyped {b little} (h : Shows b type value little) (haccept : accept type)
    (st : ReaderState) : Consumes (readTyped accept little) b st (type,value) { st with type,value } := by
  rw [← append_nil b]
  refine (h st).bind ?_
  intro rest
  change Ok (if accept type then pure (type,value) else throw .format : Read _) _ _ _
  rw [if_pos haccept]
  exact ok_pure.2 ⟨rfl,rfl⟩
lemma takes_header {f} (hshows : Shows (i.ser format) type value) (haccept : accept type)
    (h : ∀ st, Consumes (f (type,value)) [] st a st) : Takes (readTyped accept >>= f) [i] a := by
  intro st hst
  refine ⟨{ st with type,value },hst,?_⟩
  exact (hshows.readTyped haccept st).bind (h _)
lemma shows_uintItem (v : UInt64) : ∃ type : Types, type.isUnsigned ∧
    signedValue type v = v.toInt64 ∧ Shows ((uint v).ser format) type v := by
  obtain ⟨type,hunsigned,hsigned,hshows⟩ := shows_uint v.toNat v.toNat_lt
  rw [UInt64.ofNat_toNat] at hsigned hshows
  refine ⟨type,hunsigned,hsigned,?_⟩
  exact hshows
lemma takes_uint64 (v : UInt64) : Takes readUInt64 [.uint v] v := by
  obtain ⟨type,hunsigned,-,hshows⟩ := shows_uintItem v
  exact takes_header hshows hunsigned fun st => consumes_pure v st
lemma takes_unsigned {max v} {g : UInt64 → β} (hg : g v = b) (h : v.toNat ≤ max.toNat) :
    Takes (readUnsigned max >>= fun a => pure (g a)) [.uint v] b := by
  subst hg
  obtain ⟨type,hunsigned,-,hshows⟩ := shows_uintItem v
  refine (takes_header hshows hunsigned fun st => ?_).map
  rw [if_neg (UInt64.not_lt.2 h)]
  exact consumes_pure v st
lemma rejects_unsigned {max v} (h : max < v) : Rejects (readUnsigned max) [.uint v] := by
  obtain ⟨type,hunsigned,-,hshows⟩ := shows_uintItem v
  have hheader : Takes (readTyped Types.isUnsigned) [.uint v] (type,v) := by
    intro st hst
    exact ⟨{ st with type,value := v },hst,by simpa using hshows.readTyped hunsigned st⟩
  refine hheader.item_rejects ?_
  rw [if_pos h]
  exact rejects_throw .format
lemma takes_uint8 (v : UInt8) : Takes readUInt8 [uint8 v] v := by
  have hlt := v.toNat_lt
  exact takes_unsigned (toUInt8_toUInt64 v) (by simp; omega)
lemma takes_uint16 (v : UInt16) : Takes readUInt16 [uint16 v] v := by
  have hlt := v.toNat_lt
  exact takes_unsigned (UInt16.toUInt16_toUInt64 v) (by simp; omega)
lemma takes_uint32 (v : UInt32) : Takes readUInt32 [uint32 v] v := by
  have hlt := v.toNat_lt
  exact takes_unsigned (UInt32.toUInt32_toUInt64 v) (by simp; omega)
lemma takes_uint32As16 {v : UInt32} (h : v.toNat < 2 ^ 16) : Takes readUInt16 [uint32 v] v.toUInt16 :=
  takes_unsigned (UInt32.toUInt16_toUInt64 v) (by simp; omega)
lemma takesIf_uint32As16 (v : UInt32) : TakesIf (v.toNat < 2 ^ 16) readUInt16 [uint32 v] v.toUInt16 := by
  refine ⟨takes_uint32As16,fun h => ?_⟩
  have hlt : 0xffff < v.toUInt64 := UInt64.lt_iff_toNat_lt.2 (by simp; omega)
  exact (rejects_unsigned hlt).bind
lemma takes_bool (v : Bool) : Takes readBool [.bool v] v := by
  obtain ⟨type,hboolean,hshows⟩ := shows_bool v
  have hitem : Shows ((bool v).ser format) type (if v then 1 else 0) := by
    exact hshows
  refine takes_header hitem hboolean fun st => ?_
  cases v <;> exact consumes_pure _ st

/-- What the reader makes of a number as a signed one: from 2 ^ 63 on, it is taken for a negative number. -/
def heard (x : ℤ) : ℤ :=
  if x < 0x8000000000000000 then seen x else x - 0x10000000000000000

lemma Shows.readSigned {b value} (h : Shows b type value) (htype : (type.isSigned || type.isUnsigned))
    (st : ReaderState) : Consumes readSigned b st (signedValue type value) { st with type,value } := by
  have hread : Consumes Client.readSigned (b ++ []) st _ _ := (h.readTyped htype st).bind (consumes_pure _ _)
  rwa [append_nil] at hread
lemma consumes_readSigned {x} (hlo : -0x8000000000000000 ≤ x) (hhi : x < 0x10000000000000000) (st : ReaderState) :
    ∃ s type value, s.toInt = heard x ∧ Consumes readSigned (packInt x) st s { st with type,value } := by
  rw [packInt]
  split_ifs
  · obtain ⟨type,hunsigned,hsigned,hshows⟩ := shows_uint x.toNat (by omega)
    refine ⟨_,_,_,?_,hshows.readSigned (by simp [hunsigned]) st⟩
    rw [hsigned,toInt_toInt64,heard,seen]
    simp
    split_ifs <;> omega
  · obtain ⟨type,value,hsigned,-,hvalue,hshows⟩ := shows_neg x hlo (by omega)
    refine ⟨_,_,_,?_,hshows.readSigned (by simp [hsigned]) st⟩
    rw [hvalue,heard,if_pos (by omega)]
lemma takes_signed (v : Int32) : Takes readSigned [int32 v] (.ofInt (seen v.toInt)) := by
  intro st hst
  have hlo := v.le_toInt
  have hhi := v.toInt_lt
  obtain ⟨s,type,value,hs,hread⟩ := consumes_readSigned (x := v.toInt) (by omega) (by omega) st
  have hser : serList format [int32 v] = packInt v.toInt := by
    rw [serList_singleton]
    change packInt v.toInt64.toInt = _
    rw [Int32.toInt_toInt64]
  rw [heard,if_pos (by omega)] at hs
  rw [hser,← hs,Int64.ofInt_toInt]
  exact ⟨{ st with type,value },hst,hread⟩

def asInt32 (v : Int32) : Int32 :=
  .ofInt ((seen v.toInt).bmod (2 ^ 16))
def asEnum (v : Int32) : Int32 :=
  .ofInt (seen v.toInt)

lemma seen_range {v : Int32} : -2 ^ 31 ≤ seen v.toInt ∧ seen v.toInt < 2 ^ 31 := by
  have hlo := v.le_toInt
  have hhi := v.toInt_lt
  unfold seen
  split_ifs <;> omega

lemma takes_int32 (v : Int32) : Takes readInt32 [int32 v] (asInt32 v) := by
  obtain ⟨hlo,hhi⟩ := seen_range (v := v)
  have hseen : (Int64.ofInt (seen v.toInt)).toInt = seen v.toInt :=
    Int64.toInt_ofInt_of_le (by omega) (by omega)
  refine .item (takes_signed v) ?_
  generalize Int64.ofInt (seen v.toInt) = s at hseen ⊢
  have hshort : s.toInt16.toInt64.toInt = (seen v.toInt).bmod (2 ^ 16) := by
    rw [Int16.toInt_toInt64,Int64.toInt_toInt16,hseen]
  have hrange : ¬(s.toInt16.toInt64 < Int16.minValue.toInt64 ∨ Int16.maxValue.toInt64 < s.toInt16.toInt64) := by
    have hle := s.toInt16.le_toInt
    have hlt := s.toInt16.toInt_lt
    have hmin : Int16.minValue.toInt = -2 ^ 15 := rfl
    have hmax : Int16.maxValue.toInt = 2 ^ 15 - 1 := rfl
    rw [Int64.lt_iff_toInt_lt,Int64.lt_iff_toInt_lt,Int16.toInt_toInt64,Int16.toInt_toInt64,Int16.toInt_toInt64]
    omega
  have hcast : s.toInt16.toInt64.toInt32 = asInt32 v := by
    apply Int32.toInt_inj.1
    rw [Int64.toInt_toInt32,hshort,asInt32,Int32.toInt_ofInt]
  rw [if_neg hrange,hcast]
  exact takes_pure _

lemma takes_enum (v : Int32) : Takes readEnum [int32 v] (asEnum v) := by
  obtain ⟨hlo,hhi⟩ := seen_range (v := v)
  have hcast : (Int64.ofInt (seen v.toInt)).toInt32 = asEnum v := by
    apply Int32.toInt_inj.1
    rw [Int64.toInt_toInt32,Int64.toInt_ofInt_of_le (by omega) (by omega),asEnum,Int32.toInt_ofInt]
  have htakes := (takes_signed v).map (g := Int64.toInt32)
  rwa [hcast] at htakes
lemma takes_int64 (v : UInt64) : Takes readInt64 [.uint v] v.toInt64 := by
  obtain ⟨type,hunsigned,hsigned,hshows⟩ := shows_uintItem v
  refine takes_header hshows (by simp [hunsigned]) fun st => ?_
  rw [hsigned]
  exact consumes_pure _ st
lemma takes_propertyType {v} (h : 0 ≤ v.toInt) : Takes readUInt32 [int32 v] v.toUInt32 := by
  have hbits : v.toUInt32.toNat = _ := toNat_bits v.toBitVec
  change _ = if 0 ≤ v.toInt then v.toInt.toNat else (v.toInt + 2 ^ 32).toNat at hbits
  rw [if_pos h] at hbits
  have hitem : serList format [int32 v] = serList format [uint32 v.toUInt32] := by
    simp only [serList_cons,serList_nil,append_nil]
    change packInt v.toInt64.toInt = packUint v.toUInt32.toUInt64.toNat
    rw [Int32.toInt_toInt64,packInt,if_pos h,UInt32.toNat_toUInt64,hbits]
  intro st hst
  obtain ⟨st',hst',hcons⟩ := takes_uint32 v.toUInt32 st hst
  rw [← hitem] at hcons
  exact ⟨st',hst',hcons⟩
lemma toInt_length (h : n < 2 ^ 32) :
    (UInt64.ofNat n).toUInt32.toInt32.toInt = if n < 2 ^ 31 then (n : ℤ) else n - 2 ^ 32 := by
  have hnat : (UInt64.ofNat n).toUInt32.toNat = n := by
    rw [UInt64.toNat_toUInt32,UInt64.toNat_ofNat']
    omega
  have hcond : (UInt64.ofNat n).toUInt32.toInt32.toInt = _ :=
    BitVec.toInt_eq_toNat_cond (UInt64.ofNat n).toUInt32.toBitVec
  rw [UInt32.toNat_toBitVec] at hcond
  split_ifs <;> first | rfl | omega
lemma consumes_content (e : Fault) {d} (h : d.length < 2 ^ 31) (st : ReaderState) :
    Consumes (readContent e (UInt64.ofNat d.length).toUInt32.toInt32) d st d st := by
  have hlen := toInt_length (n := d.length) (by omega)
  rw [if_pos h] at hlen
  have hpos : ¬(UInt64.ofNat d.length).toUInt32.toInt32 < 0 := fun hlt => by
    have hneg := Int32.lt_iff_toInt_lt.1 hlt
    rw [Int32.toInt_zero] at hneg
    omega
  rw [readContent,if_neg hpos,hlen]
  exact consumes_readBytes d st
lemma readContent_long (e : Fault) (h : n < 2 ^ 32) (hlong : ¬n < 2 ^ 31) :
    readContent e (UInt64.ofNat n).toUInt32.toInt32 = throw e := by
  have hlen := toInt_length h
  refine if_pos (Int32.lt_iff_toInt_lt.2 ?_)
  rw [Int32.toInt_zero]
  omega

variable {d : Bytes}

lemma ser_bin : (bin d).ser format = packBin (castLength d).length ++ castLength d := by
  change packBin (truncate32 d).size.toNat ++ _ = _
  rw [Blob.size_toNat]
  rfl
lemma ser_str : (str d).ser format = packStr (castLength d).length ++ castLength d := by
  change packStr (truncate32 d).size.toNat ++ _ = _
  rw [Blob.size_toNat]
  rfl

/-- Content after a header with its length. -/
theorem takesIf_sized {accept f i head type} {a : α}
    (hser : i.ser format = head ++ castLength d) (hshows : Shows head type (.ofNat (castLength d).length))
    (haccept : accept type)
    (hshort : (castLength d).length < 2 ^ 31 →
      ∀ st, Consumes (f (type,.ofNat (castLength d).length)) (castLength d) st a st)
    (hlong : ¬(castLength d).length < 2 ^ 31 → ∀ s b t, ¬Ok (f (type,.ofNat (castLength d).length)) s b t) :
    TakesIf ((castLength d).length < 2 ^ 31) (readTyped accept >>= f) [i] a := by
  have hitem : serList format [i] = head ++ castLength d := by
    rw [serList_singleton,hser]
  constructor
  · intro h st hst
    refine ⟨{ st with type,value := .ofNat (castLength d).length },hst,?_⟩
    rw [hitem]
    exact (hshows.readTyped haccept st).bind (hshort h _)
  · intro h st hst rest b t hok
    rw [hitem,append_assoc] at hok
    exact hlong h _ _ _ ((hshows.readTyped haccept st).ok_bind.1 hok)

lemma takesIf_bin : TakesIf ((castLength d).length < 2 ^ 31) readBin [bin d] (castLength d) := by
  have hlt := Codec.length_castLength_lt d
  obtain ⟨type,hbin,hshows⟩ := shows_bin (castLength d).length hlt
  refine takesIf_sized ser_bin hshows hbin (consumes_content .overflow) fun h _ _ _ => ?_
  rw [readContent_long .overflow hlt h]
  exact ok_throw
lemma ofNat_ne_zero {n} (h : n < 2 ^ 32) (hn : n ≠ 0) : UInt64.ofNat n ≠ 0 := by
  intro hzero
  have hnat := congrArg UInt64.toNat hzero
  rw [UInt64.toNat_ofNat',Nat.mod_eq_of_lt (by omega)] at hnat
  exact hn hnat
lemma consumes_text (enc : Encoding) {d} (h : d.length < 2 ^ 31) (st : ReaderState) :
    Consumes (if UInt64.ofNat d.length = 0 then pure "" else do
      let b ← readContent .argument (UInt64.ofNat d.length).toUInt32.toInt32
      pure (enc.getString b)) d st (enc.getString d) st := by
  by_cases hd : d = []
  · have hempty : enc.getString [] = "" := enc.getString_utf8 ""
    rw [hd,hempty]
    exact consumes_pure "" _
  · rw [if_neg (ofNat_ne_zero (by omega) (by simpa using hd))]
    have hread := (consumes_content .argument h st).bind (f := fun b => pure (enc.getString b))
      (consumes_pure (enc.getString d) _)
    rwa [append_nil] at hread
lemma takesIf_str (enc : Encoding) :
    TakesIf ((castLength d).length < 2 ^ 31) (readString enc) [str d] (enc.getString (castLength d)) := by
  have hlt := Codec.length_castLength_lt d
  obtain ⟨type,hstr,hshows⟩ := shows_str (castLength d).length hlt
  refine takesIf_sized ser_str hshows hstr (consumes_text enc) fun h _ _ _ => ?_
  rw [if_neg (ofNat_ne_zero hlt (by omega)),readContent_long .argument hlt h]
  intro hok
  obtain ⟨_,_,hthrow,-⟩ := ok_bind.1 hok
  exact absurd hthrow ok_throw
lemma consumes_getHeader (st : ReaderState) : Consumes getHeader [] st (st.type,st.value) st := by
  intro rest
  rfl

lemma consumes_findObjectHeader (strict little : Bool) (n : ℕ) {k} (hk : k + 1 < 2 ^ 31) (st : ReaderState) :
    Consumes (findObjectHeader strict (n + 1) little) (ordered little (packArray (k + 1)) ++ [0xc0]) st
      (.ofNat k) { st with type := .nil,value := .ofNat (k + 1) } := by
  obtain ⟨type,harray,hshows⟩ := shows_array (k + 1) (by omega) little
  have hlen := toInt_length (n := k + 1) (by omega)
  have hfields : ¬(¬type.isArray ∨ (UInt64.ofNat (k + 1)).toUInt32.toInt32 = 0) := by
    rintro (h | h)
    · exact h harray
    · rw [h,Int32.toInt_zero] at hlen
      omega
  have hcount : (UInt64.ofNat (k + 1)).toUInt32.toInt32 - 1 = .ofNat k := by
    apply Int32.toInt_inj.1
    rw [Int32.toInt_sub,Int32.toInt_ofNat']
    congr 1
    push_cast
    omega
  refine (hshows st).bind ((consumes_getHeader _).bind_nil ?_)
  rw [if_neg hfields]
  refine (consumes_nil _ _).bind ((consumes_getHeader _).bind_nil ?_)
  rw [hcount]
  exact consumes_pure _ _

lemma consumes_objectHeader {k} (hk : k + 1 < 2 ^ 31) (st : ReaderState) (little : Bool := true) :
    Consumes (readObjectHeader little) (ordered little (packArray (k + 1)) ++ [0xc0]) st (.ofNat k)
      ⟨true,.nil,.ofNat (k + 1)⟩ := by
  intro rest
  refine ok_bind.2 ⟨_,_,ok_get.2 ⟨rfl,rfl⟩,ok_bind.2 ⟨_,_,consumes_findObjectHeader st.strict little _ hk st rest,?_⟩⟩
  exact ok_bind.2 ⟨(),_,ok_modify.2 rfl,ok_pure.2 ⟨rfl,rfl⟩⟩
lemma ser_obj {is} (h : is.length + 1 < 2 ^ 31) :
    (obj is).ser format = packArray (is.length + 1) ++ [0xc0] ++ serList format is := by
  change packArray (UInt32.ofNat (is.length + 1)).toNat ++ (ser format .nil ++ _) = _
  rw [UInt32.toNat_ofNat',Nat.mod_eq_of_lt (by omega),append_assoc]
  rfl

variable {f : Int32 → Read α} {is : List Item} {a : α}

lemma consumes_object (hlen : is.length + 1 < 2 ^ 31) (h : Takes (f (.ofNat is.length)) is a) (st : ReaderState) :
    ∃ st', st'.strict ∧ Consumes (readObjectHeader >>= f) ((obj is).ser format) st a st' := by
  obtain ⟨st',hst',hf⟩ := h ⟨true,.nil,.ofNat (is.length + 1)⟩ rfl
  refine ⟨st',hst',?_⟩
  rw [ser_obj hlen]
  exact (consumes_objectHeader hlen st).bind hf
lemma not_ok_object (hlen : is.length + 1 < 2 ^ 31) (h : Rejects (f (.ofNat is.length)) is) (st : ReaderState)
    (rest : Bytes) (a : α) (t : Source UInt8 ReaderState) :
    ¬Ok (readObjectHeader >>= f) ⟨(obj is).ser format ++ rest,st⟩ a t := by
  rw [ser_obj hlen,append_assoc]
  exact fun hok => h _ rfl rest a t ((consumes_objectHeader hlen st).ok_bind.1 hok)

variable {p : Prop} {k : ℕ}

lemma takesIf_object (hk : is.length = k) (hlen : decide (k + 1 < 2 ^ 31)) (h : TakesIf p (f (.ofNat k)) is a) :
    TakesIf p (readObjectHeader >>= f) [obj is] a := by
  subst hk
  have hlen := of_decide_eq_true hlen
  refine ⟨fun hp st _ => ?_,fun hp st _ => ?_⟩
  · rw [serList_singleton]
    exact consumes_object hlen (h.1 hp) st
  · rw [serList_singleton]
    exact not_ok_object hlen (h.2 hp) st
lemma takes_object (hk : is.length = k) (hlen : decide (k + 1 < 2 ^ 31)) (h : Takes (f (.ofNat k)) is a) :
    Takes (readObjectHeader >>= f) [obj is] a :=
  (takesIf_object hk hlen h.takesIf).1 trivial
lemma takesIf_members (hk : is.length = k) (hlen : decide (k + 1 < 2 ^ 31)) (h : TakesIf p (f (.ofNat k)) is a) :
    TakesIf p (readMembers (.ofNat k) >>= f) [obj is] a := by
  rw [readMembers,bind_assoc]
  refine takesIf_object hk hlen ?_
  rw [if_neg Int32.lt_irrefl]
  exact h
lemma takes_members (hk : is.length = k) (hlen : decide (k + 1 < 2 ^ 31)) (h : Takes (f (.ofNat k)) is a) :
    Takes (readMembers (.ofNat k) >>= f) [obj is] a :=
  (takesIf_members hk hlen h.takesIf).1 trivial
lemma takes_nil : Takes readHeader [.nil] () := by
  intro st hst
  refine ⟨{ st with type := .nil },hst,?_⟩
  exact consumes_nil true st

lemma takes_array {f items} (hlen : items.length < 2 ^ 31)
    (h : Takes (f (.ofNat items.length)) items a) : Takes (readArrayLength >>= f) [.arr items] a := by
  obtain ⟨type,harray,hshows⟩ := shows_array items.length (by omega)
  have hcast : (UInt64.ofNat items.length).toUInt32.toInt32 = .ofNat items.length := by
    apply Int32.toInt_inj.1
    have hle := toInt_length (n := items.length) (by omega)
    rw [if_pos hlen] at hle
    rw [hle,Int32.toInt_ofNat']
    exact (bmod_of_small (w := 32) (by decide) (by omega) (by omega)).symm
  intro st hst
  obtain ⟨st',hst',hf⟩ := h { st with type,value := .ofNat items.length } hst
  refine ⟨st',hst',?_⟩
  have hheader := (hshows.readTyped harray st).bind (f := fun header => pure header.2.toUInt32.toInt32)
    (consumes_pure _ _)
  rw [append_nil,hcast] at hheader
  rw [serList_singleton]
  change Consumes _ (packArray (UInt32.ofNat items.length).toNat ++ _) _ _ _
  rw [UInt32.toNat_ofNat',Nat.mod_eq_of_lt (by omega)]
  exact hheader.bind hf

end EdgeProxy.Client
