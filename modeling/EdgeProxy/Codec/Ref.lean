import EdgeProxy.Codec.Interface

/-! # References and byte arrays as text

The functions of `io_ref.c` and `util_string.c` by which the JSON codec writes a reference as a uuid and reads it back,
and those for bytes as base16, whose buffer is the caller's or allocated.
-/
namespace EdgeProxy.Codec

open Base List

def hexDigit (c : UInt8) : UInt8 :=
  if c < 10 then 0x30 + c else 0x61 + c - 10
def digitValue (c : UInt8) : Option UInt8 :=
  if 0x30 ≤ c ∧ c ≤ 0x39 then some (c - 0x30)
  else if 0x61 ≤ c ∧ c ≤ 0x66 then some (10 + (c - 0x61))
  else if 0x41 ≤ c ∧ c ≤ 0x46 then some (10 + (c - 0x41))
  else none

def byteToString (b : UInt8) : Bytes :=
  [hexDigit ((b &&& 0xf0) >>> 4),hexDigit (b &&& 0x0f)]
def stringFromBuf (buf : Bytes) (swap : Bool) : Bytes :=
  (if swap then buf.reverse else buf).flatMap byteToString

def stringToBytes : ℕ → Bytes → Except PrxError Bytes
  | 0, _ => .ok []
  | n + 1, high :: low :: string =>
    match digitValue high, digitValue low with
    | some h, some l => do
      let buf ← stringToBytes n string
      pure ((h <<< 4 ||| l) :: buf)
    | _, _ => .error .invalidFormat
  | _, _ => .error .invalidFormat

def stringToBuf (string : Bytes) (len : ℕ) (swap : Bool) : Except PrxError Bytes := do
  let buf ← stringToBytes len string
  pure (if swap then buf.reverse else buf)
def uuidPrintableStringLength : ℕ := 37
def uuidGroups : List (ℕ × Bool) := [(4,true),(2,true),(2,true),(2,false)]

def stringFromGroups : List (ℕ × Bool) → Bytes → Bytes
  | [], uuid => stringFromBuf (uuid.take 6) false
  | (len,swap) :: groups, uuid =>
    stringFromBuf (uuid.take len) swap ++ 0x2d :: stringFromGroups groups (uuid.drop len)
def stringFromUuid (uuid : Bytes) : Bytes :=
  stringFromGroups uuidGroups uuid
def stringToGroups : List (ℕ × Bool) → Bytes → Except PrxError Bytes
  | [], string => stringToBuf string 6 false
  | (len,swap) :: groups, string => do
    let buf ← stringToBuf string len swap
    match string.drop (2 * len) with
    | 0x2d :: string => do
      let uuid ← stringToGroups groups string
      pure (buf ++ uuid)
    | _ => .error .invalidFormat

def stringToUuid (string : Bytes) : Except PrxError Bytes :=
  if string.length + 1 < uuidPrintableStringLength then .error .arg
  else stringToGroups uuidGroups string
def ioRefToSTRING (ref : IoRef) : Bytes :=
  stringFromUuid ref.u8.toList
def stringTrimBack (string : Bytes) (trim : UInt8) : Bytes :=
  (string.reverse.dropWhile (· = trim)).reverse

/-- What is no uuid is taken for an address. The limit is that of the local copy of the string. -/
def ioRefFromString (palPton : Bytes → Except PrxError SocketAddress) (string : Bytes) (ref : IoRef) :
    Except PrxError IoRef :=
  if string.length ≥ 63 then .error .arg
  else
    let ptr := if string.head? = some 0x7b then (stringTrimBack string 0x7d).drop 1 else string
    match stringToUuid ptr with
    | .ok uuid => .ok { ref with u8 := overlay ref.u8 uuid }
    | .error _ => (palPton ptr).map fun sa => { ref with u8 := sa.ip.in6 }

def readsBack (b : UInt8) : Bool :=
  match digitValue (hexDigit ((b &&& 0xf0) >>> 4)), digitValue (hexDigit (b &&& 0x0f)) with
  | some h, some l => h <<< 4 ||| l = b
  | _, _ => false
lemma readsBack_all (b : UInt8) : readsBack b := by
  have hall : ∀ n : Fin 256, readsBack (.ofNat n) := by decide +kernel
  simpa using hall ⟨b.toNat,b.toNat_lt⟩
lemma stringToBytes_byteToString (b : UInt8) (n : ℕ) (string : Bytes) :
    stringToBytes (n + 1) (byteToString b ++ string) = (stringToBytes n string).map (b :: ·) := by
  have hb := readsBack_all b
  unfold readsBack at hb
  split at hb
  case h_2 => cases hb
  case h_1 h l hhigh hlow =>
    simp only [byteToString,cons_append,stringToBytes,hhigh,hlow,of_decide_eq_true hb]
    rfl
lemma stringToBytes_flatMap (buf string : Bytes) :
    stringToBytes buf.length (buf.flatMap byteToString ++ string) = .ok buf := by
  induction buf with
  | nil => rfl
  | cons b buf ih =>
    rw [flatMap_cons,append_assoc,length_cons,stringToBytes_byteToString,ih]
    rfl
lemma stringToBuf_stringFromBuf (buf : Bytes) (swap : Bool) (string : Bytes) :
    stringToBuf (stringFromBuf buf swap ++ string) buf.length swap = .ok buf := by
  unfold stringToBuf stringFromBuf
  cases swap with
  | false =>
    rw [if_neg Bool.false_ne_true,stringToBytes_flatMap]
    rfl
  | true =>
    rw [if_pos rfl,← length_reverse,stringToBytes_flatMap]
    exact congrArg Except.ok (reverse_reverse buf)

lemma length_stringFromBuf (buf : Bytes) (swap : Bool) : (stringFromBuf buf swap).length = 2 * buf.length := by
  have hflat : ∀ l : Bytes, (l.flatMap byteToString).length = 2 * l.length := by
    intro l
    induction l with
    | nil => rfl
    | cons =>
      rw [flatMap_cons,length_append]
      simp only [byteToString,length_cons,length_nil]
      omega
  cases swap with
  | false => exact hflat buf
  | true =>
    have hreverse := hflat buf.reverse
    rwa [length_reverse] at hreverse

def groupBytes (groups : List (ℕ × Bool)) : ℕ :=
  groups.foldr (fun g n => g.1 + n) 0

lemma stringToGroups_stringFromGroups (groups : List (ℕ × Bool)) (uuid : Bytes)
    (hlen : uuid.length = groupBytes groups + 6) : stringToGroups groups (stringFromGroups groups uuid) = .ok uuid := by
  induction groups generalizing uuid with
  | nil =>
    have h := stringToBuf_stringFromBuf uuid false []
    have hlast : uuid.length = 6 := by exact hlen
    rw [append_nil,hlast] at h
    rwa [stringFromGroups,take_of_length_le (Nat.le_of_eq hlast)]
  | cons g groups ih =>
    obtain ⟨len,swap⟩ := g
    have hsum : uuid.length = len + (groupBytes groups + 6) := by
      rw [hlen]
      simp only [groupBytes,foldr_cons]
      omega
    have htake : (uuid.take len).length = len := length_take_of_le (by omega)
    have hbuf := stringToBuf_stringFromBuf (uuid.take len) swap (0x2d :: stringFromGroups groups (uuid.drop len))
    have hrest := ih (uuid.drop len) (by rw [length_drop]; omega)
    have hdrop :
        (stringFromBuf (uuid.take len) swap ++ 0x2d :: stringFromGroups groups (uuid.drop len)).drop (2 * len) =
        0x2d :: stringFromGroups groups (uuid.drop len) := by
      apply drop_left'
      rw [length_stringFromBuf,htake]
    rw [htake] at hbuf
    simp only [stringToGroups,stringFromGroups,hbuf,hdrop,hrest]
    exact congrArg Except.ok (take_append_drop len uuid)

variable {uuid : Bytes} {c : UInt8}

lemma length_stringFromUuid (hlen : uuid.length = 16) : (stringFromUuid uuid).length = 36 := by
  simp only [stringFromUuid,uuidGroups,stringFromGroups,length_append,length_cons,length_stringFromBuf,
    length_take,length_drop]
  omega
lemma stringToUuid_stringFromUuid (hlen : uuid.length = 16) : stringToUuid (stringFromUuid uuid) = .ok uuid := by
  rw [stringToUuid,length_stringFromUuid hlen]
  exact stringToGroups_stringFromGroups uuidGroups uuid hlen
def uuidChar (c : UInt8) : Bool :=
  c ≠ 0 && c ≠ 0x7b

lemma all_stringFromGroups {p} (hp : ∀ n : Fin 256, (byteToString (.ofNat n)).all p)
    (hdash : p 0x2d) {groups} (h : c ∈ stringFromGroups groups uuid) : p c := by
  have hbuf {buf : Bytes} {swap : Bool} (h : c ∈ stringFromBuf buf swap) : p c := by
    obtain ⟨b,-,hc⟩ := mem_flatMap.1 h
    have hb := hp ⟨b.toNat,b.toNat_lt⟩
    rw [all_eq_true] at hb
    exact hb c (by simpa using hc)
  induction groups generalizing uuid with
  | nil => exact hbuf h
  | cons g groups ih =>
    rcases mem_append.1 h with h | h
    · exact hbuf h
    · rcases mem_cons.1 h with rfl | h
      · exact hdash
      · exact ih h

lemma uuidChar_stringFromGroups {groups} (h : c ∈ stringFromGroups groups uuid) : uuidChar c :=
  all_stringFromGroups (by decide +kernel) rfl h
lemma zero_notMem_ioRefToSTRING (ref : IoRef) : 0 ∉ ioRefToSTRING ref :=
  fun h => absurd (uuidChar_stringFromGroups h) (by decide)

lemma ioRefFromString_ioRefToSTRING (palPton : Bytes → Except PrxError SocketAddress) (ref old : IoRef) :
    ioRefFromString palPton (ioRefToSTRING ref) old = .ok ref := by
  have hlen : (ioRefToSTRING ref).length = 36 := length_stringFromUuid (by simp)
  have hbrace : (ioRefToSTRING ref).head? ≠ some 0x7b :=
    fun h => absurd (uuidChar_stringFromGroups (mem_of_mem_head? h)) (by decide)
  have huuid : stringToUuid (ioRefToSTRING ref) = .ok ref.u8.toList := stringToUuid_stringFromUuid (by simp)
  rw [ioRefFromString,hlen,if_neg (by decide),if_neg hbrace]
  simp [huuid,overlay_toList]

lemma ioRefFromString_braces (palPton : Bytes → Except PrxError SocketAddress) (ref old : IoRef) :
    ioRefFromString palPton (0x7b :: ioRefToSTRING ref ++ [0x7d]) old = .ok ref := by
  have hlen : (ioRefToSTRING ref).length = 36 := length_stringFromUuid (by simp)
  have huuid : stringToUuid (ioRefToSTRING ref) = .ok ref.u8.toList := stringToUuid_stringFromUuid (by simp)
  have hclosing : ∀ c ∈ (0x7b :: ioRefToSTRING ref).reverse, c ≠ 0x7d := by
    have hall : ∀ c ∈ ioRefToSTRING ref, c ≠ 0x7d :=
      fun c hc => by simpa using all_stringFromGroups (p := (· ≠ 0x7d)) (by decide +kernel) rfl hc
    simpa [or_imp,forall_and] using hall
  have htrim : stringTrimBack (0x7b :: ioRefToSTRING ref ++ [0x7d]) 0x7d = 0x7b :: ioRefToSTRING ref := by
    rw [stringTrimBack,reverse_append,reverse_singleton,singleton_append,dropWhile_cons_of_pos (by simp)]
    cases hreverse : (0x7b :: ioRefToSTRING ref).reverse with
    | nil => cases reverse_eq_nil_iff.1 hreverse
    | cons c =>
      rw [hreverse] at hclosing
      rw [dropWhile_cons_of_neg (by simpa using hclosing c mem_cons_self),← hreverse,reverse_reverse]
  rw [ioRefFromString,if_neg (by simp [hlen]),htrim,
    if_pos (c := head? (0x7b :: ioRefToSTRING ref ++ [0x7d]) = some 0x7b) rfl]
  simp [huuid,overlay_toList]

/-- A reference is read back from its text, with or without braces, so that its text says which it is. -/
theorem ref_text_roundTrips (palPton : Bytes → Except PrxError SocketAddress) (ref old : IoRef) :
    ioRefFromString palPton (ioRefToSTRING ref) old = .ok ref ∧
      ioRefFromString palPton (0x7b :: ioRefToSTRING ref ++ [0x7d]) old = .ok ref ∧
      ∀ other, ioRefToSTRING ref = ioRefToSTRING other ↔ ref = other := by
  refine ⟨ioRefFromString_ioRefToSTRING palPton ref old,ioRefFromString_braces palPton ref old,fun other => ?_⟩
  constructor
  · intro h
    have hback := ioRefFromString_ioRefToSTRING palPton ref old
    rw [h,ioRefFromString_ioRefToSTRING] at hback
    exact (Except.ok.inj hback).symm
  · rintro rfl
    rfl

inductive BufferOwner where
  | caller
  | allocated
deriving DecidableEq

structure Base16 where
  result : Except PrxError Bytes
  buffer : Option BufferOwner
  len : ℕ
  freed : List BufferOwner

def stringBase16ToByteArray (val : Bytes) (buffer : Option BufferOwner) (len : ℕ) (alloc : Bool) : Base16 :=
  let minLen := val.length / 2
  if minLen = 0 then ⟨.error .arg,buffer,len,[]⟩
  else if len ≠ 0 ∧ len < minLen then ⟨.error .fault,buffer,len,[]⟩
  else
    match if buffer = none ∨ len = 0 then if alloc then some .allocated else none else buffer with
    | none => ⟨.error .outOfMemory,none,minLen,[]⟩
    | some owner =>
      match stringToBuf val minLen false with
      | .ok bytes => ⟨.ok bytes,owner,minLen,[]⟩
      | .error e => ⟨.error e,owner,minLen,[owner]⟩
def stringConstructBase16 (buf : Bytes) (alloc : Bool) : Option Bytes :=
  if buf = [] ∨ !alloc then none else some (stringFromBuf buf false)

/-- The bytes that a text denotes by two digits each. -/
def denoted : Bytes → Option Bytes
  | [] => some []
  | [_] => none
  | high :: low :: val => do
    let h ← digitValue high
    let l ← digitValue low
    let bytes ← denoted val
    some ((h <<< 4 ||| l) :: bytes)

/-- The digits that are read. -/
def wholePairs (val : Bytes) : Bytes :=
  val.take (2 * (val.length / 2))
lemma stringToBytes_denoted {n val} (hlen : 2 * n ≤ val.length) :
    stringToBytes n val = (denoted (val.take (2 * n))).elim (.error .invalidFormat) .ok := by
  induction n generalizing val with
  | zero => rfl
  | succ n ih =>
    match val with
    | [] => simp at hlen
    | [_] => simp at hlen; omega
    | high :: low :: val =>
      rw [stringToBytes,show 2 * (n + 1) = 2 * n + 1 + 1 by omega,take_succ_cons,take_succ_cons,denoted,
        ih (by simp at hlen; omega)]
      cases digitValue high <;> cases digitValue low <;> cases denoted (val.take (2 * n)) <;> rfl
lemma stringToBuf_denoted (val : Bytes) :
    stringToBuf val (val.length / 2) false = (denoted (wholePairs val)).elim (.error .invalidFormat) .ok := by
  rw [stringToBuf,stringToBytes_denoted (by omega),wholePairs]
  cases denoted (val.take (2 * (val.length / 2))) <;> rfl
lemma wholePairs_of_even {val} (h : val.length % 2 = 0) : wholePairs val = val :=
  take_of_length_le (by omega)
lemma denoted_stringFromBuf (buf : Bytes) : denoted (stringFromBuf buf false) = some buf := by
  have hread := stringToBuf_stringFromBuf buf false []
  have hlen := length_stringFromBuf buf false
  rw [append_nil,show buf.length = (stringFromBuf buf false).length / 2 by omega,stringToBuf_denoted,
    wholePairs_of_even (by omega)] at hread
  cases h : denoted (stringFromBuf buf false) <;> rw [h] at hread <;> cases hread
  rfl
lemma even_of_denoted : ∀ {val bytes}, denoted val = some bytes → val.length % 2 = 0
  | [], _, _ => rfl
  | [_], _, h => nomatch h
  | _ :: _ :: val, _, h => by
    simp only [denoted,Option.bind_eq_bind,Option.bind_eq_some_iff] at h
    obtain ⟨_,-,_,-,_,hval,-⟩ := h
    have heven := even_of_denoted hval
    simp only [length_cons]
    omega

variable (val : Bytes) (buffer : Option BufferOwner) (len : ℕ) (alloc : Bool)

/-- A buffer of the caller is large enough, or one can be allocated. -/
def hasRoom : Prop :=
  (len = 0 ∨ val.length / 2 ≤ len) ∧ (alloc ∨ buffer ≠ none ∧ len ≠ 0)

/-- Where there is room, exactly the texts that denote bytes are decoded, to these, and so is the text of bytes. A
failure leaves the caller its buffer. -/
structure Base16Codec : Prop where
  decodes : hasRoom val buffer len alloc → ∀ bytes,
    (stringBase16ToByteArray val buffer len alloc).result = .ok bytes ↔ val ≠ [] ∧ denoted val = some bytes
  inverts : hasRoom val buffer len alloc → ∀ buf other, stringConstructBase16 buf other = some val →
    (stringBase16ToByteArray val buffer len alloc).result = .ok buf
  keeps : ∀ e, (stringBase16ToByteArray val buffer len alloc).result = .error e → buffer = some .caller →
    (stringBase16ToByteArray val buffer len alloc).buffer = buffer ∧
      (stringBase16ToByteArray val buffer len alloc).freed = []

/-- No digits are followed by one that is not read, and where the caller's buffer is used or replaced, all goes well. -/
structure Base16Safe : Prop where
  even : hasRoom val buffer len alloc → val.length % 2 = 1 → val.length ≠ 1 → denoted (wholePairs val) = none
  owned : buffer = some .caller → val.length / 2 ≠ 0 → len = 0 ∨ val.length / 2 ≤ len →
    (len ≠ 0 ∨ alloc) ∧ denoted (wholePairs val) ≠ none

variable {val buffer len alloc}

lemma result_arg (h : val.length / 2 = 0) :
    stringBase16ToByteArray val buffer len alloc = ⟨.error .arg,buffer,len,[]⟩ :=
  if_pos h
lemma result_fault (h : val.length / 2 ≠ 0) (hlen : ¬(len = 0 ∨ val.length / 2 ≤ len)) :
    stringBase16ToByteArray val buffer len alloc = ⟨.error .fault,buffer,len,[]⟩ := by
  rw [stringBase16ToByteArray,if_neg h,if_pos (by omega)]

/-- The digits are read in the buffer that there is. -/
lemma result_digits (h : val.length / 2 ≠ 0) (hroom : hasRoom val buffer len alloc) :
    ∃ owner, stringBase16ToByteArray val buffer len alloc =
      (denoted (wholePairs val)).elim ⟨.error .invalidFormat,some owner,val.length / 2,[owner]⟩
        fun bytes => ⟨.ok bytes,some owner,val.length / 2,[]⟩ := by
  obtain ⟨hlen,halloc⟩ := hroom
  rw [stringBase16ToByteArray,if_neg h,if_neg (by omega),stringToBuf_denoted]
  split
  · grind
  · next owner _ =>
    refine ⟨owner,?_⟩
    cases denoted (wholePairs val) <;> rfl

lemma result_ok_iff (h : val.length / 2 ≠ 0) (hroom : hasRoom val buffer len alloc) {bytes} :
    (stringBase16ToByteArray val buffer len alloc).result = .ok bytes ↔ denoted (wholePairs val) = some bytes := by
  obtain ⟨owner,heq⟩ := result_digits h hroom
  rw [heq]
  cases denoted (wholePairs val) <;> simp

/-- These are the texts and buffers for which the codec is right. -/
theorem base16Codec_iff (val : Bytes) (buffer : Option BufferOwner) (len : ℕ) (alloc : Bool) :
    Base16Codec val buffer len alloc ↔ Base16Safe val buffer len alloc := by
  constructor
  · intro h
    refine ⟨fun hroom hodd hone => ?_,fun hcaller hn hlen => ?_⟩
    · refine Option.eq_none_iff_forall_ne_some.2 fun bytes hbytes => ?_
      have hval := ((h.decodes hroom bytes).1 ((result_ok_iff (by omega) hroom).2 hbytes)).2
      have := even_of_denoted hval
      omega
    · have hroom : hasRoom val buffer len alloc := by
        refine ⟨hlen,?_⟩
        by_contra hnone
        have heq : stringBase16ToByteArray val buffer len alloc = ⟨.error .outOfMemory,none,val.length / 2,[]⟩ := by
          rw [stringBase16ToByteArray,if_neg hn,if_neg (by omega)]
          grind
        have hkeeps := h.keeps .outOfMemory (by rw [heq]) hcaller
        rw [heq,hcaller] at hkeeps
        cases hkeeps.1
      refine ⟨hroom.2.symm.imp And.right id,fun hnone => ?_⟩
      obtain ⟨owner,heq⟩ := result_digits hn hroom
      rw [hnone,Option.elim_none] at heq
      have hkeeps := h.keeps .invalidFormat (by rw [heq]) hcaller
      rw [heq] at hkeeps
      cases hkeeps.2
  · intro h
    have hdecodes (hroom : hasRoom val buffer len alloc) (bytes : Bytes) :
        (stringBase16ToByteArray val buffer len alloc).result = .ok bytes ↔ val ≠ [] ∧ denoted val = some bytes := by
      by_cases hn : val.length / 2 = 0
      · rw [result_arg hn]
        refine iff_of_false nofun fun ⟨hne,hval⟩ => hne (length_eq_zero_iff.1 ?_)
        have := even_of_denoted hval
        omega
      · have hne : val ≠ [] := by
          rintro rfl
          exact hn rfl
        rw [result_ok_iff hn hroom,and_iff_right hne]
        rcases Nat.mod_two_eq_zero_or_one val.length with heven | hodd
        · rw [wholePairs_of_even heven]
        · rw [h.even hroom hodd (by omega)]
          refine iff_of_false nofun fun hval => ?_
          have := even_of_denoted hval
          omega
    refine ⟨hdecodes,fun hroom buf other hother => ?_,fun e he hcaller => ?_⟩
    · obtain ⟨hne,hval⟩ := Option.ite_none_left_eq_some.1 hother
      rw [hdecodes hroom,← Option.some.inj hval,denoted_stringFromBuf]
      refine ⟨fun hnil => hne (.inl ?_),rfl⟩
      have hlen := length_stringFromBuf buf false
      rw [hnil] at hlen
      exact length_eq_zero_iff.1 ((Nat.mul_eq_zero.1 hlen.symm).resolve_left nofun)
    · by_cases hn : val.length / 2 = 0
      · rw [result_arg hn]
        exact ⟨rfl,rfl⟩
      by_cases hlen : len = 0 ∨ val.length / 2 ≤ len
      · obtain ⟨halloc,hsome⟩ := h.owned hcaller hn hlen
        obtain ⟨bytes,hbytes⟩ := Option.ne_none_iff_exists'.1 hsome
        have hroom : hasRoom val buffer len alloc := ⟨hlen,halloc.symm.imp_right fun hne => ⟨by simp [hcaller],hne⟩⟩
        rw [(result_ok_iff hn hroom).2 hbytes] at he
        cases he
      · rw [result_fault hn hlen]
        exact ⟨rfl,rfl⟩

/-- A text of an odd length is decoded without its last character, and an invalid digit frees the buffer of the
caller. -/
theorem oddText_decoded : (stringBase16ToByteArray [0x61,0x62,0x63] none 0 true).result = .ok [0xab] ∧
    denoted [0x61,0x62,0x63] = none ∧
    (stringBase16ToByteArray [0x7a,0x7a] (some .caller) 4 true).result = .error .invalidFormat ∧
    (stringBase16ToByteArray [0x7a,0x7a] (some .caller) 4 true).freed = [.caller] :=
  ⟨rfl,rfl,rfl,rfl⟩

end EdgeProxy.Codec
