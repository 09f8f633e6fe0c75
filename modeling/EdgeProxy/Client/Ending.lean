import EdgeProxy.Client.Reading

/-! # The end of the stream

The loop of `Reader.cs` that fills a buffer does not look for the end of the stream, so that a read operation ends
exactly if the stream holds what it asks for. The values of floating point numbers are left out.
-/
namespace EdgeProxy.Client
open Lib Lib.MessagePack List

/-- The loop with at most `n` reads, `none` if these are too few. A read gives no byte only at the end of the stream. -/
def fill (chunk : ℕ → ℕ) : ℕ → ℕ → Bytes → Option (Bytes × Bytes)
  | _,0,input => some ([],input)
  | 0,_ + 1,_ => none
  | n + 1,len + 1,input =>
    let read := min (chunk n + 1) (min (len + 1) input.length)
    (fill chunk n (len + 1 - read) (input.drop read)).map fun r => (input.take read ++ r.1,r.2)

lemma fill_of_le {chunk} (n len : ℕ) (input : Bytes) (hn : len ≤ n) (h : len ≤ input.length) :
    fill chunk n len input = some (input.take len,input.drop len) := by
  induction n generalizing len input with
  | zero =>
    obtain rfl : len = 0 := by omega
    rfl
  | succ n ih =>
    cases len with
    | zero => rfl
    | succ len =>
      rw [fill,ih _ _ (by omega) (by rw [length_drop]; omega)]
      simp [← take_add,drop_drop]
lemma fill_of_lt {chunk} (n len : ℕ) (input : Bytes) (h : input.length < len) : fill chunk n len input = none := by
  induction n generalizing len input with
  | zero => cases len <;> simp_all [fill]
  | succ n ih =>
    cases len with
    | zero => simp at h
    | succ len =>
      rw [fill,ih _ _ (by rw [length_drop]; omega)]
      rfl

lemma run_readBytes (len : ℕ) (s : Source UInt8 ReaderState) : (readBytes len).run s =
    if len ≤ s.input.length then .ok (s.input.take len,{ s with input := s.input.drop len }) else .error .endless := by
  change (if len ≤ s.input.length then _ else _ : Read Bytes).run s = _
  split_ifs <;> rfl

/-- What the reader gets is what the loop has filled after any sufficient number of reads. -/
lemma run_readBytes_fill (chunk : ℕ → ℕ) {n len} (hn : len ≤ n) (s : Source UInt8 ReaderState) : (readBytes len).run s =
    (fill chunk n len s.input).elim (.error .endless) fun r => .ok (r.1,{ s with input := r.2 }) := by
  rw [run_readBytes]
  split_ifs with h
  · rw [fill_of_le n len _ hn h]
    rfl
  · rw [fill_of_lt n len _ (by omega)]
    rfl

def Types.isDouble : Types → Bool
  | double | float => Bool.true
  | _ => Bool.false
def readDouble : Read Types := do
  let header ← readTyped Types.isDouble
  pure header.1

/-- `overflow` tells that the number is not in the range of a float. -/
def readFloat (overflow : Bool) : Read Types := do
  let type ← readDouble
  if overflow then throw .format else pure type

variable {α β : Type} {m : Read α} {f : α → Read β} {s : Source UInt8 ReaderState}

/-- The program does not ask an ended stream for more, and leaves what is said if it succeeds. -/
def Ends (m : Read α) (s : Source UInt8 ReaderState) (P : α → Source UInt8 ReaderState → Prop) : Prop :=
  match m.run s with
  | .ok (a,t) => P a t
  | .error e => e ≠ .endless

@[simp] lemma ends_pure {a : α} {P} : Ends (pure a) s P ↔ P a s :=
  Iff.rfl
@[simp] lemma ends_throw {e} {P : α → _} : Ends (throw e) s P ↔ e ≠ .endless :=
  Iff.rfl
@[simp] lemma ends_bind {P} : Ends (m >>= f) s P ↔ Ends m s fun a t => Ends (f a) t P := by
  unfold Ends
  rw [StateT.run_bind]
  cases m.run s <;> rfl
@[simp] lemma ends_readBytes {len P} : Ends (readBytes len) s P ↔
    len ≤ s.input.length ∧ P (s.input.take len) { s with input := s.input.drop len } := by
  rw [Ends,run_readBytes]
  split_ifs with h <;> simp [h]
@[simp] lemma ends_getHeader {P} : Ends getHeader s P ↔ P (s.user.type,s.user.value) s :=
  Iff.rfl
lemma ends_iff : Ends m s (fun _ _ => True) ↔ m.run s ≠ .error .endless := by
  unfold Ends
  split <;> simp_all

/-- The type that a header names in its first byte. -/
def typeOf (b : UInt8) : Types :=
  if b ≤ 0x7f then .positiveFixNum
  else if 0xe0 ≤ b then .negativeFixNum
  else if 0xa0 ≤ b ∧ b ≤ 0xbf then .fixStr
  else if 0x90 ≤ b ∧ b ≤ 0x9f then .fixArray
  else if b ≤ 0x8f then .fixMap
  else .ofByte b.toNat

/-- The bytes of a header after its first. -/
def Types.rest : Types → ℕ
  | float => 4
  | double => 8
  | type => type.width

/-- The size that a header announces, if it does. -/
def announced (b : UInt8) (bytes : Bytes) : ℕ :=
  match typeOf b with
  | .fixStr => (b &&& 0x1f).toNat
  | .fixArray => (b &&& 0xf).toNat
  | _ => unbe bytes % 2 ^ 32

/-- The first header of a stream that has all of it: its type, the size that it announces, and what follows. -/
def splitHeader : Bytes → Option (Types × ℕ × Bytes)
  | [] => none
  | b :: rest =>
    let n := (typeOf b).rest
    if n ≤ rest.length then some (typeOf b,announced b (rest.take n),rest.drop n) else none

def Types.isSized (type : Types) : Bool :=
  type.isStr || type.isBin || type.isArray

lemma ofByte_fix (n : ℕ) : Types.ofByte n ∉ [.positiveFixNum,.negativeFixNum,.fixStr,.fixArray,.fixMap] := by
  unfold Types.ofByte
  split <;> decide

lemma splitHeader_cons {b rest type} (h : typeOf b = type) : splitHeader (b :: rest) =
    if type.rest ≤ rest.length then some (type,announced b (rest.take type.rest),rest.drop type.rest) else none :=
  h ▸ rfl
lemma run_readValue {type} (hfix : type ∉ [.positiveFixNum,.negativeFixNum,.fixStr,.fixArray,.fixMap]) (rest : Bytes)
    (u : ReaderState) : ∃ value, (type.isSized → value.toUInt32.toNat = unbe (rest.take type.rest) % 2 ^ 32) ∧
      (readValue type).run ⟨rest,u⟩ =
        if type.rest ≤ rest.length then .ok ((),⟨rest.drop type.rest,{ u with type,value }⟩) else .error .endless := by
  by_cases hwidth : type.width = 0
  · cases type
    all_goals first | exact absurd hwidth (by decide) | exact absurd (by decide) hfix | skip
    case float | double =>
      refine ⟨u.value,fun h => absurd h (by decide),?_⟩
      change ((readBytes _).run ⟨rest,u⟩ >>= _) = _
      rw [run_readBytes]
      dsimp only [Types.rest]
      split_ifs with h
      · exact (if_pos h).symm
      · exact (if_neg h).symm
    all_goals exact ⟨_,fun h => absurd h (by decide),rfl⟩
  · have hrest : type.rest = type.width := by cases type <;> first | rfl | exact absurd rfl hwidth
    refine ⟨.ofNat (unbe (rest.take type.width)),fun _ => by simp [hrest],?_⟩
    rw [readValue_of_width hwidth,hrest]
    change ((readBytes _).run ⟨rest,u⟩ >>= _) = _
    rw [run_readBytes]
    split_ifs <;> rfl

/-- A header is read exactly if the stream has all of it. -/
theorem run_readHeader (input : Bytes) (u : ReaderState) :
    ∃ value : UInt64, (∀ h ∈ splitHeader input, h.1.isSized → value.toUInt32.toNat = h.2.1) ∧ readHeader.run ⟨input,u⟩ =
        (splitHeader input).elim (.error .endless) fun h => .ok ((),⟨h.2.2,{ u with type := h.1,value }⟩) := by
  cases input with
  | nil => exact ⟨0,nofun,rfl⟩
  | cons b rest =>
    change ∃ value : UInt64, _ ∧ (readAfter b).run ⟨rest,u⟩ = _
    unfold readAfter
    split_ifs with h1 h2 h3 h4 h5
    · rw [splitHeader_cons (if_pos h1)]
      exact ⟨_,by rintro _ ⟨⟩ ⟨⟩,rfl⟩
    · have ht : typeOf b = .negativeFixNum := by simp [typeOf,h1,h2]
      rw [splitHeader_cons ht]
      exact ⟨_,by rintro _ ⟨⟩ ⟨⟩,rfl⟩
    · have ht : typeOf b = .fixStr := by simp [typeOf,h1,h2,h3]
      rw [splitHeader_cons ht]
      exact ⟨_,by rintro _ ⟨⟩ -; simp [announced,ht],rfl⟩
    · have ht : typeOf b = .fixArray := by simp [typeOf,h1,h2,h3,h4]
      rw [splitHeader_cons ht]
      exact ⟨_,by rintro _ ⟨⟩ -; simp [announced,ht],rfl⟩
    · have ht : typeOf b = .fixMap := by simp [typeOf,h1,h2,h3,h4,h5]
      rw [splitHeader_cons ht]
      exact ⟨_,by rintro _ ⟨⟩ ⟨⟩,rfl⟩
    · have ht : typeOf b = .ofByte b.toNat := by simp [typeOf,h1,h2,h3,h4,h5]
      have hfix := ofByte_fix b.toNat
      obtain ⟨value,hvalue,hrun⟩ := run_readValue hfix rest u
      rw [splitHeader_cons ht,hrun,announced,ht]
      refine ⟨value,?_,by split_ifs <;> rfl⟩
      split_ifs
      · rintro _ ⟨⟩ hsized
        rw [hvalue hsized]
        generalize Types.ofByte b.toNat = type at *
        cases type <;> first | rfl | exact absurd (by decide) hfix
      · nofun

variable {input : Bytes} {u : ReaderState}

/-- The stream has all of a header, which is as is said. -/
def Starts (input : Bytes) (Q : Types → ℕ → Bytes → Prop) : Prop :=
  ∃ h ∈ splitHeader input, Q h.1 h.2.1 h.2.2

lemma ends_readHeader {P} {Q : Types → ℕ → Bytes → Prop}
    (hP : ∀ type value rest, P () ⟨rest,{ u with type,value }⟩ ↔ Q type value.toUInt32.toNat rest)
    (hQ : ∀ type size size' rest, Q type size rest → ¬type.isSized → Q type size' rest) :
    Ends readHeader ⟨input,u⟩ P ↔ Starts input Q := by
  obtain ⟨value,hvalue,hrun⟩ := run_readHeader input u
  rw [Ends,hrun,Starts]
  cases hsplit : splitHeader input with
  | none => simp
  | some h =>
    have hsize := hvalue h hsplit
    by_cases hsized : h.1.isSized
    · simp [hP,hsize hsized]
    · simpa [hP] using ⟨fun h' => hQ _ _ _ _ h' hsized,fun h' => hQ _ _ _ _ h' hsized⟩

lemma ends_readContent {e} {size : UInt32} {t} (he : e ≠ .endless) :
    Ends (readContent e size.toInt32) t (fun _ _ => True) ↔ (size.toNat < 2 ^ 31 → size.toNat ≤ t.input.length) := by
  have hcond : size.toInt32.toInt = _ := BitVec.toInt_eq_toNat_cond size.toBitVec
  have hnat : size.toBitVec.toNat = size.toNat := rfl
  rw [readContent]
  split_ifs with hneg <;> rw [Int32.lt_iff_toInt_lt,Int32.toInt_zero] at hneg
  · refine iff_of_true he fun hlt => ?_
    omega
  · rw [ends_readBytes]
    rw [and_true]
    split_ifs at hcond <;> omega

/-- The operations that read one value, each with the types whose content it reads as well. -/
def readOps (enc : Encoding) (overflow : Bool) : List ((Types → Bool) × (α : Type) × Read α) :=
  [(Types.isBin,⟨_,readBin⟩),(Types.isStr,⟨_,readString enc⟩)] ++
    [⟨_,readHeader⟩,⟨_,readArrayLength⟩,⟨_,readMapLength⟩,⟨_,readBool⟩,⟨_,readDouble⟩,⟨_,readFloat overflow⟩,
      ⟨_,readUInt8⟩,⟨_,readUInt16⟩,⟨_,readUInt32⟩,⟨_,readUInt64⟩,⟨_,readInt8⟩,⟨_,readInt16⟩,⟨_,readInt32⟩,
      ⟨_,readInt64⟩].map fun op => (fun _ => false,op)

/-- The stream has all of a header, and of its content if that is read. -/
def Complete (content : Types → Bool) (input : Bytes) : Prop :=
  Starts input fun type size rest => content type → size < 2 ^ 31 → size ≤ rest.length

/-- The stream has the headers up to that of an object, or up to one that is none if that is an error. -/
def FindsObject (strict : Bool) : ℕ → Bytes → Prop
  | 0,_ => False
  | n + 1,input => Starts input fun type size rest =>
    if ¬type.isArray ∨ size = 0 then strict ∨ FindsObject strict n rest
    else Starts rest fun type _ rest => type = .nil ∨ strict ∨ FindsObject strict n rest

lemma toInt32_eq_zero_iff (v : UInt32) : v.toInt32 = 0 ↔ v.toNat = 0 := by
  refine ⟨fun h => ?_,fun h => ?_⟩
  · have hzero := congrArg Int32.toUInt32 h
    exact congrArg UInt32.toNat hzero
  · rw [UInt32.toNat_inj.1 (h.trans rfl : v.toNat = (0 : UInt32).toNat)]
    rfl

lemma ends_findObjectHeader (strict : Bool) (n : ℕ) (input : Bytes) (u : ReaderState) :
    Ends (findObjectHeader strict n) ⟨input,u⟩ (fun _ _ => True) ↔ FindsObject strict n input := by
  induction n generalizing input u with
  | zero => exact ⟨fun h => h rfl,False.elim⟩
  | succ n ih =>
    have hretry (input : Bytes) (u : ReaderState) :
        Ends (if strict then throw .format else findObjectHeader strict n) ⟨input,u⟩ (fun _ _ => True) ↔
          strict ∨ FindsObject strict n input := by
      split_ifs with hstrict
      · simp [hstrict]
      · rw [ih,or_iff_right hstrict]
    rw [findObjectHeader,FindsObject,ends_bind]
    refine ends_readHeader (fun type value rest => ?_) fun type size size' rest h hsized => ?_
    · rw [ends_bind,ends_getHeader]
      simp only [toInt32_eq_zero_iff]
      by_cases hnone : ¬type.isArray ∨ value.toUInt32.toNat = 0
      · rw [if_pos hnone,if_pos hnone,hretry]
      · rw [if_neg hnone,if_neg hnone,ends_bind]
        refine ends_readHeader (fun type value rest => ?_) fun _ _ _ _ h _ => h
        by_cases hnil : type = .nil
        · simp [hnil]
        · simpa [hnil] using hretry ..
    · have harray : ¬type.isArray := by simp_all [Types.isSized]
      simpa [harray] using h

lemma ends_readTyped {accept content : Types → Bool} {P} (hcontent : ∀ type, content type → accept type ∧ type.isSized)
    (hP : ∀ type value t, accept type → (P (type,value) t ↔
      (content type → value.toUInt32.toNat < 2 ^ 31 → value.toUInt32.toNat ≤ t.input.length))) :
    Ends (readTyped accept) ⟨input,u⟩ P ↔ Complete content input := by
  rw [readTyped,ends_bind]
  refine ends_readHeader (fun type value rest => ?_) fun type _ _ _ _ hsized h => absurd (hcontent type h).2 hsized
  rw [ends_bind,ends_getHeader]
  split_ifs with haccept
  · exact hP _ _ _ haccept
  · exact iff_of_true nofun fun h => absurd (hcontent type h).1 haccept

/-- The reader gets what the loop fills, each operation ends exactly if the stream has what it reads, and the search for
an object if it finds one. -/
theorem reads_end_iff (enc : Encoding) (overflow : Bool) (input : Bytes) (u : ReaderState) :
    (∀ chunk n len, len ≤ n → (readBytes len).run ⟨input,u⟩ =
        (fill chunk n len input).elim (.error .endless) fun r => .ok (r.1,⟨r.2,u⟩)) ∧
      (∀ op ∈ readOps enc overflow, op.2.2.run ⟨input,u⟩ ≠ .error .endless ↔ Complete op.1 input) ∧
      (readObjectHeader.run ⟨input,u⟩ ≠ .error .endless ↔ FindsObject u.strict (input.length + 1) input) := by
  simp only [← ends_iff]
  refine ⟨fun chunk n len hn => run_readBytes_fill chunk hn _,?_,?_⟩
  · simp only [readOps,cons_append,nil_append,map_cons,map_nil,forall_mem_cons,readArrayLength,readMapLength,readBool,
      readDouble,readFloat,readUInt8,readUInt16,readUInt32,readUInt64,readInt8,readInt16,readInt32,readInt64,readBin,
      readString,readSigned,readUnsigned,ends_bind,ends_pure]
    refine ⟨?_,?_,?_,?_,?_,?_,?_,?_,?_,?_,?_,?_,?_,?_,?_,?_,nofun⟩
    · refine ends_readTyped (by simp_all [Types.isSized]) fun _ _ _ h => ?_
      rw [forall_prop_of_true h]
      exact ends_readContent nofun
    · refine ends_readTyped (by simp_all [Types.isSized]) fun _ value _ h => ?_
      rw [forall_prop_of_true h]
      split_ifs with hzero
      · simp [show value = 0 from hzero]
      · rw [ends_bind]
        exact ends_readContent nofun
    · exact ends_readHeader (by simp) nofun
    all_goals
      refine ends_readTyped nofun fun type value t _ => ?_
      try split_ifs
      all_goals simp
  · rw [← ends_findObjectHeader,readObjectHeader,ends_bind]
    change Ends (findObjectHeader u.strict (input.length + 1) >>= _) ⟨input,u⟩ _ ↔ _
    rw [ends_bind]
    rfl

/-- On a stream that has ended no operation ends, nor does the loop in any number of reads; and the search for an object
goes on behind a number. -/
theorem ended_endless : (∀ chunk n, fill chunk n 1 [] = none) ∧
    (∀ enc, ∀ op ∈ readOps enc false, op.2.2.run ⟨[],.new⟩ = .error .endless) ∧
    readObjectHeader.run ⟨[5],.new⟩ = .error .endless := by
  refine ⟨fun _ n => fill_of_lt n 1 [] one_pos,?_,rfl⟩
  intro enc
  simp only [readOps,cons_append,nil_append,map_cons,map_nil,forall_mem_cons]
  exact ⟨rfl,rfl,rfl,rfl,rfl,rfl,rfl,rfl,rfl,rfl,rfl,rfl,rfl,rfl,rfl,rfl,nofun⟩

end EdgeProxy.Client
