import EdgeProxy.Lib.Transition

/-! # Sequential streams of the client

`SequentialStream.ReceiveAsync`, which hands out the payloads of data messages in pieces.
-/
namespace EdgeProxy.Client
open Lib List

abbrev Payload := List UInt8

structure SequentialStream where
  lastData : Option Payload
  offset : ℕ
  lastRead : Option ℕ
  messages : List Payload
deriving DecidableEq

namespace SequentialStream

/-- `CopyBuffer` into a buffer of this size: the bytes that are copied. -/
def copyBuffer (s : SequentialStream) (data : Payload) (count : ℕ) : SequentialStream × Payload :=
  let toCopy := min count (data.length - s.offset)
  let offset := s.offset + toCopy
  (if data.length ≤ offset then { s with lastData := none, offset := 0 } else { s with offset },
    (data.drop s.offset).take toCopy)

/-- The loop of `ReceiveInternalAsync`; without a message it waits. A round that does not end it releases the data that
is left, so that two rounds are enough for each message. -/
def receiveInternal (count : ℕ) : ℕ → SequentialStream → Option (SequentialStream × Payload)
  | 0, _ => none
  | rounds + 1, s =>
    let copy (s : SequentialStream) (data : Payload) :=
      match s.copyBuffer data count with
      | (s,[]) => receiveInternal count rounds s
      | (s,copied) => some ({ s with lastRead := some copied.length },copied)
    match s.lastData, s.messages with
    | some data, _ => copy s data
    | none, [] => none
    | none, [] :: messages => some ({ s with offset := 0, messages, lastRead := some 0 },[])
    | none, data :: messages => copy { s with lastData := some data, offset := 0, messages } data

/-- The result of the last call is used again if its count is the same. -/
def resultCount (lastRead : Option ℕ) (copied : ℕ) : ℕ :=
  match lastRead with
  | some n => if n = copied then n else copied
  | none => copied

/-- `ReceiveAsync`: the count that is returned, and the bytes in the buffer. -/
def receive (s : SequentialStream) (count : ℕ) : Option (SequentialStream × ℕ × Payload) :=
  if count = 0 then some (s,0,[])
  else
    let internal (s : SequentialStream) :=
      (receiveInternal count (2 * s.messages.length + 2) s).map fun p => (p.1,p.2.length,p.2)
    match s.lastData with
    | none => internal s
    | some data =>
      match s.copyBuffer data count with
      | (s,[]) => internal s
      | (s,copied) =>
        let n := resultCount s.lastRead copied.length
        some ({ s with lastRead := some n },n,copied)

end SequentialStream

structure Reception where
  stream : SequentialStream
  arrived : List Payload
  results : List (ℕ × Payload)

inductive ReceptionLabel where
  | arrive (payload : Payload)
  | receive (count : ℕ)

def Reception.step (r : Reception) : ReceptionLabel → Option Reception
  | .arrive payload => some { r with
      stream.messages := r.stream.messages ++ [payload]
      arrived := r.arrived ++ [payload] }
  | .receive count =>
    if 1 ≤ count then
      (r.stream.receive count).map fun p => { r with stream := p.1, results := r.results ++ [p.2] }
    else none
def Reception.new : Reception := ⟨⟨none,0,none,[]⟩,[],[]⟩

/-- The bytes of the payloads that are not returned yet. -/
def SequentialStream.rest (s : SequentialStream) : Payload :=
  (s.lastData.getD []).drop s.offset ++ s.messages.flatten

/-- Every byte that arrived was returned or is still there, in order, and every empty payload gives one count of 0. -/
structure Reception.Exact (r : Reception) : Prop where
  bytes : (r.results.map Prod.snd).flatten ++ r.stream.rest = r.arrived.flatten
  counts : ∀ p ∈ r.results, p.1 = p.2.length
  empties : r.results.count (0,[]) + r.stream.messages.count [] = r.arrived.count []

/-- A call waits only if there is nothing left to return. -/
def Reception.Progresses (r : Reception) : Prop :=
  ∀ count, 1 ≤ count → r.step (.receive count) = none → r.stream.rest = [] ∧ r.stream.messages = []

namespace SequentialStream

variable {s : SequentialStream} {count : ℕ}

def Fits (s : SequentialStream) : Prop :=
  ∀ data, s.lastData = some data → s.offset < data.length
lemma resultCount_eq (lastRead : Option ℕ) (copied : ℕ) : resultCount lastRead copied = copied := by
  unfold resultCount
  split
  · split_ifs with h
    · exact h
    · rfl
  · rfl

lemma copyBuffer_spec {data} (hlast : s.lastData = some data) (hs : s.offset < data.length)
    (hcount : 1 ≤ count) : ∃ s' b d, s.copyBuffer data count = (s',b :: d) ∧ s'.Fits ∧ b :: d ++ s'.rest = s.rest ∧
      s'.messages = s.messages := by
  obtain ⟨b,d,hcopied⟩ : ∃ b d, (data.drop s.offset).take (min count (data.length - s.offset)) = b :: d := by
    apply exists_cons_of_ne_nil
    simp
    omega
  rw [copyBuffer,hcopied]
  split_ifs with hend
  · refine ⟨_,b,d,rfl,?_,?_,rfl⟩
    · intro _ h
      cases h
    · rw [← hcopied,take_of_length_le (by simp; omega)]
      simp [rest,hlast]
  · refine ⟨_,b,d,rfl,?_,?_,rfl⟩
    · intro data' hdata
      cases hlast.symm.trans hdata
      exact Nat.lt_of_not_le hend
    · simp only [rest,hlast,Option.getD_some]
      rw [← hcopied,← append_assoc,← drop_drop,take_append_drop]

/-- A call waits without data, and else returns the bytes that come next, or those of an empty payload. -/
theorem receive_spec (hs : s.Fits) (hcount : 1 ≤ count) : s.lastData = none ∧ s.messages = [] ∧ s.receive count = none ∨
    ∃ s' d, s.receive count = some (s',d.length,d) ∧ s'.Fits ∧ d ++ s'.rest = s.rest ∧
      (if d = [] then s.messages = [] :: s'.messages else s'.messages.count [] = s.messages.count []) := by
  have hzero : count ≠ 0 := by omega
  cases hlast : s.lastData with
  | some data =>
    right
    obtain ⟨s',b,d,hcopy,hfits,hrest,hmessages⟩ := copyBuffer_spec hlast (hs data hlast) hcount
    refine ⟨{ s' with lastRead := some (b :: d).length },b :: d,?_,hfits,hrest,?_⟩
    · simp [receive,hzero,hlast,hcopy,resultCount_eq]
    · exact congrArg (List.count []) hmessages
  | none =>
    match hmessages : s.messages with
    | [] => simp [receive,hzero,receiveInternal,hlast,hmessages]
    | [] :: messages =>
      right
      refine ⟨{ s with offset := 0, messages, lastRead := some 0 },[],?_,?_,?_,by simp⟩
      · simp [receive,hzero,receiveInternal,hlast,hmessages]
      · intro data hdata
        cases hlast.symm.trans hdata
      · simp [rest,hlast,hmessages]
    | (b :: data) :: messages =>
      right
      obtain ⟨s',c,d,hcopy,hfits,hrest,hmessages'⟩ := copyBuffer_spec
        (s := { s with lastData := some (b :: data), offset := 0, messages }) rfl (Nat.succ_pos _) hcount
      refine ⟨{ s' with lastRead := some (c :: d).length },c :: d,?_,hfits,?_,?_⟩
      · simp [receive,hzero,receiveInternal,hlast,hmessages,hcopy]
      · exact hrest.trans (by simp [rest,hlast,hmessages])
      · simp [hmessages']

end SequentialStream

lemma Reception.Exact.step {r r' : Reception} {label} (hr : r.Exact ∧ r.stream.Fits) (_ : True)
    (h : r.step label = some r') : r'.Exact ∧ r'.stream.Fits := by
  obtain ⟨⟨hbytes,hcounts,hempties⟩,hfits⟩ := hr
  cases label with
  | arrive =>
    cases h
    refine ⟨⟨?_,hcounts,?_⟩,hfits⟩
    · simp [← hbytes,SequentialStream.rest]
    · simp [count_append,← hempties,Nat.add_assoc]
  | receive =>
    obtain ⟨hcount,h⟩ := Option.ite_none_right_eq_some.1 h
    rcases r.stream.receive_spec hfits hcount with ⟨-,-,hnone⟩ | ⟨s',d,hreceive,hfits',hrest,hmessages⟩
    · rw [hnone] at h
      cases h
    · rw [hreceive] at h
      cases h
      refine ⟨⟨?_,?_,?_⟩,hfits'⟩
      · simp [← hbytes,← hrest]
      · intro p hp
        rcases mem_append.1 hp with hp | hp
        · exact hcounts p hp
        · rw [mem_singleton.1 hp]
      · rw [← hempties,count_append]
        split_ifs at hmessages with hd
        · rw [hmessages,hd]
          simp
          omega
        · rw [hmessages,count_singleton,if_neg (by simp [hd]),Nat.add_zero]

lemma progresses_of_fits {r : Reception} (hfits : r.stream.Fits) : r.Progresses := by
  intro count hcount hnone
  rw [Reception.step,if_pos hcount,Option.map_eq_none_iff] at hnone
  rcases r.stream.receive_spec hfits hcount with ⟨hlast,hmessages,-⟩ | ⟨s',d,hreceive,-⟩
  · simp [SequentialStream.rest,hlast,hmessages]
  · cases hnone.symm.trans hreceive

/-- Whatever arrives and whatever the sizes of the buffers are, the payloads are returned byte by byte. -/
theorem reception_exact (labels : List ReceptionLabel) :
    Always Reception.step (fun r => r.Exact ∧ r.Progresses) .new labels := by
  refine always_of_along Reception.Exact.step (fun hr => ⟨hr.1,progresses_of_fits hr.2⟩) ⟨⟨rfl,?_,rfl⟩,?_⟩ along_true
  · intro p hp
    cases hp
  · intro data hdata
    cases hdata

end EdgeProxy.Client
