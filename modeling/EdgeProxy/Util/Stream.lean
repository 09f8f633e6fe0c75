import EdgeProxy.Base.Error

/-! # Streams that are written to

The writers of `util_stream.c` to a fixed buffer, a buffer of a pool and memory of the heap, and the one of
`io_queue.c`. What is read back is what was written, but from a buffer of a queue all of its memory.
-/
namespace EdgeProxy.Util
open Base List

inductive StreamKind where
  | fixedBuffer
  | dynamicBuffer
  | dynamicMemory
  | queueBuffer
deriving DecidableEq

/-- A stream with what was written to it, and the space that is left, the size of the buffer and the increment, the
increment, or what the memory after it holds. -/
inductive IoStream where
  | fixedBuffer (out : List UInt8) (outLen : ℕ)
  | dynamicBuffer (out : List UInt8) (size increment : ℕ)
  | dynamicMemory (out : List UInt8) (increment : ℕ)
  | queueBuffer (out rest : List UInt8)
deriving DecidableEq

/-- A stream for this much, or with this increment, or over this memory. -/
def IoStream.init (size : ℕ) (memory : List UInt8) : StreamKind → IoStream
  | .fixedBuffer => .fixedBuffer [] size
  | .dynamicBuffer => let increment := if size ≠ 0 then size else 0x400; .dynamicBuffer [] increment increment
  | .dynamicMemory => .dynamicMemory [] (if size ≠ 0 then size else 0x400)
  | .queueBuffer => .queueBuffer [] memory

/-- The loop that doubles the memory, with the results of `mem_realloc`. -/
def growMemory (needed : ℕ) : List Bool → ℕ → ℕ × Bool
  | [], increment => (increment,needed ≤ increment)
  | granted :: memory, increment =>
    if needed ≤ increment then (increment,true)
    else if granted then growMemory needed memory (2 * increment)
    else (increment,false)

structure Write where
  data : List UInt8
  memory : List Bool

def Write.done (w : Write) : Option PrxError → List UInt8
  | none => w.data
  | some _ => []

def IoStream.write (w : Write) : IoStream → IoStream × Option PrxError
  | .fixedBuffer out outLen =>
    if w.data.length > outLen then (.fixedBuffer out outLen,some .writing)
    else (.fixedBuffer (out ++ w.data) (outLen - w.data.length),none)
  | .dynamicBuffer out size increment =>
    if w.data.length = 0 then (.dynamicBuffer out size increment,none)
    else if out.length + w.data.length > size then
      if w.memory.headD true then
        let size := ((out.length + w.data.length) / increment + 1) * increment
        (.dynamicBuffer (out ++ w.data) size increment,none)
      else (.dynamicBuffer out size increment,some .outOfMemory)
    else (.dynamicBuffer (out ++ w.data) size increment,none)
  | .dynamicMemory out increment =>
    if w.data.length = 0 then (.dynamicMemory out increment,none)
    else
      match growMemory (out.length + w.data.length) w.memory increment with
      | (increment,true) => (.dynamicMemory (out ++ w.data) increment,none)
      | (increment,false) => (.dynamicMemory out increment,some .outOfMemory)
  | .queueBuffer out rest => (.queueBuffer (out ++ w.data.take rest.length) (rest.drop w.data.length),none)

def IoStream.out : IoStream → List UInt8
  | .fixedBuffer out _ | .dynamicBuffer out _ _ | .dynamicMemory out _ | .queueBuffer out _ => out
def IoStream.readBack : IoStream → List UInt8
  | .queueBuffer out rest => out ++ rest
  | s => s.out
def IoStream.isQueue : IoStream → Bool
  | .queueBuffer _ _ => true
  | _ => false

/-- What was written is within the memory of the stream. -/
def IoStream.Within : IoStream → Prop
  | .dynamicBuffer out size increment => out.length ≤ size ∧ increment ≠ 0
  | .dynamicMemory out increment => out.length ≤ increment
  | _ => True

/-- Each write is done wholly if it succeeds and not at all if it fails, and what was written is read back. -/
def IoStream.Keeps : IoStream → List UInt8 → List Write → Prop
  | s, written, [] => s.readBack = written
  | s, written, w :: writes =>
    (s.write w).1.Within ∧ (s.write w).1.out = s.out ++ w.done (s.write w).2 ∧
      (s.write w).1.Keeps (written ++ w.done (s.write w).2) writes

lemma growMemory_spec (needed : ℕ) (memory : List Bool) (increment : ℕ) :
    increment ≤ (growMemory needed memory increment).1 ∧
      ((growMemory needed memory increment).2 → needed ≤ (growMemory needed memory increment).1) := by
  induction memory generalizing increment with
  | nil => simp [growMemory]
  | cons granted memory ih =>
    have hnext := ih (2 * increment)
    unfold growMemory
    split_ifs with hfits
    · exact ⟨Nat.le_refl _,fun _ => hfits⟩
    · exact ⟨by omega,hnext.2⟩
    · exact ⟨Nat.le_refl _,nofun⟩

variable {s : IoStream} {w : Write}

open IoStream

lemma write_spec (hs : s.Within) (hkind : s.isQueue = false) :
    (s.write w).1.Within ∧ (s.write w).1.isQueue = false ∧ (s.write w).1.out = s.out ++ w.done (s.write w).2 := by
  cases s with
  | fixedBuffer =>
    simp only [write]
    split_ifs
    · exact ⟨trivial,rfl,(append_nil _).symm⟩
    · exact ⟨trivial,rfl,rfl⟩
  | dynamicBuffer out size increment =>
    have hgrown : out.length + w.data.length ≤ ((out.length + w.data.length) / increment + 1) * increment :=
      Nat.le_of_lt (Nat.lt_mul_of_div_lt (Nat.lt_succ_self _) (Nat.pos_of_ne_zero hs.2))
    simp only [write]
    split_ifs with hzero
    · refine ⟨hs,rfl,?_⟩
      rw [Write.done,length_eq_zero_iff.1 hzero,append_nil]
    · exact ⟨⟨by rwa [length_append],hs.2⟩,rfl,rfl⟩
    · exact ⟨hs,rfl,(append_nil _).symm⟩
    · exact ⟨⟨by rw [length_append]; omega,hs.2⟩,rfl,rfl⟩
  | dynamicMemory out increment =>
    obtain ⟨hle,hgrown⟩ := growMemory_spec (out.length + w.data.length) w.memory increment
    simp only [write]
    split_ifs with hzero
    · refine ⟨hs,rfl,?_⟩
      rw [Write.done,length_eq_zero_iff.1 hzero,append_nil]
    · split
      · next h =>
        rw [h] at hgrown
        exact ⟨by simpa [Within] using hgrown rfl,rfl,rfl⟩
      · next h =>
        rw [h] at hle
        exact ⟨Nat.le_trans hs hle,rfl,(append_nil _).symm⟩
  | queueBuffer => cases hkind

lemma keeps_of_within (hs : s.Within) (hkind : s.isQueue = false) (writes : List Write) : s.Keeps s.out writes := by
  induction writes generalizing s with
  | nil =>
    cases s with
    | queueBuffer => cases hkind
    | _ => rfl
  | cons w writes ih =>
    obtain ⟨hwithin,hkind',hout⟩ := write_spec hs hkind
    refine ⟨hwithin,hout,?_⟩
    rw [← hout]
    exact ih hwithin hkind'

lemma queueBuffer_keeps_iff (out rest : List UInt8) (writes : List Write) :
    (IoStream.queueBuffer out rest).Keeps out writes ↔ (writes.flatMap Write.data).length = rest.length := by
  induction writes generalizing out rest with
  | nil => simp [IoStream.Keeps,IoStream.readBack,eq_comm]
  | cons w writes ih =>
    by_cases hfits : w.data.length ≤ rest.length
    · have htake : w.data.take rest.length = w.data := take_of_length_le hfits
      simp only [IoStream.Keeps,IoStream.write,IoStream.Within,IoStream.out,Write.done,htake,true_and,ih,
        length_drop,flatMap_cons,length_append]
      omega
    · have hcut : w.data.take rest.length ≠ w.data := fun h => hfits (by rw [← h,length_take]; omega)
      simp only [IoStream.Keeps,IoStream.write,IoStream.out,Write.done,append_cancel_left_eq,hcut,false_and,and_false,
        false_iff,flatMap_cons,length_append]
      omega

/-- All writers but that of a queue buffer keep the promise; that one does if the writes have the size of the buffer. -/
theorem keeps_iff (kind : StreamKind) (size : ℕ) (memory : List UInt8) (writes : List Write) :
    (IoStream.init size memory kind).Keeps [] writes ↔
      (kind = .queueBuffer → (writes.flatMap Write.data).length = memory.length) := by
  cases kind with
  | queueBuffer => simpa [init] using queueBuffer_keeps_iff [] memory writes
  | fixedBuffer => exact iff_of_true (keeps_of_within (s := .fixedBuffer [] size) trivial rfl writes) nofun
  | dynamicBuffer =>
    have hincrement : (if size ≠ 0 then size else 0x400) ≠ 0 := by
      split_ifs with h
      · exact h
      · decide
    exact iff_of_true (keeps_of_within (s := .dynamicBuffer [] _ _) ⟨Nat.zero_le _,hincrement⟩ rfl writes) nofun
  | dynamicMemory => exact iff_of_true (keeps_of_within (Nat.zero_le _) rfl writes) nofun

/-- The second write succeeds without its last byte, and after a shorter one a stale byte is read. -/
theorem queueBuffer_not_keeps :
    let s := IoStream.init 0 [9,9,9] .queueBuffer
    ¬s.Keeps [] [⟨[1,2],[]⟩,⟨[3,4],[]⟩] ∧ ¬s.Keeps [] [⟨[1,2],[]⟩] := by
  refine ⟨fun h => ?_,fun h => ?_⟩
  · cases h.2.2.2.1
  · cases h.2.2

end EdgeProxy.Util
