import Mathlib.Algebra.Group.Nat.Defs
import EdgeProxy.Base.Error
import EdgeProxy.Codec.Types

/-! # The codec interface

The function table of `io_codec.h`, split into its writing and its reading half. The context is the state of the monad
`m`; a nested context is the extent of the program that is passed for it. A name is `none` where the source passes the
null pointer.
-/
namespace EdgeProxy.Codec

open Base

variable {m : Type → Type}

def cstr (mem : Bytes) : Option Bytes :=
  if 0 ∈ mem then some (mem.takeWhile (· ≠ 0)) else none
def castLength (d : Bytes) : Bytes :=
  d.take (d.length % 2 ^ 32)
lemma length_castLength (d : Bytes) : (castLength d).length = d.length % 2 ^ 32 := by
  simp only [castLength,List.length_take]
  omega
lemma length_castLength_lt (d : Bytes) : (castLength d).length < 2 ^ 32 := by
  rw [length_castLength]
  exact Nat.mod_lt _ (by decide)
lemma castLength_of_lt {d} (h : d.length < 2 ^ 32) : castLength d = d := by
  rw [castLength,Nat.mod_eq_of_lt h,List.take_length]

lemma castLength_eq_iff {d} : castLength d = d ↔ d.length < 2 ^ 32 := by
  refine ⟨fun h => ?_,castLength_of_lt⟩
  have := length_castLength_lt d
  rwa [h] at this

inductive CodecId (ρ : Type) where
  | mpack
  | json (platform : ρ)

structure Encoder (m : Type → Type) where
  codecId : CodecId Unit
  encInt : Option String → Int64 → m Unit
  encUint : Option String → UInt64 → m Unit
  encBool : Option String → Bool → m Unit
  encString : Option String → Option Bytes → m Unit
  encBin : Option String → Bytes → m Unit
  encObject : Option String → Bool → m Unit → m Unit
  encTypeBegin : ℕ → m Unit
  encTypeEnd : m Unit
  encArray : Option String → ℕ → m Unit → m Unit

namespace Encoder

variable (c : Encoder m)

def encodeInt32 (name : Option String) (v : Int32) : m Unit := c.encInt name v.toInt64
def encodeUint32 (name : Option String) (v : UInt32) : m Unit := c.encUint name v.toUInt64
def encodeUint16 (name : Option String) (v : UInt16) : m Unit := c.encUint name v.toUInt64
def encodeUint8 (name : Option String) (v : UInt8) : m Unit := c.encUint name v.toUInt64

end Encoder

/-- Where decoded content goes. `null` is the result when the reader stores the null pointer;
`alloc` asks for memory and returns the function that fills it. -/
structure Allocator (m : Type → Type) (β : Type) where
  null : β
  alloc : ℕ → m (Bytes → m β)

/-- The reading half of `struct io_codec`, with the default allocator of its context. The program passed to `decObject`
is told whether the object is null. One decoder ends its type with the function of the writing half. The platform
gives the parser of addresses. -/
structure Decoder (m : Type → Type) (π : Type) where
  codecId : CodecId (Bytes → Except PrxError SocketAddress)
  decInt : Option String → m Int64
  decUint : Option String → m UInt64
  decBool : Option String → m Bool
  decString : {β : Type} → Option String → Allocator m β → m β
  decBin : {β : Type} → Option String → Allocator m β → m β
  decObject : {α : Type} → Option String → (Bool → m α) → m α
  decTypeBegin : m Unit
  decTypeEnd : m Unit
  encTypeEnd : m Unit
  decArray : {α : Type} → Option String → (ℕ → m α) → m α
  defaultAllocator : Allocator m (Option π)

def overlay {n : ℕ} (old : Vector UInt8 n) (d : Bytes) : Vector UInt8 n :=
  .ofFn fun i => d[i.1]?.getD old[i]
lemma overlay_toList {n} (old v : Vector UInt8 n) : overlay old v.toList = v := by
  simp [overlay]

/-- Accepts any size up to that of the array it fills. Storing more than the array holds is
undefined. -/
def fixedValidator [Monad m] [MonadExceptOf Stop m] {n : ℕ} (old : Vector UInt8 n) :
    Allocator m (Vector UInt8 n) where
  null := old
  alloc size :=
    if size ≤ n then
      pure fun d => if d.length ≤ n then pure (overlay old d) else throw .undefined
    else
      throw (.err .outOfMemory)

def crtAllocator [Monad m] : Allocator m Bytes where
  null := []
  alloc _ := pure pure

namespace Decoder

variable [Monad m] [MonadExceptOf Stop m] {π : Type} (c : Decoder m π)

def decodeUint32 (name : Option String) : m UInt32 := do
  let u64 ← c.decUint name
  if u64.toUInt32.toUInt64 = u64 then pure u64.toUInt32 else throw (.err .invalidFormat)
def decodeUint16 (name : Option String) : m UInt16 := do
  let u64 ← c.decUint name
  if u64.toUInt16.toUInt64 = u64 then pure u64.toUInt16 else throw (.err .invalidFormat)
def decodeUint8 (name : Option String) : m UInt8 := do
  let u64 ← c.decUint name
  if u64.toUInt8.toUInt64 = u64 then pure u64.toUInt8 else throw (.err .invalidFormat)
def decodeInt32 (name : Option String) : m Int32 := do
  let i64 ← c.decInt name
  if i64.toInt32.toInt64 = i64 then pure i64.toInt32 else throw (.err .invalidFormat)
def decodeInt16 (name : Option String) : m Int16 := do
  let i64 ← c.decInt name
  if i64.toInt16.toInt64 = i64 then pure i64.toInt16 else throw (.err .invalidFormat)
def decodeInt8 (name : Option String) : m Int8 := do
  let i64 ← c.decInt name
  if i64.toInt8.toInt64 = i64 then pure i64.toInt8 else throw (.err .invalidFormat)
def decodeStringFixed {n : ℕ} (name : Option String) (old : Vector UInt8 n) : m (Vector UInt8 n) :=
  c.decString name (fixedValidator old)
def decodeBinFixed {n : ℕ} (name : Option String) (old : Vector UInt8 n) : m (Vector UInt8 n) :=
  c.decBin name (fixedValidator old)
def decodeStringDefault (name : Option String) : m (Option π) :=
  c.decString name c.defaultAllocator
def decodeSTRINGHANDLE (name : Option String) : m Bytes :=
  c.decString name crtAllocator
def decodeBinDefault (name : Option String) : m (Option π) :=
  c.decBin name c.defaultAllocator
def decodeMember {α : Type} (name : Option String) (old : α) (body : α → m α) : m α :=
  c.decObject name fun isNull => if isNull then pure old else body old

end Decoder

end EdgeProxy.Codec
