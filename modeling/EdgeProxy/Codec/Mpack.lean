import EdgeProxy.Codec.Interface
import EdgeProxy.Lib.MessagePack
import EdgeProxy.Lib.Stream

/-! # The MessagePack codec

The `mpack_*` functions of `io_codec.c` with the assertions compiled out. The encoder does not read its member
counters, so its context is the output stream alone. Content of dynamic size is stored in the one buffer of the message
that is decoded; the allocator decides where the buffer lives when it grows.
-/
namespace EdgeProxy.Codec

open Base Lib Lib.MessagePack

def cmpCtxGetErr : Fault → PrxError
  | .typeMarker => .invalidFormat
  | .data => .invalidFormat
  | .length => .invalidFormat
  | .invalidType => .arg

def truncate32 (d : Bytes) : Blob :=
  ⟨castLength d,length_castLength_lt d⟩
abbrev Enc := StateT (Sink UInt8) (Except Stop)

/-- Every write goes to the stream; the library reports a stream that is full as a write error. -/
def cmpStreamWrite (b : Bytes) : Enc Unit :=
  put (.err .writing) b

variable (lib : Library)

def mpackWriteInteger (_name : Option String) (value : Int64) : Enc Unit :=
  cmpStreamWrite (lib.writeInteger value)
def mpackWriteUinteger (_name : Option String) (value : UInt64) : Enc Unit :=
  cmpStreamWrite (lib.writeUinteger value)
def mpackWriteBool (_name : Option String) (value : Bool) : Enc Unit :=
  cmpStreamWrite (lib.writeBool value)

def mpackWriteString (_name : Option String) (value : Option Bytes) : Enc Unit :=
  match value.bind cstr with
  | none => throw .undefined
  | some s => do
    cmpStreamWrite (lib.writeStrMarker (truncate32 s).size)
    cmpStreamWrite (truncate32 s).1
def mpackWriteBin (_name : Option String) (value : Bytes) : Enc Unit := do
  cmpStreamWrite (lib.writeBinMarker (truncate32 value).size)
  cmpStreamWrite (truncate32 value).1
def mpackWriteObject (_name : Option String) (isNull : Bool) (object : Enc Unit) : Enc Unit := do
  if isNull then
    cmpStreamWrite lib.writeNil
  object

def mpackWriteTypeBegin (members : ℕ) : Enc Unit := do
  cmpStreamWrite (lib.writeArray (.ofNat members + 1))
  cmpStreamWrite lib.writeNil
def mpackWriteTypeEnd : Enc Unit :=
  pure ()
def mpackWriteArray (_name : Option String) (size : ℕ) (array : Enc Unit) : Enc Unit := do
  cmpStreamWrite (lib.writeArray (.ofNat size))
  array

def mpackEncoder : Encoder Enc where
  codecId := .mpack
  encInt := mpackWriteInteger lib
  encUint := mpackWriteUinteger lib
  encBool := mpackWriteBool lib
  encString := mpackWriteString lib
  encBin := mpackWriteBin lib
  encObject := mpackWriteObject lib
  encTypeBegin := mpackWriteTypeBegin lib
  encTypeEnd := mpackWriteTypeEnd
  encArray := mpackWriteArray lib

structure Block where
  addr : ℕ
  bytes : Bytes
deriving DecidableEq

structure Slice where
  addr : ℕ
  off : ℕ
  len : ℕ
deriving DecidableEq

structure Memory where
  buffer : Option Block
  allocations : ℕ
deriving DecidableEq

def Memory.read (mem : Memory) (p : Slice) : Option Bytes :=
  match mem.buffer with
  | none => none
  | some b =>
    if b.addr = p.addr ∧ p.off + p.len ≤ b.bytes.length then some ((b.bytes.drop p.off).take p.len)
    else none
def Memory.write (mem : Memory) (p : Slice) (d : Bytes) : Memory :=
  { mem with
    buffer := mem.buffer.map fun b =>
      { b with bytes := b.bytes.take p.off ++ d ++ b.bytes.drop (p.off + d.length) } }

structure DecCtx where
  index : ℕ
  memory : Memory
deriving DecidableEq

abbrev Dec := StateT (Source UInt8 DecCtx) (Except Stop)
def getIndex : Dec ℕ := do
  return (← get).user.index
def setIndex (index : ℕ) : Dec Unit :=
  modify fun s => { s with user := { s.user with index } }
def modifyMemory (f : Memory → Memory) : Dec Unit :=
  modify fun s => { s with user := { s.user with memory := f s.user.memory } }

def cmpRead {α : Type} (read : Bytes → Except Fault (α × Bytes)) : Dec α := do
  let s ← get
  match read s.input with
  | .error e => throw (.err (cmpCtxGetErr e))
  | .ok (a,rest) =>
    set { s with input := rest }
    pure a
def cmpStreamRead (limit : ℕ) : Dec Bytes := do
  let s ← get
  if limit ≤ s.input.length then
    set { s with input := s.input.drop limit }
    pure (s.input.take limit)
  else
    throw (.err .reading)
def mpackReadBegin : Dec Unit := do
  let index ← getIndex
  if index = 0 then throw (.err .invalidFormat)
  setIndex (index - 1)

def mpackReadInteger (_name : Option String) : Dec Int64 := do
  mpackReadBegin
  cmpRead lib.readInteger
def mpackReadUinteger (_name : Option String) : Dec UInt64 := do
  mpackReadBegin
  cmpRead lib.readUinteger
def mpackReadBool (_name : Option String) : Dec Bool := do
  mpackReadBegin
  cmpRead lib.readBool

def mpackReadString {β : Type} (_name : Option String) (allocator : Allocator Dec β) : Dec β := do
  mpackReadBegin
  let len32 ← cmpRead lib.readStrSize
  let store ← allocator.alloc (len32 + 1).toNat
  let d ← cmpStreamRead len32.toNat
  store (d ++ [0])
def mpackReadBin {β : Type} (_name : Option String) (allocator : Allocator Dec β) : Dec β := do
  mpackReadBegin
  let len32 ← cmpRead lib.readBinSize
  if len32 = 0 then
    pure allocator.null
  else
    let store ← allocator.alloc len32.toNat
    let d ← cmpStreamRead len32.toNat
    store d
def nested {α : Type} (index : ℕ) (body : Dec α) : Dec α := do
  let outer ← getIndex
  setIndex index
  let a ← body
  setIndex outer
  pure a
def mpackReadObject {α : Type} (_name : Option String) (object : Bool → Dec α) : Dec α := do
  mpackReadBegin
  match ← cmpRead lib.readObject with
  | .nil => nested 0 (object true)
  | .array size =>
    nested size.toNat do
      mpackReadBegin
      let _ ← cmpRead lib.readNil
      object false
  | _ => throw (.err .invalidFormat)

def mpackReadTypeBegin : Dec Unit :=
  pure ()
def mpackReadTypeEnd : Dec Unit :=
  pure ()

def mpackReadArray {α : Type} (_name : Option String) (array : ℕ → Dec α) : Dec α := do
  mpackReadBegin
  let size ← cmpRead lib.readArray
  nested size.toNat (array size.toNat)

variable (place : ℕ → Option ℕ)

/-- Grow the buffer of the message by `size` bytes. `place n` is the address at which the pool puts
the buffer at its `n`-th allocation, `none` when it is out of memory. -/
def ioMessageAllocateBuffer (size : ℕ) : Dec (Option Slice) := do
  if size = 0 then
    return none
  let mem := (← get).user.memory
  match place mem.allocations with
  | none => throw (.err .outOfMemory)
  | some addr =>
    let current := (mem.buffer.map Block.bytes).getD []
    modifyMemory fun _ =>
      { buffer := some ⟨addr,current ++ List.replicate size 0⟩,allocations := mem.allocations + 1 }
    return some ⟨addr,current.length,size⟩

/-- `io_message_allocator`. Storing content through the null pointer is undefined. -/
def ioMessageAllocator : Allocator Dec (Option Slice) where
  null := none
  alloc size := do
    match ← ioMessageAllocateBuffer place size with
    | none => pure fun _ => throw .undefined
    | some p =>
      pure fun d => do
        modifyMemory fun mem => mem.write p d
        pure (some p)

def mpackDecoder : Decoder Dec Slice where
  codecId := .mpack
  decInt := mpackReadInteger lib
  decUint := mpackReadUinteger lib
  decBool := mpackReadBool lib
  decString := mpackReadString lib
  decBin := mpackReadBin lib
  decObject := mpackReadObject lib
  decTypeBegin := mpackReadTypeBegin
  decTypeEnd := mpackReadTypeEnd
  encTypeEnd := pure ()
  decArray := mpackReadArray lib
  defaultAllocator := ioMessageAllocator place

end EdgeProxy.Codec
