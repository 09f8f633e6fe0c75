import EdgeProxy.Client.Types
import EdgeProxy.Lib.MessagePack
import EdgeProxy.Lib.Stream

/-! # The MessagePack reader of the client

The class `Reader`, on a little endian machine where nothing else is said. It keeps the type and the value of the last
header, and whether it has found its first object: until then it skips what is no object.
-/
namespace EdgeProxy.Client

open Lib Lib.MessagePack

inductive Fault where
  | format
  | notSupported
  | nullReference
  | invalidCast
  | argument
  | overflow
  /-- The stream has ended; the reader asks it for more bytes forever. -/
  | endless
deriving DecidableEq

def utf8 (s : String) : Bytes :=
  s.toUTF8.data.toList

/-- The decoder of strings gives back every string from its UTF-8 form. What it makes of other bytes is left open, but
for the length: no byte becomes more than one replacement character, which takes three bytes. -/
structure Encoding where
  getString : Bytes → String
  getString_utf8 : ∀ s, getString (utf8 s) = s
  length_getString : ∀ b, (utf8 (getString b)).length ≤ 3 * b.length

inductive Types where
  | positiveFixNum
  | negativeFixNum
  | nil
  | false
  | true
  | float
  | double
  | uint8
  | uint16
  | uint32
  | uint64
  | int8
  | int16
  | int32
  | int64
  | str8
  | str16
  | str32
  | array16
  | array32
  | map16
  | map32
  | bin8
  | bin16
  | bin32
  | ext8
  | ext16
  | ext32
  | fixStr
  | fixArray
  | fixMap
  | fixExt1
  | fixExt2
  | fixExt4
  | fixExt8
  | fixExt16
  | unused
deriving DecidableEq

def Types.ofByte : ℕ → Types
  | 0xc0 => nil
  | 0xc2 => false
  | 0xc3 => true
  | 0xc4 => bin8
  | 0xc5 => bin16
  | 0xc6 => bin32
  | 0xc7 => ext8
  | 0xc8 => ext16
  | 0xc9 => ext32
  | 0xca => float
  | 0xcb => double
  | 0xcc => uint8
  | 0xcd => uint16
  | 0xce => uint32
  | 0xcf => uint64
  | 0xd0 => int8
  | 0xd1 => int16
  | 0xd2 => int32
  | 0xd3 => int64
  | 0xd4 => fixExt1
  | 0xd5 => fixExt2
  | 0xd6 => fixExt4
  | 0xd7 => fixExt8
  | 0xd8 => fixExt16
  | 0xd9 => str8
  | 0xda => str16
  | 0xdb => str32
  | 0xdc => array16
  | 0xdd => array32
  | 0xde => map16
  | 0xdf => map32
  | _ => unused

def Types.width : Types → ℕ
  | int8 | bin8 | str8 | uint8 => 1
  | bin16 | str16 | array16 | map16 | int16 | uint16 => 2
  | bin32 | str32 | array32 | map32 | int32 | uint32 => 4
  | int64 | uint64 => 8
  | _ => 0

def Types.isArray : Types → Bool
  | fixArray | array16 | array32 => Bool.true
  | _ => Bool.false
def Types.isMap : Types → Bool
  | fixMap | map16 | map32 => Bool.true
  | _ => Bool.false
def Types.isBoolean : Types → Bool
  | true | false => Bool.true
  | _ => Bool.false
def Types.isUnsigned : Types → Bool
  | positiveFixNum | uint8 | uint16 | uint32 | uint64 => Bool.true
  | _ => Bool.false
def Types.isSigned : Types → Bool
  | negativeFixNum | positiveFixNum | int8 | int16 | int32 | int64 => Bool.true
  | _ => Bool.false
def Types.isBin : Types → Bool
  | bin8 | bin16 | bin32 => Bool.true
  | _ => Bool.false
def Types.isStr : Types → Bool
  | fixStr | str8 | str16 | str32 => Bool.true
  | _ => Bool.false

structure ReaderState where
  strict : Bool
  type : Types
  value : UInt64

def ReaderState.new : ReaderState := ⟨false,.positiveFixNum,0⟩
abbrev Read := StateT (Source UInt8 ReaderState) (Except Fault)

def signedValue (type : Types) (value : UInt64) : Int64 :=
  match type with
  | .negativeFixNum => (value ||| 0xfffffffffffffff0).toInt64
  | .int8 => (value ||| 0xffffffffffffff00).toInt64
  | .int16 => (value ||| 0xffffffffffff0000).toInt64
  | .int32 => (value ||| 0xffffffff00000000).toInt64
  | _ => value.toInt64
def readBytes (len : ℕ) : Read Bytes := do
  let s ← get
  if len ≤ s.input.length then
    set { s with input := s.input.drop len }
    pure (s.input.take len)
  else
    throw .endless

def getHeader : Read (Types × UInt64) := do
  let s ← get
  pure (s.user.type,s.user.value)
def setHeader (type : Types) (value : UInt64) : Read Unit :=
  modify fun s => { s with user := { s.user with type,value } }

/-- The value of a negative number is computed in 32 bits and stored as it is in 64. -/
def negativeFixNumValue (b : UInt8) : UInt64 :=
  ((b &&& 0x1f).toUInt32 - 0x20).toUInt64

/-- The bytes of a number as a machine of the other byte order takes them. -/
def hostOrder : Bool → Bytes → Bytes
  | true,b => b
  | false,b => b.reverse

def readValue (type : Types) (little : Bool := true) : Read Unit := do
  let value := (← getHeader).2
  match type with
  | .false => setHeader type 0
  | .true => setHeader type 1
  | .float => do
    let _ ← readBytes 4
    setHeader type value
  | .double => do
    let _ ← readBytes 8
    setHeader type value
  | type =>
    if type.width = 0 then
      setHeader type value
    else do
      let b ← readBytes type.width
      setHeader type (.ofNat (unbe (hostOrder little b)))

def readAfter (b : UInt8) (little : Bool := true) : Read Unit :=
  if b ≤ 0x7f then setHeader .positiveFixNum (b &&& 0x7f).toUInt64
  else if 0xe0 ≤ b then setHeader .negativeFixNum (negativeFixNumValue b)
  else if 0xa0 ≤ b ∧ b ≤ 0xbf then setHeader .fixStr (b &&& 0x1f).toUInt64
  else if 0x90 ≤ b ∧ b ≤ 0x9f then setHeader .fixArray (b &&& 0xf).toUInt64
  else if b ≤ 0x8f then setHeader .fixMap (b &&& 0xf).toUInt64
  else readValue (.ofByte b.toNat) little
def readHeader (little : Bool := true) : Read Unit := do
  let b ← readBytes 1
  readAfter (b.headD 0) little
def readTyped (accept : Types → Bool) (little : Bool := true) : Read (Types × UInt64) := do
  readHeader little
  let header ← getHeader
  if accept header.1 then pure header else throw .format

def readArrayLength (little : Bool := true) : Read Int32 := do
  let header ← readTyped Types.isArray little
  pure header.2.toUInt32.toInt32
def readMapLength (little : Bool := true) : Read Int32 := do
  let header ← readTyped Types.isMap little
  pure header.2.toUInt32.toInt32
def readBool : Read Bool := do
  let header ← readTyped Types.isBoolean
  pure (header.2 ≠ 0)
def readUnsigned (max : UInt64) : Read UInt64 := do
  let header ← readTyped Types.isUnsigned
  if max < header.2 then throw .format else pure header.2
def readUInt8 : Read UInt8 := do
  return (← readUnsigned 0xff).toUInt8
def readUInt16 : Read UInt16 := do
  return (← readUnsigned 0xffff).toUInt16
def readUInt32 : Read UInt32 := do
  return (← readUnsigned 0xffffffff).toUInt32
def readUInt64 : Read UInt64 := do
  let header ← readTyped Types.isUnsigned
  pure header.2
def readSigned : Read Int64 := do
  let header ← readTyped fun type => type.isSigned || type.isUnsigned
  pure (signedValue header.1 header.2)
def readInt8 : Read Int8 := do
  let signed ← readSigned
  if signed < Int16.minValue.toInt64 ∨ Int16.maxValue.toInt64 < signed then throw .format else pure signed.toInt8
def readInt16 : Read Int16 := do
  let signed ← readSigned
  if signed < Int16.minValue.toInt64 ∨ Int16.maxValue.toInt64 < signed then throw .format else pure signed.toInt16

/-- The value is cast to 16 bits before it is checked. -/
def readInt32 : Read Int32 := do
  let signed := (← readSigned).toInt16.toInt64
  if signed < Int16.minValue.toInt64 ∨ Int16.maxValue.toInt64 < signed then throw .format else pure signed.toInt32

def readInt64 : Read Int64 :=
  readSigned
def readContent (e : Fault) (len : Int32) : Read Bytes :=
  if len < 0 then throw e else readBytes len.toInt.toNat
def readBin (little : Bool := true) : Read Bytes := do
  let header ← readTyped Types.isBin little
  readContent .overflow header.2.toUInt32.toInt32

def readString (enc : Encoding) (little : Bool := true) : Read String := do
  let header ← readTyped Types.isStr little
  if header.2 = 0 then
    pure ""
  else
    let b ← readContent .argument header.2.toUInt32.toInt32
    pure (enc.getString b)

/-- Look for an array that starts with nil. Every round takes a header from the stream, so that `n` rounds are enough
for `n` bytes of input. -/
def findObjectHeader (strict : Bool) : ℕ → (little : Bool := true) → Read Int32
  | 0,_ => throw .endless
  | n + 1,little => do
    readHeader little
    let header ← getHeader
    let fields := header.2.toUInt32.toInt32
    if ¬header.1.isArray ∨ fields = 0 then
      if strict then throw .format else findObjectHeader strict n little
    else do
      readHeader little
      if (← getHeader).1 = .nil then pure (fields - 1)
      else if strict then throw .format
      else findObjectHeader strict n little

/-- Only the first object of a stream is looked for. -/
def readObjectHeader (little : Bool := true) : Read Int32 := do
  let s ← get
  let fields ← findObjectHeader s.user.strict (s.input.length + 1) little
  modify fun s => { s with user := { s.user with strict := true } }
  pure fields

end EdgeProxy.Client
