import EdgeProxy.Codec.Mpack
import EdgeProxy.Codec.Proto
import EdgeProxy.Lib.Json
import EdgeProxy.Lib.Rounding

/-! # The JSON codec

The `json_*` functions of `io_codec.c` over the interfaces of parson and of the base64 functions. The context of the
encoder is the value that is being built, that of the decoder the value that is being read, with the index of the next
element of an array.
-/
namespace EdgeProxy.Codec

open Base Lib

def toDouble (value : ℤ) : Rat :=
  roundInt 53 value
def ofDouble (number : Rat) : ℤ :=
  number.num.tdiv number.den

/-- What is used of parson and of the base64 functions. `τ` is the text of a document; parson takes
only some strings for a value. -/
structure JsonLibrary (τ : Type) where
  accepts : Bytes → Bool
  serialize : Json → Option τ
  parse : τ → Option Json
  base64Encode : Bytes → Option Bytes
  base64Decode : Bytes → Option Bytes

variable {τ : Type} (lib : JsonLibrary τ)

abbrev JsonEnc := StateT Json (Except Stop)
def jsonWriteValue (name : Option String) (value : Json) : JsonEnc Unit := do
  match name, ← get with
  | none, .array items => set (Json.array (items ++ [value]))
  | some name, .object members => set (Json.object (setMember name value members))
  | _, _ => throw (.err .outOfMemory)

def jsonWriteNumber (name : Option String) (value : Rat) : JsonEnc Unit :=
  jsonWriteValue name (.number value)
def jsonWriteInteger (name : Option String) (value : Int64) : JsonEnc Unit :=
  jsonWriteNumber name (toDouble value.toInt)
def jsonWriteUinteger (name : Option String) (value : UInt64) : JsonEnc Unit :=
  jsonWriteNumber name (toDouble value.toNat)
def jsonWriteBool (name : Option String) (value : Bool) : JsonEnc Unit :=
  jsonWriteValue name (.bool value)

/-- A string that parson does not take is reported like a lack of memory. -/
def jsonWriteString (name : Option String) (value : Option Bytes) : JsonEnc Unit :=
  match value with
  | none => throw (.err .outOfMemory)
  | some memory =>
    match cstr memory with
    | none => throw .undefined
    | some s => if lib.accepts s then jsonWriteValue name (.string s) else throw (.err .outOfMemory)

def jsonWriteBin (name : Option String) (value : Bytes) : JsonEnc Unit :=
  if value = [] then jsonWriteString lib name (some [0])
  else
    match lib.base64Encode value with
    | none => throw (.err .outOfMemory)
    | some base64 => jsonWriteString lib name (some (base64 ++ [0]))
def jsonBuild (start : Json) (build : JsonEnc Unit) : JsonEnc Json := do
  let outer ← get
  set start
  build
  let value ← get
  set outer
  pure value
def jsonWriteArray (name : Option String) (_count : ℕ) (array : JsonEnc Unit) : JsonEnc Unit := do
  match name, ← get with
  | some name, .object _ => do
    let value ← jsonBuild (.array []) array
    jsonWriteValue (some name) value
  | _, _ => throw (.err .outOfMemory)

/-- Without a name, the object of the context itself is the first object. -/
def jsonWriteObject (name : Option String) (isNull : Bool) (object : JsonEnc Unit) : JsonEnc Unit := do
  match ← get, name with
  | .array _, _ => do
    let value ← jsonBuild (if isNull then .null else .object []) object
    jsonWriteValue none value
  | .object _, some name => do
    let value ← jsonBuild (if isNull then .null else .object []) object
    jsonWriteValue (some name) value
  | .object _, none => object
  | _, _ => throw (.err .arg)

def jsonEncoder : Encoder JsonEnc where
  codecId := .json ()
  encInt := jsonWriteInteger
  encUint := jsonWriteUinteger
  encBool := jsonWriteBool
  encString := jsonWriteString lib
  encBin := jsonWriteBin lib
  encObject := jsonWriteObject
  encTypeBegin _ := pure ()
  encTypeEnd := pure ()
  encArray := jsonWriteArray

structure JsonCtx where
  context : Json
  index : ℕ
  memory : Memory

abbrev JsonDec := StateT JsonCtx (Except Stop)
def jsonValue (name : Option String) : JsonDec (Option Json) := do
  let ctx ← get
  match name with
  | none => do
    set { ctx with index := ctx.index + 1 }
    pure ctx.context.items[ctx.index]?
  | some name => pure (ctx.context.member name)
def jsonReadNumber (name : Option String) : JsonDec Rat := do
  match ← jsonValue name with
  | some (.number value) => pure value
  | _ => throw (.err .invalidFormat)

/-- The conversion of a number outside the range of the type is undefined. -/
def jsonReadInteger (name : Option String) : JsonDec Int64 := do
  let number ← jsonReadNumber name
  if -2 ^ 63 ≤ ofDouble number ∧ ofDouble number < 2 ^ 63 then pure (.ofInt (ofDouble number))
  else throw .undefined

def jsonReadUinteger (name : Option String) : JsonDec UInt64 := do
  let number ← jsonReadNumber name
  if 0 ≤ ofDouble number ∧ ofDouble number < 2 ^ 64 then pure (.ofNat (ofDouble number).toNat)
  else throw .undefined
def jsonReadBool (name : Option String) : JsonDec Bool := do
  match ← jsonValue name with
  | some (.bool value) => pure value
  | _ => throw (.err .invalidFormat)
def jsonReadString {β : Type} (name : Option String) (allocator : Allocator JsonDec β) : JsonDec β := do
  match ← jsonValue name with
  | some (.string s) => do
    let store ← allocator.alloc (s.length + 1)
    store (s ++ [0])
  | _ => throw (.err .invalidFormat)
def jsonReadBin {β : Type} (name : Option String) (allocator : Allocator JsonDec β) : JsonDec β := do
  match ← jsonValue name with
  | some (.string s) =>
    if s = [] then pure allocator.null
    else
      match lib.base64Decode s with
      | none => throw (.err .outOfMemory)
      | some d => do
        let store ← allocator.alloc d.length
        store d
  | _ => throw (.err .invalidFormat)
def jsonNested {α : Type} (value : Json) (body : JsonDec α) : JsonDec α := do
  let outer ← get
  set { outer with context := value,index := 0 }
  let a ← body
  modify fun ctx => { ctx with context := outer.context,index := outer.index }
  pure a

/-- The object to read. Without a name, an object as the context is itself the first object. -/
def jsonObjectValue (name : Option String) : JsonDec (Option Json) := do
  match name, (← get).context with
  | none, .array _ => jsonValue none
  | none, .object members => pure (some (.object members))
  | none, _ => throw (.err .arg)
  | some name, _ => jsonValue (some name)

def jsonReadObject {α : Type} (name : Option String) (object : Bool → JsonDec α) : JsonDec α := do
  match ← jsonObjectValue name with
  | none => throw (.err .invalidFormat)
  | some .null => jsonNested .null (object true)
  | some (.object members) => jsonNested (.object members) (object false)
  | some _ => throw (.err .arg)
def jsonReadArray {α : Type} (name : Option String) (array : ℕ → JsonDec α) : JsonDec α := do
  match ← jsonValue name with
  | some (.array items) => jsonNested (.array items) (array items.length)
  | _ => throw (.err .invalidFormat)
def onMemory {α : Type} (x : Dec α) : JsonDec α :=
  fun ctx => do
    let (a,s) ← x.run ⟨[],⟨0,ctx.memory⟩⟩
    pure (a,{ ctx with memory := s.user.memory })

variable (palPton : Bytes → Except PrxError SocketAddress) (place : ℕ → Option ℕ)

def jsonMessageAllocator : Allocator JsonDec (Option Slice) where
  null := (ioMessageAllocator place).null
  alloc size := do
    let store ← onMemory ((ioMessageAllocator place).alloc size)
    pure fun d => onMemory (store d)

def jsonDecoder : Decoder JsonDec Slice where
  codecId := .json palPton
  decInt := jsonReadInteger
  decUint := jsonReadUinteger
  decBool := jsonReadBool
  decString := jsonReadString
  decBin := jsonReadBin lib
  decObject := jsonReadObject
  decTypeBegin := pure ()
  decTypeEnd := pure ()
  encTypeEnd := pure ()
  decArray := jsonReadArray
  defaultAllocator := jsonMessageAllocator place

/-- Write a message to a stream: its text is written at the end. A value without a text leaves the stream empty. -/
def jsonEncodeMessage (msg : IoMessage Bytes) : Except Stop (Option τ) := do
  let (_,value) ← (encodeMessageObject (jsonEncoder lib) msg).run (.object [])
  pure (lib.serialize value)

def jsonDecodeMessage (palPton : Bytes → Except PrxError SocketAddress) (place : ℕ → Option ℕ)
    (stale : Property Slice) (old : IoMessage Slice) (mem : Memory) (text : Option τ) :
    Except Stop (IoMessage Slice × Memory) :=
  match text with
  | none => .error (.err .reading)
  | some text =>
    match lib.parse text with
    | none => .error (.err .invalidFormat)
    | some value => do
      let (msg,ctx) ← (decodeMessageObject (jsonDecoder lib palPton place) stale old).run ⟨value,0,mem⟩
      pure (msg,ctx.memory)

end EdgeProxy.Codec
