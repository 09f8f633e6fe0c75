import EdgeProxy.Codec.JsonSpec
import EdgeProxy.Ns.Registry

/-! # The registry in a file

The functions of `prx_ns.c` that save and load a generic registry, over both halves of a codec. The JSON codec builds
its value in place, so that a program that fails leaves what it built. References of new entries are given.
-/
namespace EdgeProxy.Ns
open Base Lib Cs
open Codec hiding Bytes

variable {m : Type → Type} [Monad m] [MonadExceptOf Stop m] (c : Encoder m)

def ioEncodeCs (cs : Option IoCs) : m Unit := do
  c.encTypeBegin 1
  match cs with
  | none => throw .undefined
  | some cs => do
    c.encString "connection-string" (some (ioCsToString cs ++ [0]))
    c.encTypeEnd

def genericEntryEncode (entry : GenericEntry) : m Unit :=
  match c.codecId with
  | .json _ => do
    c.encTypeBegin (if entry.type ≠ entryTypeGw then 5 else 4)
    c.encString "name" (entry.name.map (· ++ [0]))
    ioEncodeRef c entry.id
    ioEncodeCs c entry.cs
    if entry.type ≠ entryTypeGw then
      c.encodeUint32 "type" entry.type
    c.encodeUint32 "version" entry.version
    c.encTypeEnd
  | .mpack => do
    c.encTypeBegin 5
    c.encString "name" (entry.name.map (· ++ [0]))
    c.encObject "id" false (ioEncodeRef c entry.id)
    c.encObject "cs" false (ioEncodeCs c entry.cs)
    c.encodeUint32 "type" entry.type
    c.encodeUint32 "version" entry.version
    c.encTypeEnd

def genericEntriesEncode : List GenericEntry → m Unit
  | [] => pure ()
  | next :: entries => do
    c.encObject none false (genericEntryEncode c next)
    genericEntriesEncode entries
def genericRegistryEncode (entries : List GenericEntry) : m Unit := do
  c.encTypeBegin 1
  c.encArray "entries" entries.length (genericEntriesEncode c entries)
  c.encTypeEnd

variable {π : Type} (c : Decoder m π)
  (sasTokenValidate : Bytes → Bool)

def stringIn (memory : Bytes) : m Bytes :=
  match cstr memory with
  | none => throw .undefined
  | some string => pure string
def orElse {α : Type} (x : m α) (value : α) : m α :=
  tryCatch x fun e =>
    match e with
    | .err _ => pure value
    | .undefined => throw .undefined
def ioDecodeCs : m (Option IoCs) := do
  c.decTypeBegin
  let memory ← c.decodeSTRINGHANDLE "connection-string"
  let string ← stringIn memory
  match ioCsCreateFromString sasTokenValidate string with
  | .error e => throw (.err e)
  | .ok cs => do
    c.decTypeEnd
    pure (some cs)

/-- `prx_ns_generic_entry_decode` for an entry that was just created with a new reference. -/
def genericEntryDecode (newRef : IoRef) : m GenericEntry :=
  match c.codecId with
  | .json _ => do
    c.decTypeBegin
    let memory ← c.decodeSTRINGHANDLE "name"
    let name ← stringIn memory
    let id ← orElse (ioDecodeRef c newRef) newRef
    let cs ← ioDecodeCs c sasTokenValidate
    let type ← orElse (c.decodeUint32 "type") entryTypeGw
    let version ← c.decodeUint32 "version"
    c.decTypeEnd
    pure ⟨some name,id,cs,type,version⟩
  | .mpack => do
    c.decTypeBegin
    let memory ← c.decodeSTRINGHANDLE "name"
    let name ← stringIn memory
    let id ← c.decodeMember "id" newRef (ioDecodeRef c)
    let cs ← c.decodeMember "cs" none fun _ => ioDecodeCs c sasTokenValidate
    let type ← c.decodeUint32 "type"
    let version ← c.decodeUint32 "version"
    c.decTypeEnd
    pure ⟨some name,id,cs,type,version⟩

def genericEntriesDecode (newRef : ℕ → IoRef) : ℕ → ℕ → m (List GenericEntry)
  | 0, _ => pure []
  | n + 1, i => do
    let next ← c.decObject none fun _ => genericEntryDecode c sasTokenValidate (newRef i)
    let entries ← genericEntriesDecode newRef n (i + 1)
    pure (next :: entries)
def genericRegistryDecode (newRef : ℕ → IoRef) : m (List GenericEntry) := do
  c.decTypeBegin
  let entries ← c.decArray "entries" fun size => genericEntriesDecode c sasTokenValidate newRef size 0
  c.decTypeEnd
  pure entries

structure JsonDoc where
  value : Json
  memory : ℕ

abbrev JsonBuilder := ExceptT Stop (StateM JsonDoc)

/-- Add a value; if that fails, what was built stays as it is. -/
def jsonAdd (write : JsonEnc Unit) : JsonBuilder Unit :=
  ExceptT.mk fun doc =>
    match doc.memory with
    | 0 => (.error (.err .outOfMemory),doc)
    | memory + 1 =>
      match write.run doc.value with
      | .error e => (.error e,⟨doc.value,memory⟩)
      | .ok (_,value) => (.ok (),⟨value,memory⟩)

def jsonNest (place : Json → Json) (start : Json) (build : JsonBuilder Unit) : JsonBuilder Unit :=
  ExceptT.mk fun doc =>
    match doc.memory with
    | 0 => (.error (.err .outOfMemory),doc)
    | memory + 1 =>
      let (result,inner) := build.run ⟨start,memory⟩
      (result,⟨place inner.value,inner.memory⟩)
def jsonNestArray (name : Option String) (_count : ℕ) (array : JsonBuilder Unit) : JsonBuilder Unit := do
  match name, (← get).value with
  | some name, .object members => jsonNest (fun v => .object (setMember name v members)) (.array []) array
  | _, _ => throw (.err .outOfMemory)
def jsonNestObject (name : Option String) (isNull : Bool) (object : JsonBuilder Unit) : JsonBuilder Unit := do
  match (← get).value, name with
  | .array items, _ => jsonNest (fun v => .array (items ++ [v])) (if isNull then .null else .object []) object
  | .object members, some name =>
    jsonNest (fun v => .object (setMember name v members)) (if isNull then .null else .object []) object
  | .object _, none => object
  | _, _ => throw (.err .arg)
def jsonBuilder {τ : Type} (lib : JsonLibrary τ) : Encoder JsonBuilder where
  codecId := .json ()
  encInt name v := jsonAdd (jsonWriteInteger name v)
  encUint name v := jsonAdd (jsonWriteUinteger name v)
  encBool name v := jsonAdd (jsonWriteBool name v)
  encString name s := jsonAdd (jsonWriteString lib name s)
  encBin name d := jsonAdd (jsonWriteBin lib name d)
  encObject := jsonNestObject
  encTypeBegin _ := pure ()
  encTypeEnd := pure ()
  encArray := jsonNestArray

variable (lib : JsonLibrary Bytes)

/-- Whether the file opens, whether there is memory for the document, for how many values, and for the text, and how
many bytes of the text are in the file when it is closed. -/
structure Disk where
  opens : Bool
  document : Bool
  memory : ℕ
  buffer : Bool
  reaches : ℕ

def jsonFiniCtx (disk : Disk) (value : Json) : Bytes :=
  match lib.serialize value with
  | none => []
  | some text => if disk.buffer then text.take disk.reaches else []

/-- `prx_ns_generic_registry_save`: the content of the file and the result. Neither writing the text nor closing the
file changes the result. -/
def genericRegistrySave (disk : Disk) (entries : List GenericEntry) (file : Bytes) : Bytes × Except Stop Unit :=
  if !disk.opens then (file,.error (.err .notFound))
  -- `json_init_ctx` does not check that there is a document, and `json_fini_ctx` asserts it
  else if !disk.document then ([],.error .undefined)
  else
    let (result,doc) := (genericRegistryEncode (jsonBuilder lib) entries).run ⟨.object [],disk.memory⟩
    (jsonFiniCtx lib disk doc.value,result)

def genericRegistryLoad (palPton : Bytes → Except PrxError SocketAddress) (sasTokenValidate : Bytes → Bool)
    (newRef : ℕ → IoRef) (file : Option Bytes) : Option FileContent :=
  match file with
  | none => some (.unreadable .notFound)
  | some text =>
    if text = [] then some (.unreadable .reading)
    else
      match lib.parse text with
      | none => some (.unreadable .invalidFormat)
      | some value =>
        match (genericRegistryDecode (jsonDecoder lib palPton fun _ => none) sasTokenValidate newRef).run
            ⟨value,0,⟨none,0⟩⟩ with
        | .ok (entries,_) => some (.entries entries)
        | .error (.err e) => some (.broken e)
        | .error .undefined => none

end EdgeProxy.Ns
