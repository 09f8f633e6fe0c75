import EdgeProxy.Codec.Json
import EdgeProxy.Codec.RoundTrip

/-! # Configuration

The configuration of `prx_config.c` and its codec functions. All members are announced and only those that are set are
written; one of them has no name.
-/
namespace EdgeProxy.Util

open Lib Codec Base

inductive ConfigKey where
  | proxyHost
  | proxyUser
  | proxyPwd
  | connectFlag
  | tokenTtl
  | policyImport
  | logTelemetry
  | browseFs
  | restrictedPorts
deriving DecidableEq

open ConfigKey

abbrev PrxConfig := ConfigKey → Option Text
def prxConfigKeys : List ConfigKey :=
  [proxyHost,proxyUser,proxyPwd,connectFlag,tokenTtl,policyImport,logTelemetry,browseFs,restrictedPorts]

def prxConfigKeyName : ConfigKey → Option String
  | proxyHost => "proxy_host"
  | proxyUser => "proxy_user"
  | proxyPwd => "proxy_pwd"
  | tokenTtl => "token_ttl"
  | policyImport => "policy_import"
  | logTelemetry => "log_telemetry"
  | browseFs => "browse_fs"
  | restrictedPorts => "restricted_ports"
  | connectFlag => none

section

variable {m : Type → Type} [Monad m]

def encodeValue (c : Encoder m) (config : PrxConfig) (key : ConfigKey) : m Unit :=
  match config key with
  | none => pure ()
  | some value => c.encString (prxConfigKeyName key) (some (value.1 ++ [0]))
def ioEncodePrxConfig (c : Encoder m) (config : PrxConfig) : m Unit := do
  c.encTypeBegin prxConfigKeys.length
  prxConfigKeys.forM (encodeValue c config)
  c.encTypeEnd

variable [MonadExceptOf Stop m] {π : Type}

/-- A string that cannot be read leaves its value unset. -/
def decodeValue (c : Decoder m π) (key : ConfigKey) : m (Option Bytes) :=
  try
    let memory ← c.decodeSTRINGHANDLE (prxConfigKeyName key)
    pure (some memory)
  catch _ => pure none
def ioDecodePrxConfig (c : Decoder m π) : m (ConfigKey → Option Bytes) := do
  c.decTypeBegin
  let values ← prxConfigKeys.mapM (decodeValue c)
  c.decTypeEnd
  pure fun key => values.getD (prxConfigKeys.idxOf key) none

end

/-- Counts the members that are announced and those that are written. -/
def memberCounter : Encoder (StateM (ℕ × ℕ)) :=
  let member := modify fun (announced,written) => (announced,written + 1)
  { codecId := .mpack
    encInt := fun _ _ => member
    encUint := fun _ _ => member
    encBool := fun _ _ => member
    encString := fun _ _ => member
    encBin := fun _ _ => member
    encObject := fun _ _ _ => member
    encTypeBegin := fun members => modify fun (announced,written) => (announced + members,written)
    encTypeEnd := pure ()
    encArray := fun _ _ _ => member }

/-- As many members are announced as are written, and with the codec that writes and reads the document the values that
were set arrive. -/
structure ConfigRoundTrips {ω : Type} (writes : PrxConfig → ω → Prop) (reads : ω → (ConfigKey → Option Bytes) → Prop)
    (config : PrxConfig) : Prop where
  count : let s := ((ioEncodePrxConfig memberCounter config).run (0,0)).2; s.1 = s.2
  decoded : ∃ document values, writes config document ∧ reads document values ∧
    ∀ key, (values key).bind cstr = (config key).map Subtype.val

variable {τ : Type}

def MpackWritten (lib : MessagePack.Library) (config : PrxConfig) (bytes : Bytes) : Prop :=
  let c := mpackEncoder lib
  ∃ limit, Ok (c.encObject none false (ioEncodePrxConfig c config)) ⟨[],limit⟩ () ⟨bytes,limit⟩
def MpackRead (lib : MessagePack.Library) (bytes : Bytes) (values : ConfigKey → Option Bytes) : Prop :=
  let c := mpackDecoder lib some
  ∃ s, Ok (c.decObject none fun _ => ioDecodePrxConfig c) ⟨bytes,⟨1,⟨none,0⟩⟩⟩ values s
def JsonWritten (lib : JsonLibrary τ) (config : PrxConfig) (value : Json) : Prop :=
  let c := jsonEncoder lib
  Ok (c.encObject none false (ioEncodePrxConfig c config)) (.object []) () value
def JsonRead (lib : JsonLibrary τ) (palPton : Bytes → Except PrxError SocketAddress) (value : Json)
    (values : ConfigKey → Option Bytes) : Prop :=
  let c := jsonDecoder lib palPton some
  ∃ s, Ok (c.decObject none fun _ => ioDecodePrxConfig c) ⟨value,0,⟨none,0⟩⟩ values s

lemma count_values (config : PrxConfig) (keys : List ConfigKey) (s : ℕ × ℕ) :
    ((keys.forM (encodeValue memberCounter config)).run s).2 =
      (s.1,s.2 + keys.countP fun key => (config key).isSome) := by
  induction keys generalizing s with
  | nil => rfl
  | cons key keys ih =>
    change ((keys.forM (encodeValue memberCounter config)).run ((encodeValue memberCounter config key).run s).2).2 = _
    rw [ih,List.countP_cons]
    unfold encodeValue
    cases config key with
    | none => rfl
    | some =>
      refine Prod.ext rfl ?_
      change s.2 + 1 + _ = _
      simp
      omega

lemma count_iff (config : PrxConfig) :
    (let s := ((ioEncodePrxConfig memberCounter config).run (0,0)).2; s.1 = s.2) ↔ ∀ key, (config key).isSome := by
  have hrun : ((ioEncodePrxConfig memberCounter config).run (0,0)).2 = _ :=
    count_values config prxConfigKeys (0 + prxConfigKeys.length,0)
  rw [hrun,Nat.zero_add,Nat.zero_add,eq_comm,List.countP_eq_length]
  refine ⟨fun h key => h key ?_,fun h key _ => h key⟩
  cases key <;> decide

lemma ok_decodeValue {m : Dec Bytes} {s memory t} (h : Ok m s memory t) :
    Ok (try let memory ← m; pure (some memory) catch _ => pure none) s (some memory) t := by
  have hrun : m.run s = .ok (memory,t) := h
  change (tryCatch (m.run s >>= _) _ : Except Stop _) = _
  rw [hrun]
  rfl

variable {lib : MessagePack.Library} (hl : lib.ReadsBack) {value : ConfigKey → Text} (hfits : ∀ key, (value key).Fits)

lemma lays_values (value : ConfigKey → Text) (keys : List ConfigKey) :
    Lays lib (keys.forM (encodeValue (mpackEncoder lib) fun key => some (value key)))
      (some (keys.map fun key => str (value key).1)) := by
  induction keys with
  | nil => exact lays_nil
  | cons key keys ih =>
    have hstring : Lays lib _ _ := lays_string (prxConfigKeyName key) (some ((value key).1 ++ [0]))
    rw [Option.bind_some,cstr_terminated (value key).2] at hstring
    exact hstring.item ih

include hl hfits in
lemma reads_values (keys : List ConfigKey) (mem : Memory) :
    Reads lib (keys.mapM (decodeValue (mpackDecoder lib some))) (keys.map fun key => str (value key).1) mem
      (keys.map fun key => some ((value key).1 ++ [0])) mem := by
  induction keys with
  | nil => exact reads_pure _ _
  | cons key keys ih =>
    have hlength : (value key).1.length + 1 < 2 ^ 32 := hfits key
    have hstring : Reads lib ((mpackDecoder lib some).decodeSTRINGHANDLE (prxConfigKeyName key)) [str (value key).1] mem
        ((value key).1 ++ [0]) mem := by
      refine reads_string hl _ _ mem crtAllocator _ _ mem ?_
      rw [castLength_of_lt (by omega)]
      exact fun k => ⟨pure,mem,consumes_pure _ _,consumes_pure _ _⟩
    rw [List.mapM_cons]
    refine Reads.bind (fun k rest => ok_decodeValue (hstring k rest)) ?_
    have htail := ih.bind (f := fun values => pure (some ((value key).1 ++ [0]) :: values)) (reads_pure _ mem)
    rwa [List.append_nil] at htail

include hl hfits in
lemma mpack_roundTrips : ConfigRoundTrips (MpackWritten lib) (MpackRead lib) fun key => some (value key) := by
  refine ⟨(count_iff _).2 fun _ => rfl,?_⟩
  let items := prxConfigKeys.map fun key => str (value key).1
  have hlays : Lays lib (ioEncodePrxConfig (mpackEncoder lib) fun key => some (value key)) (some [obj items]) :=
    lays_type ((lays_values value prxConfigKeys).seq lays_nil) (by rintro is ⟨⟩; rfl)
  let values : ConfigKey → Option Bytes := fun key =>
    (prxConfigKeys.map fun key => some ((value key).1 ++ [0])).getD (prxConfigKeys.idxOf key) none
  have hbody : Reads lib (ioDecodePrxConfig (mpackDecoder lib some)) items ⟨none,0⟩ values ⟨none,0⟩ := by
    have hvalues := (reads_values hl hfits prxConfigKeys ⟨none,0⟩).bind (f := fun values => pure fun key =>
      values.getD (prxConfigKeys.idxOf key) none) (reads_pure _ _)
    rwa [List.append_nil] at hvalues
  obtain ⟨_,mem,hreads,rfl⟩ := (opens_object hl some none ⟨none,0⟩ (fun _ => ioDecodePrxConfig (mpackDecoder lib some))
    (show items.length + 1 < 2 ^ 32 by rw [List.length_map]; decide)).decodes ⟨values,_,hbody,rfl⟩
    (P := fun a _ => a = values)
  have hwrites := (hlays ⟨[],(MessagePack.Item.serList lib [obj items]).length⟩ ⟨_,_⟩ (Nat.zero_le _)).2
    ⟨_,rfl,rfl,rfl,Nat.le_refl _⟩
  have hok := hreads 0 []
  rw [List.append_nil] at hok
  refine ⟨_,values,⟨_,hwrites⟩,⟨_,hok⟩,fun key => ?_⟩
  have hkey : values key = some ((value key).1 ++ [0]) := by cases key <;> rfl
  rw [hkey]
  exact cstr_terminated (value key).2

lemma not_ok_unnamed {json : JsonLibrary τ} {keys : List ConfigKey} (h : connectFlag ∈ keys)
    (members : List (String × Json)) (v : Json) :
    ¬Ok (keys.forM (encodeValue (jsonEncoder json) fun key => some (value key))) (.object members) () v := by
  induction keys generalizing members with
  | nil => cases h
  | cons key keys ih =>
    intro hok
    obtain ⟨_,u,hfirst,hrest⟩ := ok_bind.1 hok
    change (jsonWriteString json (prxConfigKeyName key) (some ((value key).1 ++ [0]))).run _ = _ at hfirst
    simp only [jsonWriteString,cstr_terminated (value key).2] at hfirst
    split_ifs at hfirst
    · by_cases hkey : key = connectFlag
      · subst hkey
        cases hfirst
      · obtain ⟨name,hname⟩ : ∃ name, prxConfigKeyName key = some name := by cases key <;> simp_all [prxConfigKeyName]
        rw [hname] at hfirst
        cases hfirst
        exact ih ((List.mem_cons.1 h).resolve_left (Ne.symm hkey)) _ hrest
    · cases hfirst

/-- With MessagePack a configuration is transferred exactly if all its keys are set, with JSON never. -/
theorem configRoundTrips_iff {lib : MessagePack.Library} (hl : lib.ReadsBack) (json : JsonLibrary τ)
    (palPton : Bytes → Except PrxError SocketAddress) {config : PrxConfig} (hfits : ∀ key, ∀ t ∈ config key, t.Fits) :
    (ConfigRoundTrips (MpackWritten lib) (MpackRead lib) config ↔ ∀ key, (config key).isSome) ∧
      ¬ConfigRoundTrips (JsonWritten json) (JsonRead json palPton) config := by
  have hvalues : (∀ key, (config key).isSome) → ∃ value : ConfigKey → Text, config = fun key => some (value key) :=
    fun h => ⟨fun key => (config key).get (h key),by simp⟩
  refine ⟨⟨fun h => (count_iff config).1 h.count,fun h => ?_⟩,fun h => ?_⟩
  · obtain ⟨value,rfl⟩ := hvalues h
    exact mpack_roundTrips hl fun key => hfits key _ rfl
  · obtain ⟨value,rfl⟩ := hvalues ((count_iff config).1 h.count)
    obtain ⟨document,_,hwrites,-⟩ := h.decoded
    obtain ⟨_,_,⟨⟩,hvalues⟩ := ok_bind.1 (show Ok (ioEncodePrxConfig (jsonEncoder json) _) (.object []) () document from
      hwrites)
    obtain ⟨_,_,hvalues,-⟩ := ok_bind.1 hvalues
    exact not_ok_unnamed (by decide) [] _ hvalues

def allSet : PrxConfig :=
  fun _ => some ⟨[0x78],by decide⟩
theorem allSet_roundTrips : ConfigRoundTrips (MpackWritten MessagePack.format) (MpackRead MessagePack.format) allSet :=
  (configRoundTrips_iff MessagePack.format_readsBack (⟨fun _ => true,some,some,some,some⟩ : JsonLibrary Json)
    (fun _ => .error .arg) (by rintro _ _ ⟨⟩; exact show 2 < 2 ^ 32 by decide)).1.2 fun _ => rfl

/-- With one key set, nine members are announced. -/
theorem oneKey_not_roundTrips : ¬ConfigRoundTrips (MpackWritten MessagePack.format) (MpackRead MessagePack.format)
    fun key => if key = proxyUser then some ⟨[0x75],by decide⟩ else none :=
  fun h => absurd h.count (by decide)

end EdgeProxy.Util
