import EdgeProxy.Cs.Strings

/-! # Connection strings

`io_cs.c` in a build without a credential store. Memory allocation does not fail. The validation of a token is a
function of the SDK.
-/
namespace EdgeProxy.Cs
open Base

inductive Entry where
  | hostName
  | hubName
  | deviceId
  | sharedAccessKeyName
  | sharedAccessKey
  | endpoint
  | consumerGroup
  | partitionCount
  | entity
  | endpointName
  | sharedAccessToken
  | sharedAccessKeyHandle
deriving DecidableEq

abbrev IoCs := Entry → Option Bytes

namespace IoCs

def zero : IoCs :=
  fun _ => none
def set (cs : IoCs) (entry : Entry) (value : Option Bytes) : IoCs :=
  Function.update cs entry value
@[simp] lemma set_same (cs : IoCs) (entry : Entry) (value : Option Bytes) : cs.set entry value entry = value :=
  Function.update_self ..
lemma set_of_ne (cs : IoCs) {entry other} (h : other ≠ entry) (value : Option Bytes) :
    cs.set entry value other = cs other :=
  Function.update_of_ne h ..

end IoCs

def isAlpha (c : UInt8) : Bool :=
  (0x61 ≤ c ∧ c ≤ 0x7a) ∨ (0x41 ≤ c ∧ c ≤ 0x5a)

/-- `io_cs_validate_host_name`: only the part before the first dot is looked at. -/
def ioCsValidateHostName (hostName : Bytes) : Except PrxError Unit :=
  if 0x2e ∉ hostName then .error .invalidFormat
  else
    let hub := hostName.takeWhile (· ≠ 0x2e)
    if hub.length < 3 ∨ hub.length > 50 then .error .invalidFormat
    else if hub.head? = some 0x2d then .error .invalidFormat
    else if hub.any fun c => !isDigit c && !isAlpha c && c ≠ 0x2d then .error .invalidFormat
    else if hub.all isDigit then .error .invalidFormat
    else .ok ()

def validChars : Bytes :=
  ascii "-:.+%_#*?!(),=@;$'"
def ioCsValidateDeviceId (deviceId : Bytes) : Except PrxError Unit :=
  if deviceId.length ≥ 128 then .error .invalidFormat
  else if deviceId.any fun c => !isAlpha c && !isDigit c && !validChars.contains c then .error .invalidFormat
  else .ok ()

/-- `io_cs_get_host_name`, which takes a host name that is not set from the endpoint, if a slash ends it there. -/
def ioCsGetHostName (cs : IoCs) : IoCs × Option Bytes :=
  match cs .hostName, cs .endpoint with
  | some hostName, _ => (cs,some hostName)
  | none, none => (cs,none)
  | none, some endpoint =>
    let val := stringTrimScheme endpoint
    if 0x2f ∈ val then
      let hostName := val.takeWhile (· ≠ 0x2f)
      (cs.set .hostName (some hostName),some hostName)
    else (cs,none)

variable (sasTokenValidate : Bytes → Bool)

def ioCsValidateEntries (cs : IoCs) (hostName : Bytes) : Except PrxError Unit := do
  if hostName = [] then throw .invalidFormat
  ioCsValidateHostName hostName
  match cs .deviceId with
  -- without a device there is no check of the token
  | none => pure ()
  | some deviceId => do
    if deviceId = [] then throw .invalidFormat
    ioCsValidateDeviceId deviceId
    match cs .sharedAccessToken with
    | none => pure ()
    | some token => if sasTokenValidate token then pure () else throw .invalidFormat
def ioCsValidate (cs : IoCs) : Except PrxError IoCs :=
  match ioCsGetHostName cs with
  | (_,none) => .error .invalidFormat
  | (cs,some hostName) => do
    ioCsValidateEntries sasTokenValidate cs hostName
    pure cs
def keys : List (Bytes × Option Entry) :=
  [(ascii "HostName",some .hostName),(ascii "DeviceId",some .deviceId),
    (ascii "SharedAccessKeyName",some .sharedAccessKeyName),(ascii "SharedAccessKey",some .sharedAccessKey),
    (ascii "ConsumerGroup",some .consumerGroup),(ascii "Partitions",some .partitionCount),
    (ascii "Endpoint",some .endpoint),(ascii "EntityPath",some .entity),(ascii "EndpointName",some .endpointName),
    (ascii "SharedAccessToken",some .sharedAccessToken),(ascii "SharedAccessKeyHandle",some .sharedAccessKeyHandle),
    -- not used
    (ascii "GatewayHostName",none)]
def ioCsParserCallback (cs : IoCs) (key val : Bytes) : Except PrxError IoCs :=
  match keys.find? fun k => stringIsEqualNocase key k.1 with
  | some (_,some entry) => if (cs entry).isSome then .error .invalidFormat else .ok (cs.set entry (some val))
  | some (_,none) => .ok cs
  | none => .error .invalidFormat
def names : List (Entry × Bytes) :=
  [(.hostName,ascii "HostName="),(.deviceId,ascii "DeviceId="),(.endpoint,ascii "Endpoint="),
    (.entity,ascii "EntityPath="),(.sharedAccessKeyName,ascii "SharedAccessKeyName="),
    (.sharedAccessKey,ascii "SharedAccessKey="),(.consumerGroup,ascii "ConsumerGroup="),
    (.partitionCount,ascii "Partitions="),(.endpointName,ascii "EndpointName="),
    (.sharedAccessToken,ascii "SharedAccessToken="),(.sharedAccessKeyHandle,ascii "SharedAccessKeyHandle=")]
def ioCsAppendEntryToString (cs : IoCs) (entry : Entry) (name string : Bytes) : Bytes :=
  match cs entry with
  | none => string
  | some value => (if string.length > 0 then string ++ ascii ";" else string) ++ name ++ value

def ioCsAppendToString (cs : IoCs) (string : Bytes) : Bytes :=
  names.foldl (fun string e => ioCsAppendEntryToString cs e.1 e.2 string) string
def ioCsToString (cs : IoCs) : Bytes :=
  ioCsAppendToString cs []
def ioCsCreateFromString (string : Bytes) : Except PrxError IoCs := do
  let cs ← stringKeyValueParser ioCsParserCallback 0x3b string (.inKey []) .zero
  ioCsValidate sasTokenValidate cs

def ioCsCreate (hostName : Bytes) (deviceId sharedAccessKeyName sharedAccessKey : Option Bytes) :
    Except PrxError IoCs :=
  ioCsValidate sasTokenValidate <|
    (((IoCs.zero.set .hostName (some hostName)).set .deviceId deviceId).set .sharedAccessKeyName
      sharedAccessKeyName).set .sharedAccessKey sharedAccessKey

inductive Built : IoCs → Prop where
  | text {string cs} : ioCsCreateFromString sasTokenValidate string = .ok cs → Built cs
  | parts {hostName deviceId sharedAccessKeyName sharedAccessKey cs} :
      ioCsCreate sasTokenValidate hostName deviceId sharedAccessKeyName sharedAccessKey = .ok cs → Built cs

def ioCsClone (orig : IoCs) : IoCs :=
  orig

/-- `io_cs_get_hub_name`, which keeps what it returns as an entry. There always is a host name. -/
def ioCsGetHubName (cs : IoCs) : IoCs × Option Bytes :=
  match cs .hubName with
  | some hubName => (cs,some hubName)
  | none =>
    match ioCsGetHostName cs with
    | (cs,none) => (cs,none)
    | (cs,some hostName) =>
      if 0x2e ∈ hostName then
        let hubName := hostName.takeWhile (· ≠ 0x2e)
        (cs.set .hubName (some hubName),some hubName)
      else (cs,none)

def trimChars : Bytes :=
  ascii "/\\ "
def ioCsSetHostName (cs : IoCs) (hostName : Option Bytes) : Except PrxError IoCs :=
  match hostName with
  | none => .error .fault
  | some hostName => do
    ioCsValidateHostName hostName
    pure (cs.set .hostName (some (stringConstructTrim hostName trimChars)))
def ioCsSetDeviceId (cs : IoCs) (deviceId : Option Bytes) : Except PrxError IoCs :=
  match deviceId with
  | none => .ok (cs.set .deviceId none)
  | some deviceId => do
    ioCsValidateDeviceId deviceId
    pure (cs.set .deviceId (some deviceId))
def ioCsSetEndpoint (cs : IoCs) (endpoint : Option Bytes) : IoCs :=
  cs.set .endpoint (endpoint.map fun endpoint => stringTrimBack (stringTrimScheme endpoint) trimChars)

variable {sasTokenValidate : Bytes → Bool} {cs cs' : IoCs}

/-- What validation accepts: a host name and a device whose checks succeed, with a token that the SDK takes. -/
structure IoCs.Valid (sasTokenValidate : Bytes → Bool) (cs : IoCs) : Prop where
  host : ∃ hostName, cs .hostName = some hostName ∧ hostName ≠ [] ∧ ioCsValidateHostName hostName = .ok ()
  device : ∀ deviceId, cs .deviceId = some deviceId → deviceId ≠ [] ∧ ioCsValidateDeviceId deviceId = .ok () ∧
    ∀ token, cs .sharedAccessToken = some token → sasTokenValidate token

lemma ioCsGetHostName_entry (cs : IoCs) : (ioCsGetHostName cs).1 .hostName = (ioCsGetHostName cs).2 := by
  unfold ioCsGetHostName
  split
  · assumption
  · assumption
  · dsimp only
    split_ifs
    · exact IoCs.set_same cs .hostName _
    · assumption
lemma ioCsGetHostName_of_host {hostName} (h : cs .hostName = some hostName) :
    ioCsGetHostName cs = (cs,some hostName) := by
  rw [ioCsGetHostName,h]
lemma IoCs.valid_iff {hostName} (h : cs .hostName = some hostName) :
    cs.Valid sasTokenValidate ↔ hostName ≠ [] ∧ ioCsValidateHostName hostName = .ok () ∧
      ∀ deviceId, cs .deviceId = some deviceId → deviceId ≠ [] ∧ ioCsValidateDeviceId deviceId = .ok () ∧
        ∀ token, cs .sharedAccessToken = some token → sasTokenValidate token := by
  constructor
  · rintro ⟨⟨_,hhost,hne,hvalid⟩,hdevice⟩
    cases h.symm.trans hhost
    exact ⟨hne,hvalid,hdevice⟩
  · rintro ⟨hne,hvalid,hdevice⟩
    exact ⟨⟨hostName,h,hne,hvalid⟩,hdevice⟩
lemma bind_eq_ok_iff {ε α β : Type} {x} {f : α → Except ε β} {b} : x >>= f = .ok b ↔ ∃ a, x = .ok a ∧ f a = .ok b := by
  cases x with
  | error => exact iff_of_false nofun fun ⟨_,h,_⟩ => nomatch h
  | ok a => exact ⟨fun h => ⟨a,rfl,h⟩,fun ⟨_,h,h'⟩ => by cases h; exact h'⟩

lemma ioCsValidateEntries_eq_ok_iff {hostName} (h : cs .hostName = some hostName) :
    ioCsValidateEntries sasTokenValidate cs hostName = .ok () ↔ cs.Valid sasTokenValidate := by
  rw [IoCs.valid_iff h]
  unfold ioCsValidateEntries
  by_cases hempty : hostName = []
  · rw [if_pos hempty]
    exact iff_of_false nofun fun h => h.1 hempty
  cases ioCsValidateHostName hostName with
  | error =>
    rw [if_neg hempty]
    exact iff_of_false nofun fun h => nomatch h.2.1
  | ok =>
    cases cs .deviceId with
    | none => simp [hempty]
    | some deviceId =>
      by_cases hnone : deviceId = []
      · rw [if_neg hempty]
        dsimp only
        rw [if_pos hnone]
        exact iff_of_false nofun fun h => (h.2.2 deviceId rfl).1 hnone
      cases cs .sharedAccessToken with
      | none => simp [hempty,hnone,bind_eq_ok_iff]
      | some token => cases hsas : sasTokenValidate token <;> simp [hempty,hnone,bind_eq_ok_iff,hsas]

lemma ioCsValidate_eq_ok_iff :
    ioCsValidate sasTokenValidate cs = .ok cs' ↔ cs' = (ioCsGetHostName cs).1 ∧ cs'.Valid sasTokenValidate := by
  have hentry := ioCsGetHostName_entry cs
  unfold ioCsValidate
  generalize ioCsGetHostName cs = r at hentry
  obtain ⟨c,host⟩ := r
  cases host with
  | none =>
    refine iff_of_false nofun ?_
    rintro ⟨rfl,hvalid⟩
    obtain ⟨hostName,hhost,-⟩ := hvalid.host
    exact nomatch hentry.symm.trans hhost
  | some =>
    rw [bind_eq_ok_iff]
    constructor
    · rintro ⟨⟨⟩,hentries,hpure⟩
      cases hpure
      exact ⟨rfl,(ioCsValidateEntries_eq_ok_iff hentry).1 hentries⟩
    · rintro ⟨rfl,hvalid⟩
      exact ⟨(),(ioCsValidateEntries_eq_ok_iff hentry).2 hvalid,rfl⟩

open List

variable {text : Bytes}

def firstScheme (text : Bytes) : Option ℕ :=
  (List.range text.length).find? fun i => (ascii "://").isPrefixOf (text.drop i)
def afterScheme (text : Bytes) : Bytes :=
  (firstScheme text).elim text fun i => text.drop (i + 3)

/-- The host name of an endpoint stands between the scheme and the first slash, or the end. -/
structure EndpointHost (text : Bytes) : Prop where
  trimmed : stringTrimScheme text = afterScheme text
  parsed : ∀ cs : IoCs, cs .hostName = none → cs .endpoint = some text →
    (ioCsGetHostName cs).2 = some ((afterScheme text).takeWhile (· ≠ 0x2f))
  set : ∀ cs : IoCs, cs .hostName = none →
    (ioCsGetHostName (ioCsSetEndpoint cs (some text))).2 = some ((afterScheme text).takeWhile (· ≠ 0x2f))

lemma stringTrimScheme_of_none (h : ∀ i, firstScheme text = some i → text.length ≤ i + 8) :
    stringTrimScheme text = text := by
  have hfind : ((List.range (text.length - 8)).find? fun i => (ascii "://").isPrefixOf (text.drop i)) = none := by
    rw [find?_range_eq_none]
    intro i hi
    by_contra hat
    -- the first one stands there or before
    obtain ⟨j,hfirst⟩ : ∃ j, firstScheme text = some j := by
      rw [← Option.isSome_iff_exists,firstScheme,List.find?_isSome]
      exact ⟨i,mem_range.2 (by omega),by simpa using hat⟩
    have hj := h j hfirst
    rw [firstScheme,find?_range_eq_some] at hfirst
    exact hat (hfirst.2.2 i (by omega))
  rw [stringTrimScheme,hfind]
  exact ite_self text
lemma stringTrimScheme_of_some {i} (h : firstScheme text = some i) (hi : i + 8 < text.length) :
    stringTrimScheme text = text.drop (i + 3) := by
  rw [firstScheme,find?_range_eq_some] at h
  have hfind : ((List.range (text.length - 8)).find? fun i => (ascii "://").isPrefixOf (text.drop i)) = some i :=
    find?_range_eq_some.2 ⟨h.1,mem_range.2 (by omega),h.2.2⟩
  rw [stringTrimScheme,hfind]
  exact if_neg (by omega)

/-- A scheme is dropped exactly if more than five characters follow it. -/
lemma stringTrimScheme_eq_iff :
    stringTrimScheme text = afterScheme text ↔ ∀ i, firstScheme text = some i → i + 8 < text.length := by
  cases hfirst : firstScheme text with
  | none =>
    have hnone : stringTrimScheme text = text := stringTrimScheme_of_none (by simp [hfirst])
    simp [hnone,afterScheme,hfirst]
  | some i =>
    rw [afterScheme,hfirst,Option.elim_some]
    constructor
    · rintro heq _ ⟨⟩
      by_contra hi
      have hnone : stringTrimScheme text = text := stringTrimScheme_of_none (by simpa [hfirst] using hi)
      have hlength := congrArg length hnone
      have hpos := mem_range.1 (find?_range_eq_some.1 hfirst).2.1
      rw [heq,length_drop] at hlength
      omega
    · exact fun h => stringTrimScheme_of_some hfirst (h i rfl)

lemma takeWhile_of_isPrefix {c} {val rest : Bytes} (h : val <+: rest) (hc : c ∈ val) :
    val.takeWhile (· ≠ c) = rest.takeWhile (· ≠ c) := by
  obtain ⟨tail,rfl⟩ := h
  induction val with
  | nil => cases hc
  | cons d val ih =>
    by_cases hd : d = c
    · simp [hd]
    · simpa [hd] using ih ((mem_cons.1 hc).resolve_left (Ne.symm hd))

/-- What the setter keeps of an endpoint. -/
def keptEndpoint (text : Bytes) : Bytes :=
  stringTrimBack (afterScheme text) trimChars

/-- No scheme stands near the end, a path follows the host, and a second scheme that is dropped has the host again. -/
structure NamesHost (text : Bytes) : Prop where
  scheme : ∀ i, firstScheme text = some i → i + 8 < text.length
  path : 0x2f ∈ keptEndpoint text
  again : ∀ i, firstScheme (keptEndpoint text) = some i → i + 8 < (keptEndpoint text).length →
    0x2f ∈ (keptEndpoint text).drop (i + 3) ∧
      ((keptEndpoint text).drop (i + 3)).takeWhile (· ≠ 0x2f) = (keptEndpoint text).takeWhile (· ≠ 0x2f)

lemma ioCsGetHostName_endpoint_iff {val} (hhost : cs .hostName = none) (h : cs .endpoint = some text) :
    (ioCsGetHostName cs).2 = some val ↔
      0x2f ∈ stringTrimScheme text ∧ (stringTrimScheme text).takeWhile (· ≠ 0x2f) = val := by
  rw [ioCsGetHostName,hhost,h]
  dsimp only
  split_ifs with hpath <;> simp [hpath]

/-- The host name is that of the endpoint exactly for these endpoints. -/
theorem endpointHost_iff (text : Bytes) : EndpointHost text ↔ NamesHost text := by
  have hstart : keptEndpoint text <+: afterScheme text := rdropWhile_prefix _ _
  have hset : stringTrimScheme text = afterScheme text → ∀ cs : IoCs, cs .hostName = none →
      ((ioCsGetHostName (ioCsSetEndpoint cs (some text))).2 = some ((afterScheme text).takeWhile (· ≠ 0x2f)) ↔
        0x2f ∈ stringTrimScheme (keptEndpoint text) ∧ (stringTrimScheme (keptEndpoint text)).takeWhile (· ≠ 0x2f) =
          (afterScheme text).takeWhile (· ≠ 0x2f)) := by
    intro htrimmed cs hhost
    refine ioCsGetHostName_endpoint_iff hhost ?_
    rw [keptEndpoint,← htrimmed]
    exact IoCs.set_same cs .endpoint _
  constructor
  · intro h
    obtain ⟨hpath,hname⟩ := (hset h.trimmed .zero rfl).1 (h.set .zero rfl)
    have hkept := mem_of_mem_stringTrimScheme hpath
    refine ⟨stringTrimScheme_eq_iff.1 h.trimmed,hkept,fun i hi hlt => ?_⟩
    rw [stringTrimScheme_of_some hi hlt] at hpath hname
    exact ⟨hpath,hname.trans (takeWhile_of_isPrefix hstart hkept).symm⟩
  · intro h
    have htrimmed := stringTrimScheme_eq_iff.2 h.scheme
    refine ⟨htrimmed,fun cs hhost hcs => ?_,fun cs hhost => (hset htrimmed cs hhost).2 ?_⟩
    · exact (ioCsGetHostName_endpoint_iff hhost hcs).2 ⟨htrimmed ▸ hstart.subset h.path,by rw [htrimmed]⟩
    · rw [← takeWhile_of_isPrefix hstart h.path]
      by_cases hsecond : ∃ i, firstScheme (keptEndpoint text) = some i ∧ i + 8 < (keptEndpoint text).length
      · obtain ⟨i,hi,hlt⟩ := hsecond
        rw [stringTrimScheme_of_some hi hlt]
        exact h.again i hi hlt
      · rw [stringTrimScheme_of_none fun i hi => not_lt.1 fun hlt => hsecond ⟨i,hi,hlt⟩]
        exact ⟨h.path,rfl⟩

/-- Without a slash at the end there is no host name. -/
theorem noPath_not_endpointHost : ¬EndpointHost (ascii "sb://hub.net") :=
  fun h => absurd (h.set (fun _ => none) rfl) (by decide)

/-- `io_cs_get_unique_key_name`: the policy or the device at the host. -/
def ioCsGetUniqueKeyName (cs : IoCs) : Except PrxError Bytes := do
  let keyName ← match cs .sharedAccessKeyName, cs .deviceId with
    | some id, _ => pure id
    | none, some id => pure (ascii "device:" ++ id)
    | none, none => throw .notFound
  match (ioCsGetHostName cs).2 with
  | some id => pure (keyName ++ 0x40 :: id)
  | none => pure keyName

structure SameCredential (cs cs' : IoCs) : Prop where
  host : cs .hostName = cs' .hostName
  policy : cs .sharedAccessKeyName = cs' .sharedAccessKeyName
  device : cs .sharedAccessKeyName = none → cs .deviceId = cs' .deviceId

/-- Equal key names are for the same credential. -/
def KeyNameTells (cs cs' : IoCs) : Prop :=
  ∀ keyName, ioCsGetUniqueKeyName cs = .ok keyName → ioCsGetUniqueKeyName cs' = .ok keyName → SameCredential cs cs'

/-- What stands before the host in a key name. -/
def credentialName (cs : IoCs) : Option Bytes :=
  (cs .sharedAccessKeyName).or ((cs .deviceId).map (ascii "device:" ++ ·))

/-- The two ways to read a key name: a policy is called like a device, or another `@` stands before the host. -/
inductive Confused (cs cs' : IoCs) : Prop
  | policy {id} (hhost : cs .hostName = cs' .hostName)
      (hpolicy : cs .sharedAccessKeyName = some (ascii "device:" ++ id)) (hnone : cs' .sharedAccessKeyName = none)
      (hdevice : cs' .deviceId = some id)
  | host {name middle hostName} (hname : credentialName cs = some name)
      (hname' : credentialName cs' = some (name ++ 0x40 :: middle))
      (hhost : cs .hostName = some (middle ++ 0x40 :: hostName)) (hhost' : cs' .hostName = some hostName)

lemma ioCsGetUniqueKeyName_eq_ok_iff {keyName hostName} (hhost : cs .hostName = some hostName) :
    ioCsGetUniqueKeyName cs = .ok keyName ↔
      ∃ name, credentialName cs = some name ∧ name ++ 0x40 :: hostName = keyName := by
  rw [ioCsGetUniqueKeyName,ioCsGetHostName_of_host hhost,credentialName]
  cases cs .sharedAccessKeyName with
  | some => simp [pure,Except.pure,bind,Except.bind]
  | none => cases cs .deviceId <;> simp [pure,Except.pure,bind,Except.bind,throw,throwThe,MonadExceptOf.throw]

lemma append_cons_ne_self {c} {middle hostName : Bytes} : middle ++ c :: hostName ≠ hostName := by
  intro h
  have hlength := congrArg length h
  rw [length_append,length_cons] at hlength
  omega
lemma SameCredential.symm (h : SameCredential cs cs') : SameCredential cs' cs :=
  ⟨h.host.symm,h.policy.symm,fun hnone => (h.device (h.policy.trans hnone)).symm⟩
lemma Confused.not_tells (h : Confused cs cs') (hvalid : cs.Valid sasTokenValidate) : ¬KeyNameTells cs cs' := by
  intro htells
  cases h with
  | policy hhost hpolicy hnone hdevice =>
    obtain ⟨hostName,hhostName,-⟩ := hvalid.host
    have hsame := htells _ ((ioCsGetUniqueKeyName_eq_ok_iff hhostName).2 ⟨_,by rw [credentialName,hpolicy]; rfl,rfl⟩)
      ((ioCsGetUniqueKeyName_eq_ok_iff (hhost ▸ hhostName)).2 ⟨_,by rw [credentialName,hnone,hdevice]; rfl,rfl⟩)
    exact nomatch hpolicy.symm.trans (hsame.policy.trans hnone)
  | host hname hname' hhost hhost' =>
    have hsame := htells _ ((ioCsGetUniqueKeyName_eq_ok_iff hhost).2 ⟨_,hname,rfl⟩)
      ((ioCsGetUniqueKeyName_eq_ok_iff hhost').2 ⟨_,hname',by simp⟩)
    exact append_cons_ne_self (Option.some.inj (hhost.symm.trans (hsame.host.trans hhost')))

/-- Key names are unique exactly for connection strings that are not confused. -/
theorem keyNameTells_iff (hvalid : cs.Valid sasTokenValidate) (hvalid' : cs'.Valid sasTokenValidate) :
    KeyNameTells cs cs' ↔ ¬Confused cs cs' ∧ ¬Confused cs' cs := by
  obtain ⟨hostName,hhost,-⟩ := hvalid.host
  obtain ⟨hostName',hhost',-⟩ := hvalid'.host
  refine ⟨fun h => ⟨fun hc => hc.not_tells hvalid h,
    fun hc => hc.not_tells hvalid' fun _ hk hk' => (h _ hk' hk).symm⟩,?_⟩
  rintro ⟨hnot,hnot'⟩ keyName h h'
  obtain ⟨name,hname,rfl⟩ := (ioCsGetUniqueKeyName_eq_ok_iff hhost).1 h
  obtain ⟨name',hname',heq⟩ := (ioCsGetUniqueKeyName_eq_ok_iff hhost').1 h'
  obtain ⟨rfl,rfl⟩ : name' = name ∧ hostName' = hostName := by
    rcases append_eq_append_iff.1 heq with ⟨_ | ⟨_,middle⟩,rfl,hmiddle⟩ | ⟨_ | ⟨_,middle⟩,rfl,hmiddle⟩
    · simpa using hmiddle
    · cases hmiddle
      exact absurd (.host hname' hname hhost' hhost) hnot'
    · simpa using hmiddle.symm
    · cases hmiddle
      exact absurd (.host hname hname' hhost hhost') hnot
  have hhosts := hhost.trans hhost'.symm
  rw [credentialName] at hname hname'
  cases hpolicy : cs .sharedAccessKeyName with
  | some =>
    cases hpolicy' : cs' .sharedAccessKeyName with
    | some =>
      rw [hpolicy] at hname
      rw [hpolicy'] at hname'
      exact ⟨hhosts,by rw [hpolicy,hpolicy']; exact hname.trans hname'.symm,fun h => nomatch hpolicy.symm.trans h⟩
    | none =>
      rw [hpolicy'] at hname'
      obtain ⟨id,hid,rfl⟩ := Option.map_eq_some_iff.1 hname'
      rw [hpolicy] at hname
      exact absurd (.policy hhosts (hpolicy.trans hname) hpolicy' hid) hnot
  | none =>
    rw [hpolicy] at hname
    obtain ⟨id,hid,rfl⟩ := Option.map_eq_some_iff.1 hname
    cases hpolicy' : cs' .sharedAccessKeyName with
    | some =>
      rw [hpolicy'] at hname'
      exact absurd (.policy hhosts.symm (hpolicy'.trans hname') hpolicy hid) hnot'
    | none =>
      rw [hpolicy'] at hname'
      obtain ⟨id',hid',heq⟩ := Option.map_eq_some_iff.1 hname'
      cases append_cancel_left heq
      exact ⟨hhosts,hpolicy.trans hpolicy'.symm,fun _ => hid.trans hid'.symm⟩

def credential (entry : Entry) (value : String) : IoCs :=
  (IoCs.zero.set .hostName (some (ascii "hub.net"))).set entry (some (ascii value))

/-- The key of a policy is that of its name also for a device. -/
theorem owner_keyNameTells : KeyNameTells (credential .sharedAccessKeyName "owner")
    ((credential .sharedAccessKeyName "owner").set .deviceId (some (ascii "d"))) := by
  have hvalid : (credential .sharedAccessKeyName "owner").Valid fun _ => true := ⟨⟨_,rfl,by decide,rfl⟩,nofun⟩
  refine (keyNameTells_iff hvalid ⟨⟨_,rfl,by decide,rfl⟩,?_⟩).2 ⟨?_,?_⟩
  · rintro _ ⟨⟩
    exact ⟨by decide,rfl,by rintro _ ⟨⟩⟩
  all_goals
    intro h
    cases h with
    | policy _ _ hnone => cases hnone
    | host _ _ hhost hhost' => exact append_cons_ne_self (Option.some.inj (hhost.symm.trans hhost'))

/-- A policy may have the name of a device. -/
theorem deviceName_not_sameCredential : ∃ cs cs' keyName, cs.Valid (fun _ => true) ∧ cs'.Valid (fun _ => true) ∧
    ioCsGetUniqueKeyName cs = .ok keyName ∧ ioCsGetUniqueKeyName cs' = .ok keyName ∧ ¬SameCredential cs cs' := by
  refine ⟨credential .sharedAccessKeyName "device:d",credential .deviceId "d",_,⟨⟨_,rfl,by decide,rfl⟩,nofun⟩,
    ⟨⟨_,rfl,by decide,rfl⟩,?_⟩,rfl,rfl,fun h => nomatch h.policy⟩
  rintro _ ⟨⟩
  exact ⟨by decide,rfl,nofun⟩

end EdgeProxy.Cs
