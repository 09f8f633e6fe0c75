import EdgeProxy.Cs.HubName

/-! # Connection strings in the client

`ConnectionString.cs`, with the items as the entries of the native code.
-/
namespace EdgeProxy.Cs
open List

def ids : List (Bytes × Entry) :=
  [(ascii "HostName",.hostName),(ascii "DeviceId",.deviceId),(ascii "SharedAccessKeyName",.sharedAccessKeyName),
    (ascii "SharedAccessKey",.sharedAccessKey),(ascii "Endpoint",.endpoint),(ascii "ConsumerGroup",.consumerGroup),
    (ascii "PartitionCount",.partitionCount),(ascii "Entity",.entity),(ascii "EndpointName",.endpointName),
    (ascii "SharedAccessToken",.sharedAccessToken)]

variable (other : Bytes → Option Entry)

/-- `Enum.Parse`; what it makes of a text that is not of letters only is `other`. -/
def enumParse (key : Bytes) : Option Entry :=
  match ids.find? fun id => id.1.map toLower = key.map toLower with
  | some id => some id.2
  | none => if (key.map toLower).all fun c => 97 ≤ c ∧ c ≤ 122 then none else other key

def addItem (items : IoCs) (elem : Bytes) : Option IoCs :=
  if 0x3d ∈ elem then
    (enumParse other (elem.takeWhile (· ≠ 0x3d))).bind fun id =>
      if (items id).isSome then none else some (items.set id (elem.dropWhile (· ≠ 0x3d)).tail)
  else none

/-- `ConnectionString.Parse`, `none` for an exception. -/
def clientParse (connectionString : Bytes) : Option IoCs :=
  (connectionString.splitOn 0x3b).foldlM (addItem other) .zero

def clientHubName (items : IoCs) : Option Bytes :=
  (items .hostName).bind fun hostName => if 0x2e ∈ hostName then some (hostName.dropWhile (· ≠ 0x2e)) else none

variable {other : Bytes → Option Entry} {sasTokenValidate : Bytes → Bool} {items items' ctx cs : IoCs}

def pairOf (elem : Bytes) : Bytes × Bytes :=
  (elem.takeWhile (· ≠ 0x3d),(elem.dropWhile (· ≠ 0x3d)).tail)
lemma ids_keys (k) (hk : k ∈ keys) :
    (ids.find? fun id => id.1.map toLower = k.1.map toLower).all (fun id => k.2 = some id.2) ∧
      (k.1.map toLower).all fun c => 97 ≤ c ∧ c ≤ 122 := by
  revert k
  decide +kernel
lemma enumParse_key {key k id} (hk : k ∈ keys) (h : stringIsEqualNocase key k.1)
    (hid : enumParse other key = some id) : k.2 = some id := by
  obtain ⟨hids,hletters⟩ := ids_keys k hk
  rw [enumParse,(of_decide_eq_true h).2,if_pos hletters] at hid
  cases hfind : ids.find? fun id => id.1.map toLower = k.1.map toLower with
  | none =>
    rw [hfind] at hid
    cases hid
  | some =>
    rw [hfind] at hid hids
    cases hid
    exact of_decide_eq_true hids

lemma addItem_eq {elem} (h : addItem other items elem = some items') : 0x3d ∈ elem ∧
    ∀ ctx', ioCsParserCallback items (pairOf elem).1 (pairOf elem).2 = .ok ctx' → items' = ctx' := by
  unfold addItem at h
  split_ifs at h with helem
  obtain ⟨id,hid,h⟩ := Option.bind_eq_some_iff.1 h
  split_ifs at h with hset
  cases h
  refine ⟨helem,fun ctx' hn => ?_⟩
  unfold ioCsParserCallback at hn
  split at hn
  · rename_i hfind
    cases enumParse_key (mem_of_find?_eq_some hfind) (find?_eq_some_iff_append.1 hfind).1 hid
    rw [if_neg hset] at hn
    cases hn
    rfl
  · rename_i hfind
    cases enumParse_key (mem_of_find?_eq_some hfind) (find?_eq_some_iff_append.1 hfind).1 hid
  · cases hn

lemma foldlM_addItem {elems : List Bytes} (h : elems.foldlM (addItem other) items = some items') :
    (∀ elem ∈ elems, 0x3d ∈ elem) ∧ ∀ ctx', (elems.map pairOf).foldlM (fun ctx q => ioCsParserCallback ctx q.1 q.2)
      items = .ok ctx' → items' = ctx' := by
  induction elems generalizing items with
  | nil =>
    cases h
    exact ⟨nofun,fun _ hn => by cases hn; rfl⟩
  | cons elem elems ih =>
    rw [foldlM_cons,Option.bind_eq_bind,Option.bind_eq_some_iff] at h
    obtain ⟨next,hnext,h⟩ := h
    obtain ⟨helem,hnext⟩ := addItem_eq hnext
    obtain ⟨helems,ih⟩ := ih h
    refine ⟨forall_mem_cons.2 ⟨helem,helems⟩,fun ctx' hn => ?_⟩
    obtain ⟨ctx,hctx,hn⟩ := bind_eq_ok_iff.1 hn
    obtain rfl := hnext ctx hctx
    exact ih ctx' hn

lemma pairOf_eq {key val : Bytes} (h : 0x3d ∉ key) : pairOf (key ++ 0x3d :: val) = (key,val) := by
  have hall : ∀ c ∈ key, decide (c ≠ 0x3d) := fun c hc => decide_eq_true fun heq => h (heq ▸ hc)
  rw [pairOf,takeWhile_append_of_pos hall,dropWhile_append_of_pos hall]
  simp
lemma joinKeyValues_pairOf {elems : List Bytes} (h : ∀ elem ∈ elems, 0x3d ∈ elem) :
    joinKeyValues 0x3b (elems.map pairOf) = intercalate [0x3b] elems ∧ ∀ q ∈ elems.map pairOf, 0x3d ∉ q.1 := by
  induction elems with
  | nil => simp [joinKeyValues]
  | cons elem elems ih =>
    obtain ⟨hjoin,hkeys⟩ := ih fun e he => h e (mem_cons_of_mem _ he)
    obtain ⟨key,val,rfl,hkey⟩ := eq_append_cons_of_mem (h elem mem_cons_self)
    rw [map_cons,joinKeyValues_cons,pairOf_eq hkey,hjoin]
    exact ⟨by cases elems <;> simp,forall_mem_cons.2 ⟨hkey,hkeys⟩⟩
lemma stringKeyValueParser_eq {text} (h : clientParse other text = some items)
    (hn : stringKeyValueParser ioCsParserCallback 0x3b text (.inKey []) .zero = .ok ctx) : items = ctx := by
  obtain ⟨helems,hitems⟩ := foldlM_addItem h
  obtain ⟨htext,hkeys⟩ := joinKeyValues_pairOf helems
  have hvalues : ∀ q ∈ (text.splitOn 0x3b).map pairOf, 0x3b ∉ q.2 := by
    rw [forall_mem_map]
    exact fun elem helem hmem => not_mem_of_mem_splitOn helem ((dropWhile_sublist _).mem (mem_of_mem_tail hmem))
  obtain ⟨elem,elems,hsplit⟩ := exists_cons_of_ne_nil (splitOn_ne_nil 0x3b text)
  rw [intercalate_splitOn] at htext
  refine hitems ctx ?_
  rw [hsplit,map_cons] at htext hkeys hvalues ⊢
  rwa [← htext,← append_nil (joinKeyValues _ _),parser_joinKeyValues _ _ hkeys hvalues (.inl rfl)] at hn

lemma not_mem_hubOf {hostName} : 0x2e ∉ hubOf hostName := by
  intro h
  simpa using mem_takeWhile_imp h

/-- The client has the host name, device id, policy name and key of the native code. -/
def SameParts (items cs : IoCs) : Prop :=
  items .hostName = (ioCsGetHostName cs).2 ∧
    ∀ entry ∈ [Entry.deviceId,.sharedAccessKeyName,.sharedAccessKey], items entry = cs entry

/-- The client has the parts of the native code exactly if the text names the host, and never its hub: the name of the
hub is the rest of the host name for the client and its start for the native code. -/
theorem sameParts_iff {text} (hclient : clientParse other text = some items)
    (hnative : ioCsCreateFromString sasTokenValidate text = .ok cs) :
    (SameParts items cs ↔ (items .hostName).isSome) ∧ clientHubName items ≠ (ioCsGetHubName cs).2 := by
  obtain ⟨hvalid,hnone⟩ := Built.valid (.text hnative)
  obtain ⟨hostName,hhost,-,hhostValid⟩ := hvalid.host
  have hdotted : Dotted cs hostName := ⟨hhost,dot_of_validHostName hhostValid⟩
  refine ⟨⟨fun h => ?_,fun h => ?_⟩,?_⟩
  · rw [h.1,ioCsGetHostName_of_host hhost]
    rfl
  · -- nothing is added to the entries that were parsed
    obtain ⟨ctx,hctx,hvalidate⟩ := bind_eq_ok_iff.1 hnative
    cases stringKeyValueParser_eq hclient hctx
    obtain ⟨hostName',hhost'⟩ := Option.isSome_iff_exists.1 h
    have hcs := (ioCsValidate_eq_ok_iff.1 hvalidate).1
    rw [ioCsGetHostName_of_host hhost'] at hcs
    subst hcs
    exact ⟨hhost'.trans (congrArg Prod.snd (ioCsGetHostName_of_host hhost')).symm,fun _ _ => rfl⟩
  · rw [getHubName_of_none hdotted hnone,clientHubName]
    intro heq
    obtain ⟨hostName',-,hrest⟩ := Option.bind_eq_some_iff.1 heq
    split_ifs at hrest with hdot
    -- only the client's name has a dot
    rw [← takeWhile_append_dropWhile (l := hostName'),Option.some.inj hrest,mem_append] at hdot
    exact hdot.elim not_mem_hubOf not_mem_hubOf

def deviceText : Bytes :=
  ascii "HostName=hub.net;DeviceId=d;SharedAccessKey=k="
theorem deviceText_sameParts : ∃ items cs, clientParse (fun _ => none) deviceText = some items ∧
    ioCsCreateFromString (fun _ => true) deviceText = .ok cs ∧ SameParts items cs ∧
      clientHubName items ≠ (ioCsGetHubName cs).2 := by
  have hclient : clientParse (fun _ => none) deviceText = some _ := rfl
  have hnative : ioCsCreateFromString (fun _ => true) deviceText = .ok _ := rfl
  obtain ⟨hparts,hhub⟩ := sameParts_iff hclient hnative
  exact ⟨_,_,hclient,hnative,hparts.2 rfl,hhub⟩
theorem hostOnly_hubName : ∃ items cs, clientParse (fun _ => none) (ascii "HostName=hub.net") = some items ∧
    ioCsCreateFromString (fun _ => true) (ascii "HostName=hub.net") = .ok cs ∧
      clientHubName items = some (ascii ".net") ∧ (ioCsGetHubName cs).2 = some (ascii "hub") :=
  ⟨_,_,rfl,rfl,by decide,by decide⟩

end EdgeProxy.Cs
