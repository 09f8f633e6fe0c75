import EdgeProxy.Ns.Written

/-! # Saving and loading the registry

The file is emptied before the registry is encoded, what was encoded is written even if that failed, and what reaches
the file has no influence on the result. The entries are read back from the value that encoding them builds.
-/
namespace EdgeProxy.Ns
open Base Lib Cs List Option
open Codec hiding Bytes

def IsObject (v : Json) : Prop :=
  ∃ members, v = .object members

/-- What is used of the texts that parson makes of objects: a text is parsed to its value, and no text begins with
another. -/
structure Texts (lib : JsonLibrary Bytes) : Prop where
  parse : ∀ {v text}, IsObject v → lib.serialize v = some text → lib.parse text = some v
  nonempty : ∀ {v text}, IsObject v → lib.serialize v = some text → text ≠ []
  proper : ∀ {v w text text'}, IsObject v → IsObject w →
    lib.serialize v = some text → lib.serialize w = some text' → text <+: text' → text = text'

def Holds (lib : JsonLibrary Bytes) (l : List GenericEntry) (file : Bytes) : Prop :=
  ∃ v, registryValue lib l = some v ∧ lib.serialize v = some file

/-- Afterwards the file holds the previous registry or the new one, and the new one if the save reports success. -/
def SavesSafely (lib : JsonLibrary Bytes) (disk : Disk) (l : List GenericEntry) (file : Bytes) : Prop :=
  let (file',result) := genericRegistrySave lib disk l file
  (file' = file ∨ Holds lib l file') ∧ (result = .ok () → Holds lib l file') ∧ result ≠ .error .undefined

/-- A library that knows the texts of two values. -/
noncomputable def twoTexts (v w : Json) (text text' : Bytes) : JsonLibrary Bytes where
  accepts _ := true
  serialize u := open Classical in if u = v then some text else if u = w then some text' else none
  parse t := if t = text then some v else if t = text' then some w else none
  base64Encode _ := none
  base64Decode _ := none

section

variable {v w u : Json} {text text' t : Bytes}

lemma eq_of_twoTexts (h : (twoTexts v w text text').serialize u = some t) : u = v ∧ t = text ∨ u = w ∧ t = text' := by
  unfold twoTexts at h
  dsimp only at h
  split_ifs at h with hv hw
  · exact .inl ⟨hv,(some.inj h).symm⟩
  · exact .inr ⟨hw,(some.inj h).symm⟩
lemma twoTexts_texts (hne : text ≠ [] ∧ text' ≠ []) (hpre : ¬text <+: text' ∧ ¬text' <+: text) :
    Texts (twoTexts v w text text') where
  parse _ h := by
    obtain ⟨rfl,rfl⟩ | ⟨rfl,rfl⟩ := eq_of_twoTexts h
    · exact if_pos rfl
    · exact (if_neg fun heq : _ = text => hpre.2 (heq ▸ prefix_rfl)).trans (if_pos rfl)
  nonempty _ h := by
    obtain ⟨-,rfl⟩ | ⟨-,rfl⟩ := eq_of_twoTexts h
    · exact hne.1
    · exact hne.2
  proper _ _ h h' hprefix := by
    obtain ⟨-,rfl⟩ | ⟨-,rfl⟩ := eq_of_twoTexts h <;> obtain ⟨-,rfl⟩ | ⟨-,rfl⟩ := eq_of_twoTexts h'
    · rfl
    · exact absurd hprefix hpre.1
    · exact absurd hprefix hpre.2
    · rfl

end

variable {lib : JsonLibrary Bytes} {disk : Disk} {l l₀ : List GenericEntry} {file : Bytes}

variable {v : Json} {memory : ℕ}

lemma registryValue_isObject (h : registryValue lib l = some v) : IsObject v := by
  obtain ⟨_,_,rfl⟩ := map_eq_some_iff.1 h
  exact ⟨_,rfl⟩

lemma jsonFiniCtx_eq_iff (htexts : Texts lib) {w file} (hov : IsObject v) (how : IsObject w)
    (hw : lib.serialize w = some file) :
    jsonFiniCtx lib disk v = file ↔ v = w ∧ disk.buffer ∧ file.length ≤ disk.reaches := by
  rw [jsonFiniCtx]
  cases hv : lib.serialize v with
  | none =>
    refine iff_of_false (fun h => htexts.nonempty how hw h.symm) ?_
    rintro ⟨rfl,-⟩
    cases hv.symm.trans hw
  | some text =>
    dsimp only
    split
    case isFalse hbuffer => exact iff_of_false (fun h => htexts.nonempty how hw h.symm) fun h => hbuffer h.2.1
    case isTrue hbuffer =>
      constructor
      · intro h
        have hpre : file <+: text := h ▸ take_prefix _ _
        have htext := htexts.proper how hov hw hv hpre
        subst htext
        refine ⟨?_,hbuffer,take_eq_self_iff _ |>.1 h⟩
        exact some.inj ((htexts.parse hov hv).symm.trans (htexts.parse how hw))
      · rintro ⟨rfl,-,hlen⟩
        cases hv.symm.trans hw
        exact take_of_length_le hlen

lemma genericRegistrySave_opened (hopens : disk.opens) (hdocument : disk.document) :
    genericRegistrySave lib disk l file =
    (jsonFiniCtx lib disk ((genericRegistryEncode (jsonBuilder lib) l).run ⟨.object [],disk.memory⟩).2.value,
      ((genericRegistryEncode (jsonBuilder lib) l).run ⟨.object [],disk.memory⟩).1) := by
  rw [genericRegistrySave,hopens,hdocument]
  rfl

lemma savesSafely_of_ok (htexts : Texts lib) (hopens : disk.opens) (hdocument : disk.document)
    (hv : registryValue lib l = some v)
    (hrun : (genericRegistryEncode (jsonBuilder lib) l).run ⟨.object [],disk.memory⟩ = (.ok (),⟨v,memory⟩)) :
    SavesSafely lib disk l file ↔ disk.buffer ∧ ∃ text, lib.serialize v = some text ∧ text.length ≤ disk.reaches := by
  have hobject := registryValue_isObject hv
  rw [SavesSafely,genericRegistrySave_opened hopens hdocument,hrun]
  constructor
  · rintro ⟨-,hholds,-⟩
    obtain ⟨w,hw,htext⟩ := hholds rfl
    cases hv.symm.trans hw
    obtain ⟨-,hbuffer,hlen⟩ := (jsonFiniCtx_eq_iff htexts hobject hobject htext).1 rfl
    exact ⟨hbuffer,_,htext,hlen⟩
  · rintro ⟨hbuffer,text,htext,hlen⟩
    have hholds : Holds lib l (jsonFiniCtx lib disk v) := by
      rw [(jsonFiniCtx_eq_iff htexts hobject hobject htext).2 ⟨rfl,hbuffer,hlen⟩]
      exact ⟨v,hv,htext⟩
    exact ⟨.inr hholds,fun _ => hholds,nofun⟩

lemma Remains.holds (h : Remains lib l memory v) (hv : registryValue lib l₀ = some v) :
    ∃ done e rest, l = done ++ e :: rest ∧ registryValue lib done = some v ∧ memory = sizes done + 1 := by
  cases h with
  | nothing =>
    obtain ⟨items,-,⟨⟩⟩ := map_eq_some_iff.1 hv
  | between hl hitems hmemory => exact ⟨_,_,_,hl,by rw [registryValue,hitems]; rfl,hmemory⟩
  | within hversion => exact absurd hv (registryValue_ne_within hversion)
lemma registryValue_ne_of_append {done rest e}
    (hdone : registryValue lib done = some v) : registryValue lib (done ++ e :: rest) ≠ some v := by
  intro hall
  obtain ⟨items,hitems,rfl⟩ := map_eq_some_iff.1 hdone
  obtain ⟨items',hitems',⟨⟩⟩ := map_eq_some_iff.1 hall
  have hlen := (mapM_value hitems).1.symm.trans (mapM_value hitems').1
  simp at hlen

/-- All that is needed is there, or memory runs out just when the previous registry was written. -/
def Disk.Keeps (lib : JsonLibrary Bytes) (disk : Disk) (l : List GenericEntry) (file : Bytes) : Prop :=
  (∃ text, Holds lib l text ∧ sizes l < disk.memory ∧ text.length ≤ disk.reaches) ∨
    file.length ≤ disk.reaches ∧ ∃ done e rest, l = done ++ e :: rest ∧ Holds lib done file ∧
      disk.memory = sizes done + 1

lemma savesSafely_document_iff (htexts : Texts lib) (hfile : Holds lib l₀ file) (hopens : disk.opens)
    (hdocument : disk.document) : SavesSafely lib disk l file ↔ disk.buffer ∧ disk.Keeps lib l file := by
  by_cases hwritable : ∃ v, registryValue lib l = some v ∧ sizes l < disk.memory
  · obtain ⟨v,hv,hmemory⟩ := hwritable
    obtain ⟨memory,hrun⟩ := registryEncode_ok hv hmemory
    rw [savesSafely_of_ok htexts hopens hdocument hv hrun]
    refine and_congr_right fun hbuffer => ?_
    constructor
    · rintro ⟨text,htext,hlen⟩
      exact .inl ⟨text,⟨v,hv,htext⟩,hmemory,hlen⟩
    · rintro (⟨text,⟨w,hw,htext⟩,-,hlen⟩ | ⟨-,done,e,rest,rfl,-,hdone⟩)
      · cases hv.symm.trans hw
        exact ⟨text,htext,hlen⟩
      · -- there would not be memory for all entries
        have hlt := sizes_lt_append done rest e
        omega
  · have hshort : ∀ v ∈ registryValue lib l, disk.memory ≤ sizes l := by
      intro v hv
      by_contra hlt
      exact hwritable ⟨v,hv,by omega⟩
    obtain ⟨stop,v,memory,hrun,hremains⟩ := registryEncode_error hshort
    have hobject : IsObject v := by cases hremains <;> exact ⟨_,rfl⟩
    rw [SavesSafely,genericRegistrySave_opened hopens hdocument,hrun]
    simp only [reduceCtorEq,false_implies,true_and]
    obtain ⟨v₀,hv₀,htext⟩ := hfile
    constructor
    · rintro ⟨hsafe | ⟨w,hw,hwtext⟩,-⟩
      · obtain ⟨rfl,hbuffer,hlen⟩ := (jsonFiniCtx_eq_iff htexts hobject (registryValue_isObject hv₀) htext).1 hsafe
        obtain ⟨done,e,rest,hl,hdone,hmemory⟩ := hremains.holds hv₀
        exact ⟨hbuffer,.inr ⟨hlen,done,e,rest,hl,⟨v,hdone,htext⟩,hmemory⟩⟩
      · obtain ⟨rfl,-,-⟩ := (jsonFiniCtx_eq_iff htexts hobject (registryValue_isObject hw) hwtext).1 rfl
        obtain ⟨done,e,rest,rfl,hdone,-⟩ := hremains.holds hw
        exact absurd hw (registryValue_ne_of_append hdone)
    · rintro ⟨hbuffer,⟨text,⟨w,hw,-⟩,hmemory,-⟩ | ⟨hlen,done,e,rest,rfl,⟨w,hw,hwtext⟩,hmemory⟩⟩
      · exact absurd hmemory (by have := hshort w hw; omega)
      · obtain ⟨memory',hbetween⟩ := registryEncode_between hw
        rw [hmemory] at hrun
        cases hbetween.symm.trans hrun
        exact ⟨.inl ((jsonFiniCtx_eq_iff htexts hobject hobject hwtext).2 ⟨rfl,hbuffer,hlen⟩),nofun⟩

/-- The file is safe exactly if it does not open, or if there is a document and a buffer and the rest keeps it. -/
theorem savesSafely_iff (htexts : Texts lib) (hfile : Holds lib l₀ file) : SavesSafely lib disk l file ↔
    disk.opens = false ∨ disk.document ∧ disk.buffer ∧ disk.Keeps lib l file := by
  cases hopens : disk.opens with
  | false =>
    refine iff_of_true ?_ (.inl rfl)
    rw [SavesSafely,genericRegistrySave,hopens]
    exact ⟨.inl rfl,nofun,nofun⟩
  | true =>
    simp only [reduceCtorEq,false_or]
    cases hdocument : disk.document with
    | false =>
      refine iff_of_false ?_ nofun
      rw [SavesSafely,genericRegistrySave,hopens,hdocument]
      exact fun h => h.2.2 rfl
    | true =>
      rw [and_iff_right rfl]
      exact savesSafely_document_iff htexts hfile hopens hdocument

def gatewayEntry : GenericEntry :=
  ⟨some (ascii "gw"),⟨.replicate 16 1⟩,some (IoCs.zero.set .hostName (some (ascii "hub.net"))),entryTypeGw,1⟩
def proxyEntry : GenericEntry :=
  ⟨some (ascii "px"),⟨.replicate 16 2⟩,some (IoCs.zero.set .hostName (some (ascii "hub.net"))),entryTypeProxy,1⟩

/-- The text that parson makes of a registry, with the members of its entries. -/
def registryText (entries : List (List String)) : Bytes :=
  let entry := fun members => ascii "        \x7b\n            " ++
    intercalate (ascii ",\n            ") (members.map ascii) ++ ascii "\n        \x7d"
  ascii "\x7b\n    \"entries\": [\n" ++ intercalate (ascii ",\n") (entries.map entry) ++ ascii "\n    ]\n\x7d"

def gatewayMembers : List String :=
  ["\"name\": \"gw\"","\"id\": \"01010101-0101-0101-0101-010101010101\"",
    "\"connection-string\": \"HostName=hub.net\"","\"version\": 1"]
def proxyMembers : List String :=
  ["\"name\": \"px\"","\"id\": \"02020202-0202-0202-0202-020202020202\"",
    "\"connection-string\": \"HostName=hub.net\"","\"type\": 2","\"version\": 1"]
def previousText : Bytes :=
  registryText [gatewayMembers]
def newText : Bytes :=
  registryText [gatewayMembers,proxyMembers]

noncomputable def registryDoc (l : List GenericEntry) : Json :=
  (registryValue (twoTexts .null .null [] []) l).getD .null
noncomputable def registryTexts : JsonLibrary Bytes :=
  twoTexts (registryDoc [gatewayEntry]) (registryDoc [gatewayEntry,proxyEntry]) previousText newText
lemma registryTexts_texts : Texts registryTexts :=
  twoTexts_texts (by decide +kernel) (by decide +kernel)
lemma holds_previous : Holds registryTexts [gatewayEntry] previousText :=
  ⟨registryDoc [gatewayEntry],rfl,if_pos rfl⟩
lemma holds_new : Holds registryTexts [gatewayEntry,proxyEntry] newText := by
  have hne : registryDoc [gatewayEntry,proxyEntry] ≠ registryDoc [gatewayEntry] := fun h =>
    nomatch (show Json.object [("entries",.array [_,_])] = .object [("entries",.array [_])] from h)
  exact ⟨registryDoc [gatewayEntry,proxyEntry],rfl,(if_neg hne).trans (if_pos rfl)⟩

theorem added_savesSafely : Texts registryTexts ∧ Holds registryTexts [gatewayEntry] previousText ∧
    SavesSafely registryTexts ⟨true,true,12,true,1000⟩ [gatewayEntry,proxyEntry] previousText := by
  refine ⟨registryTexts_texts,holds_previous,(savesSafely_iff registryTexts_texts holds_previous).2 ?_⟩
  exact .inr ⟨rfl,rfl,.inl ⟨_,holds_new,by decide,by decide +kernel⟩⟩

/-- On a full disk the file is empty afterwards, and the save reports success. -/
theorem fullDisk_not_savesSafely : Texts registryTexts ∧ Holds registryTexts [gatewayEntry] previousText ∧
    genericRegistrySave registryTexts ⟨true,true,12,true,0⟩ [gatewayEntry,proxyEntry] previousText = ([],.ok ()) ∧
    ¬SavesSafely registryTexts ⟨true,true,12,true,0⟩ [gatewayEntry,proxyEntry] previousText := by
  obtain ⟨v,hv,htext⟩ := holds_new
  obtain ⟨memory,hrun⟩ := registryEncode_ok hv (show sizes _ < 12 by decide)
  have hsave : genericRegistrySave registryTexts ⟨true,true,12,true,0⟩ [gatewayEntry,proxyEntry] previousText =
      ([],.ok ()) := by
    rw [genericRegistrySave_opened rfl rfl,hrun,jsonFiniCtx,htext]
    rfl
  refine ⟨registryTexts_texts,holds_previous,hsave,?_⟩
  rw [SavesSafely,hsave]
  rintro ⟨-,hholds,-⟩
  obtain ⟨v,hv,htext⟩ := hholds rfl
  exact registryTexts_texts.nonempty (registryValue_isObject hv) htext rfl

structure GenericEntry.Survives (sasTokenValidate : Bytes → Bool) (e : GenericEntry) : Prop where
  name : ∃ name, e.name = some name ∧ 0 ∉ name
  cs : ∃ cs, e.cs = some cs ∧ 0 ∉ ioCsToString cs ∧ ioCsCreateFromString sasTokenValidate (ioCsToString cs) = .ok cs

variable {τ : Type} {lib : JsonLibrary τ} {palPton : Bytes → Except PrxError SocketAddress} {place : ℕ → Option ℕ}
  {context : Json} {k : ℕ} {mem : Memory} {α : Type}

lemma takeWhile_ne_zero {s : Bytes} (h : 0 ∉ s) : s.takeWhile (· ≠ 0) = s := by
  rw [takeWhile_eq_self_iff]
  intro b hb
  exact decide_eq_true fun hb0 : b = 0 => h (hb0 ▸ hb)
lemma stringValue_eq_some {s : Bytes} {v} (h0 : 0 ∉ s) (h : stringValue lib (some s) = some v) :
    lib.accepts s ∧ v = .string s := by
  rw [stringValue,bind_some] at h
  dsimp only at h
  rw [takeWhile_ne_zero h0] at h
  split at h
  case isTrue haccepts =>
    cases h
    exact ⟨haccepts,rfl⟩
  case isFalse => cases h

lemma ok_stringHandle {name s} (h : context.member name = some (.string s)) :
    Ok ((jsonDecoder lib palPton place).decodeSTRINGHANDLE name) ⟨context,k,mem⟩ (s ++ [0]) ⟨context,k,mem⟩ :=
  jsonReads_string name h ⟨_,_,rfl,rfl⟩
lemma ok_stringIn {s} (h : 0 ∉ s) : Ok (stringIn (s ++ [0]) : JsonDec Bytes) ⟨context,k,mem⟩ s ⟨context,k,mem⟩ := by
  rw [stringIn,cstr_terminated h]
  rfl

lemma ok_uint32 {name v} (h : context.member name = some (uintValue v)) :
    Ok ((jsonDecoder lib palPton place).decodeUint32 name) ⟨context,k,mem⟩ v ⟨context,k,mem⟩ := by
  have hlt : v.toUInt64.toNat < 2 ^ 53 := Nat.lt_trans v.toNat_lt (by decide)
  exact ok_bind.2 ⟨_,_,ok_jsonReadUinteger name hlt h,by simp⟩
lemma run_orElse (x : JsonDec α) (value : α) (s : JsonCtx) :
    (orElse x value).run s = Except.tryCatch (x.run s) fun e => (match e with
      | .err _ => pure value
      | .undefined => throw .undefined : JsonDec α).run s :=
  rfl
lemma ok_orElse {x : JsonDec α} {s t a value} (h : Ok x s a t) : Ok (orElse x value) s a t := by
  have hrun : x.run s = .ok (a,t) := h
  rw [Ok,run_orElse,hrun]
  rfl

lemma ok_type {type} (h : context.member "type" = if type ≠ entryTypeGw then some (uintValue type) else none) :
    Ok (orElse ((jsonDecoder lib palPton place).decodeUint32 "type") entryTypeGw) ⟨context,k,mem⟩ type
      ⟨context,k,mem⟩ := by
  split_ifs at h with hgw
  · exact ok_orElse (ok_uint32 h)
  · have hvalue : (jsonValue (some "type")).run ⟨context,k,mem⟩ = .ok (none,⟨context,k,mem⟩) := by
      rw [← h]
      rfl
    have hread : ((jsonDecoder lib palPton place).decodeUint32 "type").run ⟨context,k,mem⟩ =
        .error (.err .invalidFormat) := by
      change ((jsonReadUinteger (some "type")).run ⟨context,k,mem⟩ >>= _) = _
      rw [jsonReadUinteger,StateT.run_bind,jsonReadNumber,StateT.run_bind,hvalue]
      rfl
    rw [Ok,run_orElse,hread,not_ne_iff.1 hgw]
    rfl

variable {sasTokenValidate : Bytes → Bool} {e : GenericEntry}

lemma ok_ioDecodeCs {context cs} (h : context.member "connection-string" = some (.string (ioCsToString cs)))
    (h0 : 0 ∉ ioCsToString cs) (hcs : ioCsCreateFromString sasTokenValidate (ioCsToString cs) = .ok cs) :
    Ok (ioDecodeCs (jsonDecoder lib palPton place) sasTokenValidate) ⟨context,k,mem⟩ (some cs) ⟨context,k,mem⟩ := by
  refine ok_bind.2 ⟨(),_,rfl,ok_bind.2 ⟨_,_,ok_stringHandle h,ok_bind.2 ⟨_,_,ok_stringIn h0,?_⟩⟩⟩
  rw [hcs]
  rfl

lemma ok_entryDecode {ms : List (String × Json)} (newRef : IoRef) (hms : e.members lib = some ms)
    (he : e.Survives sasTokenValidate) :
    Ok (genericEntryDecode (jsonDecoder lib palPton place) sasTokenValidate newRef) ⟨.object ms,k,mem⟩ e
      ⟨.object ms,k,mem⟩ := by
  obtain ⟨name,hname,hname0⟩ := he.name
  obtain ⟨cs,hcs,hcs0,hback⟩ := he.cs
  rw [GenericEntry.members,hname,hcs] at hms
  obtain ⟨v,hv,hms⟩ := bind_eq_some_iff.1 hms
  obtain ⟨w,hw,hms⟩ := bind_eq_some_iff.1 hms
  obtain ⟨u,hu,hms⟩ := bind_eq_some_iff.1 hms
  obtain ⟨-,rfl⟩ := stringValue_eq_some hname0 hv
  obtain ⟨-,rfl⟩ := stringValue_eq_some (zero_notMem_ioRefToSTRING e.id) hw
  obtain ⟨-,rfl⟩ := stringValue_eq_some hcs0 hu
  cases hms
  refine ok_bind.2 ⟨(),_,rfl,ok_bind.2 ⟨_,_,ok_stringHandle rfl,ok_bind.2 ⟨_,_,ok_stringIn hname0,?_⟩⟩⟩
  refine ok_bind.2 ⟨_,_,ok_orElse (ok_ioDecodeRef newRef rfl),ok_bind.2 ⟨_,_,ok_ioDecodeCs rfl hcs0 hback,?_⟩⟩
  refine ok_bind.2 ⟨e.type,_,ok_type (by split <;> rfl),?_⟩
  refine ok_bind.2 ⟨e.version,_,ok_uint32 (by split <;> rfl),ok_bind.2 ⟨(),_,rfl,?_⟩⟩
  rw [← hname,← hcs]
  rfl

lemma ok_readElement {α : Type} {body all ms} {a : α}
    (hitem : all[k]? = some (.object ms)) (h : Ok (body false) ⟨.object ms,0,mem⟩ a ⟨.object ms,0,mem⟩) :
    Ok (jsonReadObject none body) ⟨.array all,k,mem⟩ a ⟨.array all,k + 1,mem⟩ := by
  refine ok_bind.2 ⟨_,_,ok_jsonObjectValue_element hitem,?_⟩
  refine ok_bind.2 ⟨_,_,ok_get.2 ⟨rfl,rfl⟩,ok_bind.2 ⟨(),_,ok_set.2 rfl,?_⟩⟩
  exact ok_bind.2 ⟨_,_,h,ok_bind.2 ⟨(),_,ok_modify.2 rfl,ok_pure.2 ⟨rfl,rfl⟩⟩⟩

lemma ok_entriesDecode {l all items} (newRef : ℕ → IoRef) (i : ℕ)
    (hitems : l.mapM (GenericEntry.value lib) = some items) (hl : ∀ e ∈ l, e.Survives sasTokenValidate)
    (hall : all.drop k = items) :
    Ok (genericEntriesDecode (jsonDecoder lib palPton place) sasTokenValidate newRef l.length i) ⟨.array all,k,mem⟩ l
      ⟨.array all,k + l.length,mem⟩ := by
  induction l generalizing items k i with
  | nil => exact ok_pure.2 ⟨rfl,rfl⟩
  | cons e l ih =>
    rw [mapM_cons] at hitems
    obtain ⟨v,hv,hitems⟩ := bind_eq_some_iff.1 hitems
    obtain ⟨items',hitems',⟨⟩⟩ := bind_eq_some_iff.1 hitems
    obtain ⟨ms,hms,rfl⟩ := map_eq_some_iff.1 hv
    have hitem : all[k]? = some (.object ms) := by
      rw [← head?_drop,hall]
      rfl
    have hrest : all.drop (k + 1) = items' := by
      rw [← tail_drop,hall]
      rfl
    have helement : Ok (jsonReadObject none fun _ => genericEntryDecode (jsonDecoder lib palPton place)
        sasTokenValidate (newRef i)) ⟨.array all,k,mem⟩ e ⟨.array all,k + 1,mem⟩ :=
      ok_readElement hitem (ok_entryDecode (newRef i) hms (hl e mem_cons_self))
    have hloop := ih (i + 1) hitems' (fun e he => hl e (mem_cons_of_mem _ he)) hrest
    refine ok_bind.2 ⟨e,_,helement,ok_bind.2 ⟨l,_,hloop,ok_pure.2 ⟨rfl,?_⟩⟩⟩
    rw [length_cons,Nat.add_right_comm,Nat.add_assoc]

lemma ok_registryDecode {l v} (newRef : ℕ → IoRef) (hv : registryValue lib l = some v)
    (hl : ∀ e ∈ l, e.Survives sasTokenValidate) :
    Ok (genericRegistryDecode (jsonDecoder lib palPton place) sasTokenValidate newRef) ⟨v,k,mem⟩ l ⟨v,k,mem⟩ := by
  obtain ⟨items,hitems,rfl⟩ := map_eq_some_iff.1 hv
  have hloop : Ok (genericEntriesDecode (jsonDecoder lib palPton place) sasTokenValidate newRef items.length 0)
      ⟨.array items,0,mem⟩ l ⟨.array items,0 + l.length,mem⟩ := by
    rw [(mapM_value hitems).1]
    exact ok_entriesDecode newRef 0 hitems hl rfl
  refine ok_bind.2 ⟨(),_,rfl,ok_bind.2 ⟨l,⟨_,k,mem⟩,?_,ok_bind.2 ⟨(),_,rfl,ok_pure.2 ⟨rfl,rfl⟩⟩⟩⟩
  refine ok_bind.2 ⟨_,_,ok_jsonValue rfl,ok_bind.2 ⟨_,_,ok_get.2 ⟨rfl,rfl⟩,ok_bind.2 ⟨(),_,ok_set.2 rfl,?_⟩⟩⟩
  exact ok_bind.2 ⟨_,_,hloop,ok_bind.2 ⟨(),_,ok_modify.2 rfl,ok_pure.2 ⟨rfl,rfl⟩⟩⟩

variable {lib : JsonLibrary Bytes} {palPton : Bytes → Except PrxError SocketAddress} {sasTokenValidate : Bytes → Bool}
  {l : List GenericEntry}

lemma load_of_holds (htexts : Texts lib) {file} (hfile : Holds lib l file) (newRef : ℕ → IoRef)
    (hl : ∀ e ∈ l, e.Survives sasTokenValidate) :
    genericRegistryLoad lib palPton sasTokenValidate newRef (some file) = some (.entries l) := by
  obtain ⟨v,hv,htext⟩ := hfile
  have hdecode : (genericRegistryDecode (jsonDecoder lib palPton fun _ => none) sasTokenValidate newRef).run
      ⟨v,0,⟨none,0⟩⟩ = .ok (l,_) := ok_registryDecode newRef hv hl
  have hobject := registryValue_isObject hv
  rw [genericRegistryLoad,if_neg (htexts.nonempty hobject htext),htexts.parse hobject htext]
  dsimp only
  rw [hdecode]

structure Disk.Suffices (lib : JsonLibrary Bytes) (disk : Disk) (l : List GenericEntry) : Prop where
  opens : disk.opens
  document : disk.document
  memory : sizes l < disk.memory
  buffer : disk.buffer
  reaches : ∃ text, Holds lib l text ∧ text.length ≤ disk.reaches

/-- The registry that loads the file which another one saved has the same entries. -/
theorem load_saved (htexts : Texts lib) {disk : Disk} (hdisk : disk.Suffices lib l)
    (hl : ∀ e ∈ l, e.Survives sasTokenValidate) (newRef : ℕ → IoRef) (file : Bytes) :
    ∃ text content, genericRegistrySave lib disk l file = (text,.ok ()) ∧
      genericRegistryLoad lib palPton sasTokenValidate newRef (some text) = some content ∧
        Registry.load true .new content = (⟨l.map some,l.length⟩,.ok ()) := by
  obtain ⟨text,hholds,hlen⟩ := hdisk.reaches
  obtain ⟨v,hv,htext⟩ := hholds
  obtain ⟨memory,hrun⟩ := registryEncode_ok hv hdisk.memory
  refine ⟨text,.entries l,?_,load_of_holds htexts ⟨v,hv,htext⟩ newRef hl,rfl⟩
  rw [genericRegistrySave_opened hdisk.opens hdisk.document,hrun]
  have hobject := registryValue_isObject hv
  rw [(jsonFiniCtx_eq_iff htexts hobject hobject htext).2 ⟨rfl,hdisk.buffer,hlen⟩]

theorem entries_loaded : ∃ text content,
    genericRegistrySave registryTexts ⟨true,true,12,true,1000⟩ [gatewayEntry,proxyEntry] [] = (text,.ok ()) ∧
      genericRegistryLoad registryTexts (fun _ => .error .invalidFormat) (fun _ => true) (fun _ => ⟨.replicate 16 0⟩)
        (some text) = some content ∧
      Registry.load true .new content = (⟨[some gatewayEntry,some proxyEntry],2⟩,.ok ()) := by
  refine load_saved registryTexts_texts ⟨rfl,rfl,by decide,rfl,_,holds_new,by decide +kernel⟩ ?_ _ []
  intro e he
  rcases List.mem_pair.1 he with rfl | rfl <;> exact ⟨⟨_,rfl,by decide⟩,⟨_,rfl,by decide,rfl⟩⟩

end EdgeProxy.Ns
