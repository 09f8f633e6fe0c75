import EdgeProxy.Client.Understood

/-! # What the client sends

The bytes that the client writes for a message are the native format of what the message means, up to the null objects
that stand for zeroed ones and the order of the options.
-/
namespace EdgeProxy.Client

open Lib.MessagePack Codec.Value Item
open Codec (obj bin str int32 uint32 uint16 uint8 castLength prxSoMax)

def Puts (w : Write Unit) (items : List Item) : Prop :=
  Writes w (Item.serList format items)

variable {w w' : Write Unit} {i : Item} {is js : List Item}

lemma puts_single_iff : Puts w [i] ↔ Writes w (i.ser format) := by
  rw [Puts,serList_singleton]
lemma Puts.item (h : Puts w [i]) (h' : Puts w' js) : Puts (w >>= fun _ => w') (i :: js) := by
  exact (puts_single_iff.1 h).seq h'
lemma puts_pure : Puts (pure ()) [] :=
  writes_pure

lemma puts_object {k} (hk : is.length = k) (hlen : decide (k + 1 < 2 ^ 31)) (h : Puts w is) :
    Puts (writeObjectHeader k >>= fun _ => w) [obj is] := by
  subst hk
  have hlen := of_decide_eq_true hlen
  apply puts_single_iff.2
  rw [ser_obj hlen,writeObjectHeader,Nat.mod_eq_of_lt hlen]
  exact ((writes_arrayHeader _).seq (writes_write [0xc0])).seq h

lemma puts_nil : Puts writeNil [.nil] :=
  puts_single_iff.2 (writes_write [0xc0])
lemma puts_bool (v : Bool) : Puts (writeBool v) [.bool v] := by
  cases v <;> exact writes_write _
lemma puts_uint8 (v : UInt8) : Puts (writeByte v) [uint8 v] :=
  puts_single_iff.2 ((writes_byte v).of_eq (by simp [ser,format,uint8]))
lemma puts_uint16 (v : UInt16) : Puts (writeUShort v) [uint16 v] :=
  puts_single_iff.2 ((writes_ushort v).of_eq (by simp [ser,format,uint16]))
lemma puts_uint32 (v : UInt32) : Puts (writeUInt v) [uint32 v] :=
  puts_single_iff.2 ((writes_uint v).of_eq (by simp [ser,format,uint32]))
lemma puts_uint64 (v : UInt64) : Puts (writeULong v) [.uint v] :=
  puts_single_iff.2 (writes_ulong v)
lemma puts_int32 (v : Int32) : Puts (writeInt v) [int32 v] :=
  puts_single_iff.2 ((writes_int v).of_eq (by simp [ser,format,int32]))

lemma puts_int64 {v} (h : 0 ≤ v) : Puts (writeLong v) [.uint v.toUInt64] := by
  have hbits : v.toUInt64.toNat = _ := toNat_bits v.toBitVec
  have hv : 0 ≤ v.toInt := Int64.le_iff_toInt_le.1 h
  change _ = if 0 ≤ v.toInt then v.toInt.toNat else (v.toInt + 2 ^ 64).toNat at hbits
  rw [if_pos hv] at hbits
  refine puts_single_iff.2 ((writes_long v).of_eq ?_)
  rw [packInt,if_pos hv,← hbits]
  rfl

variable {t : Int32} {s : Option String}

lemma puts_propertyType (h : 0 ≤ t.toInt) : Puts (writeUInt t.toUInt32) [int32 t] := by
  refine puts_single_iff.2 ((writes_uint _).of_eq ?_)
  rw [toNat_propertyType h]
  simp [ser,format,int32,packInt,h]
lemma puts_bin {d} (h : d.length < 2 ^ 32) : Puts (writeBytes (some d)) [bin d] := by
  apply puts_single_iff.2
  rw [ser_bin,Codec.castLength_of_lt h]
  exact (writes_binHeader _).seq (writes_write d)
lemma puts_str {s} (h : (utf8 s).length < 2 ^ 31) : Puts (writeString (some s)) [str (utf8 s)] := by
  apply puts_single_iff.2
  rw [ser_str,Codec.castLength_of_lt (by omega),writeString,if_pos h]
  exact (writes_strHeader _).seq (writes_write _)

open Option

lemma puts_array {n d v} (h : denoteArray n d = some v) (hn : decide (n < 2 ^ 32)) :
    Puts (writeBytes d) [bin v.toList] := by
  have hn := of_decide_eq_true hn
  obtain ⟨d,rfl,hv⟩ := bind_eq_some_iff.1 h
  rw [toVector] at hv
  split_ifs at hv
  cases hv
  exact puts_bin (by omega)
lemma eq_some_of_denoteString {P} [DecidablePred P] {t : { t : Bytes // P t }}
    (h : denoteString P s = some t) : ∃ s', s = some s' ∧ utf8 s' = t.1 := by
  cases s with
  | none => cases h
  | some s => exact ⟨s,rfl,denoteString_some_iff.1 h⟩
lemma puts_text {t} (h : denoteText s = some t) (hlen : t.1.length < 2 ^ 31) : Puts (writeString s) [str t.1] := by
  obtain ⟨s,rfl,hs⟩ := eq_some_of_denoteString h
  rw [← hs] at hlen ⊢
  exact puts_str hlen
lemma puts_fixedText {n t} (h : denoteFixedText n s = some t) (hn : decide (n ≤ 2 ^ 31)) :
    Puts (writeString s) [str t.1] := by
  have hn := of_decide_eq_true hn
  obtain ⟨s,rfl,hs⟩ := eq_some_of_denoteString h
  have hlen := t.2.2
  rw [← hs] at hlen ⊢
  exact puts_str (by omega)

variable {π : Type}

lemma puts_reference (r : Option Reference) :
    ∃ i, (denoteReference r).SentAs default i ∧ Puts (writeReference r) [i] := by
  cases r with
  | none => exact ⟨.nil,.inr ⟨rfl,rfl⟩,puts_nil⟩
  | some => exact ⟨_,.inl rfl,puts_object rfl rfl (puts_bin (by simp))⟩
lemma denote_default : (default : Codec.SocketAddress).denote = some .unspec :=
  rfl

lemma puts_address {a v} (h : denoteAddress a = some v) {old} (hold : old.denote = some .unspec) :
    ∃ i, v.SentAs old i ∧ Puts (writeSocketAddress a) [i] := by
  rcases a with _ | a
  · cases h
    exact ⟨.nil,.inr ⟨rfl,hold⟩,puts_nil⟩
  refine ⟨v.wire,.inl rfl,?_⟩
  cases a with
  | null =>
    cases h
    exact puts_object rfl rfl (puts_int32 familyUnspecified)
  | inet4 address port =>
    obtain ⟨addr,haddr,rfl⟩ := map_eq_some_iff.1 h
    refine puts_object rfl rfl ((puts_int32 familyInterNetwork).item ?_)
    exact (puts_uint16 port).item (puts_array haddr rfl)
  | inet6 address port flow scopeId =>
    obtain ⟨addr,haddr,rfl⟩ := map_eq_some_iff.1 h
    refine puts_object rfl rfl ((puts_int32 familyInterNetworkV6).item ?_)
    refine (puts_uint16 port).item ((puts_uint32 flow).item ?_)
    exact (puts_array haddr rfl).item (puts_uint32 scopeId)
  | proxy host port flags interfaceIndex =>
    obtain ⟨t,ht,rfl⟩ := map_eq_some_iff.1 h
    refine puts_object rfl rfl ((puts_int32 familyProxy).item ?_)
    refine (puts_uint16 port).item ((puts_uint16 flags).item ?_)
    exact (puts_int32 interfaceIndex).item (puts_fixedText ht rfl)
  | unix =>
    obtain ⟨t,ht,rfl⟩ := map_eq_some_iff.1 h
    exact puts_object rfl rfl ((puts_int32 familyUnix).item (puts_fixedText ht rfl))
  | collection | bound => cases h

lemma puts_multicast {o v} (h : denoteMulticast o = some v) : Puts (writeMulticastOption (some o)) [v.wire] := by
  cases o with
  | inet4 interfaceIndex address | inet6 interfaceIndex address =>
    obtain ⟨addr,haddr,rfl⟩ := map_eq_some_iff.1 h
    refine puts_object rfl rfl ((puts_int32 _).item ?_)
    exact (puts_int32 interfaceIndex).item (puts_array haddr rfl)
lemma puts_fileInfo {info v} (h : denoteFileInfo info = some v) : Puts (writeFileInfo (some info)) [v.wire] := by
  rw [denoteFileInfo] at h
  split_ifs at h with hnatural
  cases h
  obtain ⟨hnode,hdevice,hsize,hatime,hmtime⟩ := hnatural
  refine puts_object rfl rfl ?_
  refine (puts_int64 hnode).item ((puts_int64 hdevice).item ((puts_int32 info.type).item ?_))
  exact (puts_int64 hsize).item ((puts_int64 hatime).item (puts_int64 hmtime))
lemma puts_interfaceInfo {info v} (h : denoteInterfaceInfo info = some v)
    {old} (haddress : old.address.denote = some .unspec) (hbroadcast : old.broadcastAddr.denote = some .unspec) :
    ∃ i, v.SentAs old i ∧ Puts (writeInterfaceInfo (some info)) [i] := by
  obtain ⟨address,hv,h⟩ := bind_eq_some_iff.1 h
  obtain ⟨name,hname,h⟩ := bind_eq_some_iff.1 h
  obtain ⟨broadcastAddr,hv',⟨⟩⟩ := bind_eq_some_iff.1 h
  obtain ⟨a,ha,hputs⟩ := puts_address hv haddress
  obtain ⟨b,hb,hputs'⟩ := puts_address hv' hbroadcast
  refine ⟨_,⟨a,b,ha,hb,rfl⟩,puts_object rfl rfl (hputs.item ?_)⟩
  refine (puts_uint8 info.subnetPrefix).item ((puts_uint8 info.flags).item ?_)
  exact (puts_fixedText hname rfl).item ((puts_int32 info.index).item hputs')
lemma writePropertyValue_option (h : Codec.IsPlainOption t) (value : UInt64) :
    writePropertyValue t.toUInt32 (.number value) = writeULong value := by
  obtain ⟨hmulticast,hfile,haddress,hinterface,hrecord,hoption⟩ := cases_option h
  rw [writePropertyValue,if_neg hmulticast,if_neg hfile,if_neg haddress,if_neg hinterface,if_neg hrecord,if_pos hoption]
lemma writePropertyValue_record (h : Codec.isRecordType t) (value : Option Bytes) :
    writePropertyValue t.toUInt32 (.bytes value) = writeBytes value := by
  obtain ⟨hmulticast,hfile,haddress,hinterface,hrecord⟩ := cases_record h
  rw [writePropertyValue,if_neg hmulticast,if_neg hfile,if_neg haddress,if_neg hinterface,if_pos hrecord]
lemma puts_typedProperty {value i} (htype : 0 ≤ t.toInt) (h : Puts (writePropertyValue t.toUInt32 value) [i]) :
    Puts (writeProperty (some ⟨t.toUInt32,value⟩)) [obj [int32 t,i]] :=
  puts_object rfl rfl ((puts_propertyType htype).item h)

lemma puts_property {π : Type} {p v} (h : p.Means v) (hv : UnderstoodValue v) :
    ∃ i, v.SentAs (Codec.Property.zero : Codec.Property π) i ∧ Puts (writeProperty (some p)) [i] := by
  cases v with
  | option type value =>
    obtain rfl : p = _ := h
    have htype := propertyType_option type.2
    refine ⟨_,rfl,puts_typedProperty (by omega) ?_⟩
    rw [writePropertyValue_option type.2]
    exact puts_uint64 value
  | multicast type =>
    obtain ⟨o,ho,rfl⟩ := h
    obtain ⟨type,rfl | rfl⟩ := type <;> exact ⟨_,rfl,puts_typedProperty (by decide) (puts_multicast ho)⟩
  | record type =>
    obtain rfl : p = _ := h
    have htype := propertyType_record type.2
    refine ⟨_,rfl,puts_typedProperty (by omega) ?_⟩
    rw [writePropertyValue_record type.2]
    rw [UnderstoodValue] at hv
    exact puts_bin (by omega)
  | fileInfo =>
    obtain ⟨info,hinfo,rfl⟩ := h
    exact ⟨_,rfl,puts_typedProperty (by decide) (puts_fileInfo hinfo)⟩
  | addrInfo =>
    obtain ⟨info,haddress,hname,rfl⟩ := h
    obtain ⟨a,ha,hputs⟩ := puts_address haddress denote_default
    exact ⟨_,⟨a,ha,rfl⟩,puts_typedProperty (by decide)
      (puts_object rfl rfl (hputs.item (puts_text hname hv.2.2)))⟩
  | ifAddrInfo =>
    obtain ⟨info,hinfo,rfl⟩ := h
    have hold : (.zero : Codec.Property π).itfInfo.address.denote = some .unspec := rfl
    obtain ⟨i,hi,hputs⟩ := puts_interfaceInfo hinfo hold rfl
    exact ⟨_,⟨i,hi,rfl⟩,puts_typedProperty (by decide) hputs⟩

lemma puts_option {p v} (h : p.Means v) (hv : UnderstoodValue v)
    (htype : Codec.isSocketOption v.type) : Puts (writeProperty (some p)) [v.wire] := by
  obtain ⟨i,hi,hputs⟩ := puts_property (π := Unit) h hv
  cases v with
  | addrInfo => exact absurd (show Codec.isSocketOption Codec.prxPropertyTypeAddrinfo from htype) (by decide)
  | ifAddrInfo => exact absurd (show Codec.isSocketOption Codec.prxPropertyTypeIfaddrinfo from htype) (by decide)
  | _ => exact hi ▸ hputs
lemma puts_properties {ps values} (h : denoteProperties ps = some values) (hv : ∀ v ∈ values, UnderstoodValue v)
    (htype : ∀ v ∈ values, Codec.isSocketOption v.type) : Puts (writeProperties ps) (values.map wire) := by
  induction ps generalizing values with
  | nil =>
    cases h
    exact puts_pure
  | cons p ps ih =>
    obtain ⟨v,hp,h⟩ := bind_eq_some_iff.1 h
    obtain ⟨values,hps,⟨⟩⟩ := bind_eq_some_iff.1 h
    obtain ⟨p,rfl,hp⟩ := bind_eq_some_iff.1 hp
    rw [List.forall_mem_cons] at hv htype
    exact (puts_option (Property.means_of_denote hp) hv.1 htype.1).item (ih hps hv.2 htype.2)
def slotOf (t : Int32) : Fin prxSoMax :=
  ⟨t.toInt.toNat % prxSoMax,Nat.mod_lt _ (by decide)⟩
lemma ofNat_slotOf (h : Codec.isSocketOption t) : .ofNat (slotOf t).1 = t := by
  have hlo : 0 < t.toInt := Int32.lt_iff_toInt_lt.1 h.1
  have hhi : t.toInt < 34 := Int32.lt_iff_toInt_lt.1 h.2
  apply Int32.toInt_inj.1
  rw [Codec.toInt_slot]
  change t.toInt.toNat % 34 = t.toInt
  omega

section

variable {values : List Codec.Value} (htype : ∀ v ∈ values, Codec.isSocketOption v.type)
  (hn : (values.map Codec.Value.type).Nodup)
include htype hn

lemma nodup_slots : (values.map fun v => slotOf v.type).Nodup := by
  apply List.Nodup.of_map (fun i => Int32.ofNat i.1)
  rw [List.map_map]
  have hmap : values.map ((fun i => .ofNat i.1) ∘ fun v => slotOf v.type) = values.map type :=
    List.map_congr_left fun v hv => ofNat_slotOf (htype v hv)
  rwa [hmap]
lemma filterMap_slotted : (values.map fun v => slotOf v.type).filterMap (slotted values) = values := by
  have hslot : ∀ v ∈ values, slotted values (slotOf v.type) = some v := fun v hv =>
    (slotted_eq_some_iff hn).2 ⟨hv,(ofNat_slotOf (htype v hv)).symm⟩
  rw [List.filterMap_map]
  exact (List.filterMap_congr hslot).trans List.filterMap_some
lemma mem_slots {j} (h : (slotted values j).isSome) : j ∈ values.map fun v => slotOf v.type := by
  obtain ⟨v,hv⟩ := isSome_iff_exists.1 h
  obtain ⟨hmem,hj⟩ := (slotted_eq_some_iff hn).1 hv
  refine List.mem_map.2 ⟨v,hmem,slot_injective ?_⟩
  rw [ofNat_slotOf (htype v hmem),hj]

end

lemma puts_arrayHeader {items w} (hlen : items.length < 2 ^ 32) (h : Puts w items) :
    Puts (writeArrayHeader items.length >>= fun _ => w) [.arr items] := by
  apply puts_single_iff.2
  refine ((writes_arrayHeader _).seq h).of_eq ?_
  change _ = packArray (UInt32.ofNat items.length).toNat ++ _
  rw [UInt32.toNat_ofNat',Nat.mod_eq_of_lt hlen]
  rfl

lemma puts_set {options o} (h : denoteOptions options = some o) (hv : ∀ i v, o i = some v → UnderstoodValue v) :
    ∃ slots : List (Fin prxSoMax), slots.Nodup ∧ (∀ j, (o j).isSome → j ∈ slots) ∧
      Puts (writeSet options) [.arr (o.wire slots)] := by
  obtain ⟨values,hvalues,hslotted⟩ := bind_eq_some_iff.1 h
  obtain ⟨ps,rfl,hps⟩ := bind_eq_some_iff.1 hvalues
  split_ifs at hslotted with hset
  cases hslotted
  obtain ⟨htype,hn⟩ := hset
  refine ⟨_,nodup_slots htype hn,fun j => mem_slots htype hn,?_⟩
  rw [Codec.Options.wire,filterMap_slotted htype hn]
  have hcount : ps.length = (values.map wire).length := by
    simpa using congrArg List.length (denoteProperties_eq_some_iff.1 hps)
  have hle : (values.map wire).length ≤ prxSoMax := by
    simpa using (nodup_slots htype hn).length_le_card
  have hmax : prxSoMax = 34 := rfl
  rw [writeSet,hcount]
  refine puts_arrayHeader (by omega) (puts_properties hps (fun v hmem => ?_) htype)
  exact hv (slotOf v.type) v ((slotted_eq_some_iff hn).2 ⟨hmem,(ofNat_slotOf (htype v hmem)).symm⟩)

lemma puts_socketInfo {π : Type} {info p} (h : denoteSocketInfo info = some p)
    (hp : UnderstoodProps p) {old : Codec.SocketProperties π} (hold : old.address.denote = some .unspec) :
    ∃ i, p.SentAs old i ∧ Puts (writeSocketInfo (some info)) [i] := by
  obtain ⟨address,haddress,h⟩ := bind_eq_some_iff.1 h
  obtain ⟨options,hoptions,⟨⟩⟩ := bind_eq_some_iff.1 h
  obtain ⟨a,ha,hputs⟩ := puts_address haddress hold
  obtain ⟨slots,hn,hslots,hset⟩ := puts_set hoptions hp.2.2.2.2.2
  refine ⟨_,⟨a,slots,ha,hn,hslots,rfl⟩,puts_object rfl rfl ?_⟩
  refine (puts_int32 info.family).item ((puts_int32 info.type).item ((puts_int32 info.protocol).item ?_))
  exact (puts_uint32 info.flags).item ((puts_uint64 info.timeout).item (hputs.item hset))

variable {π : Type}

lemma puts_content {c isResponse b} (h : c.denote isResponse = some b) (hb : UnderstoodBody b) :
    ∃ i, b.SentAs (Codec.Content.zero : Codec.Content π) i ∧ Puts (writeContent c) [i] := by
  cases c with
  | data sequenceNumber =>
    obtain ⟨address,haddress,hpayload⟩ := bind_eq_some_iff.1 h
    obtain ⟨buffer,rfl,hcontrol⟩ := bind_eq_some_iff.1 hpayload
    obtain ⟨controlBuffer,rfl,⟨⟩⟩ := bind_eq_some_iff.1 hcontrol
    obtain ⟨-,hbuffer,hcontrol⟩ := hb
    obtain ⟨a,ha,hputs⟩ := puts_address haddress denote_default
    refine ⟨_,⟨a,ha,rfl⟩,puts_object rfl rfl ((puts_uint64 sequenceNumber).item ?_)⟩
    exact hputs.item ((puts_bin (by omega)).item (puts_bin (by omega)))
  | closeResponse timeOpenInMilliseconds bytesSent bytesReceived errorCode =>
    cases h
    obtain ⟨rfl,-⟩ := hb
    refine ⟨_,rfl,puts_object rfl rfl ((puts_uint64 timeOpenInMilliseconds).item ?_)⟩
    exact (puts_uint64 _).item ((puts_uint64 _).item (puts_int32 errorCode))
  | pingRequest =>
    obtain ⟨address,haddress,rfl⟩ := map_eq_some_iff.1 h
    obtain ⟨a,ha,hputs⟩ := puts_address haddress denote_default
    exact ⟨_,⟨a,ha,rfl⟩,puts_object rfl rfl hputs⟩
  | pingResponse socketAddress physicalAddress timeMs =>
    obtain ⟨address,haddress,h⟩ := bind_eq_some_iff.1 h
    obtain ⟨physical,hphysical,⟨⟩⟩ := bind_eq_some_iff.1 h
    obtain ⟨a,ha,hputs⟩ := puts_address haddress denote_default
    refine ⟨_,⟨a,ha,rfl⟩,puts_object rfl rfl (hputs.item ?_)⟩
    exact (puts_array hphysical rfl).item (puts_uint32 timeMs)
  | pollRequest sequenceNumber timeout =>
    cases h
    exact ⟨_,rfl,puts_object rfl rfl ((puts_uint64 sequenceNumber).item (puts_uint64 timeout))⟩
  | linkRequest version =>
    obtain ⟨p,hp,rfl⟩ := map_eq_some_iff.1 h
    obtain ⟨info,rfl,hp⟩ := bind_eq_some_iff.1 hp
    have hold : (.zero : Codec.Content π).linkRequest.props.address.denote = some .unspec := rfl
    obtain ⟨i,hi,hputs⟩ := puts_socketInfo hp hb hold
    exact ⟨_,⟨i,hi,rfl⟩,puts_object rfl rfl ((puts_uint8 version).item hputs)⟩
  | linkResponse linkId =>
    obtain ⟨local',hlocal,h⟩ := bind_eq_some_iff.1 h
    obtain ⟨peer,hpeer,⟨⟩⟩ := bind_eq_some_iff.1 h
    obtain ⟨r,hr,hputs⟩ := puts_reference linkId
    obtain ⟨a,ha,hputsLocal⟩ := puts_address hlocal denote_default
    obtain ⟨a',ha',hputsPeer⟩ := puts_address hpeer denote_default
    exact ⟨_,⟨r,a,a',hr,ha,ha',rfl⟩,puts_object rfl rfl (hputs.item (hputsLocal.item hputsPeer))⟩
  | openRequest streamId type connectionString isPolled maxReceiveBuffer =>
    obtain ⟨t,ht,rfl⟩ := map_eq_some_iff.1 h
    obtain ⟨r,hr,hputs⟩ := puts_reference streamId
    refine ⟨_,⟨r,hr,rfl⟩,puts_object rfl rfl (hputs.item ((puts_int32 type).item ?_))⟩
    exact (puts_text ht hb.2.2).item ((puts_bool isPolled).item (puts_uint32 maxReceiveBuffer))
  | setOptRequest optionValue | getOptResponse optionValue =>
    obtain ⟨v,hv,rfl⟩ := map_eq_some_iff.1 h
    obtain ⟨p,rfl,hp⟩ := bind_eq_some_iff.1 hv
    obtain ⟨i,hi,hputs⟩ := puts_property (Property.means_of_denote hp) hb
    exact ⟨_,⟨i,hi,rfl⟩,puts_object rfl rfl hputs⟩
  | getOptRequest option =>
    cases h
    exact ⟨_,rfl,puts_object rfl rfl (puts_int32 option)⟩
  | _ =>
    cases h
    exact ⟨_,rfl,puts_nil⟩

lemma writes_message {m v} (h : m.denote = some v) (hv : Understood v) (htype : m.typeId = v.body.type.code) :
    ∃ i, v.SentAs m.version (Codec.IoMessage.zero : Codec.IoMessage π) i ∧ Writes (writeMessage m) (i.ser format) := by
  obtain ⟨content,hcontent,hbody,hresponse,-,hsource,hproxy,htarget,herror⟩ := Message.denote_eq_some_iff.1 h
  obtain ⟨i,hi,hputs⟩ := puts_content hbody hv.2
  obtain ⟨source,hs,hputsSource⟩ := puts_reference m.source
  obtain ⟨proxy,hp,hputsProxy⟩ := puts_reference m.proxy
  obtain ⟨target,ht,hputsTarget⟩ := puts_reference m.target
  rw [hsource] at hs
  rw [hproxy] at hp
  rw [htarget] at ht
  refine ⟨_,⟨source,proxy,target,i,hs,hp,ht,hi,rfl⟩,puts_single_iff.1 ?_⟩
  rw [writeMessage,hcontent,htype,← hresponse,herror]
  refine puts_object rfl rfl ((puts_uint32 m.version).item ?_)
  refine hputsSource.item (hputsProxy.item (hputsTarget.item ?_))
  exact (puts_int32 v.errorCode).item ((puts_bool v.body.isResponse).item ((puts_uint32 v.body.type.code).item hputs))

end EdgeProxy.Client
