import EdgeProxy.Client.Written
import EdgeProxy.Codec.RoundTrip

/-! # The wire between server and client

A native server and the client understand a message in both directions exactly when the version has 16 bits and is the
same on both sides and the message is one that both can express.
-/
namespace EdgeProxy.Client

open Lib Lib.MessagePack Option Codec.Body Message
open Codec (obj uint32 int32)
open Codec (IoMessage Slice Memory moves WrittenOf mpackDecoder decodeMessageObjectOf)

/-- The client reads what a native encoder wrote and understands it as this message. -/
def NativeToClient (lib : Library) (enc : Encoding) (verNum version : UInt32) (msg : IoMessage Bytes)
    (v : Codec.Message) : Prop :=
  ∃ bytes, WrittenOf lib verNum msg bytes ∧ ∀ rest, ∃ m st,
    Ok (readMessage enc version) ⟨bytes ++ rest,.new⟩ m ⟨rest,st⟩ ∧ m.denote = some v

/-- The native decoder reads, into a new message, what the client wrote for a message of this meaning. -/
def ClientToNative (lib : Library) (place : ℕ → Option ℕ) (stale : Codec.Property Slice) (verNum version : UInt32)
    (v : Codec.Message) : Prop :=
  ∀ m : Message, m.version = version → m.denote = some v → ∃ bytes, Ok (writeMessage m) [] () bytes ∧ ∀ rest, ∃ r mem,
      Ok (decodeMessageObjectOf (mpackDecoder lib place) verNum stale .zero) ⟨bytes ++ rest,⟨1,⟨none,0⟩⟩⟩ r
        ⟨rest,⟨0,mem⟩⟩ ∧ r.denote mem.read = some v

section

lemma Content.denote_tagged {c : Content} {isResponse b} (h : c.denote isResponse = some b) :
    b.OwnSlots ∧ (b ≠ .pollResponse → c.getId = b.type.code) := by
  cases c with
  | data =>
    obtain ⟨address,-,hpayload⟩ := bind_eq_some_iff.1 h
    obtain ⟨buffer,-,hcontrol⟩ := bind_eq_some_iff.1 hpayload
    obtain ⟨controlBuffer,-,⟨⟩⟩ := bind_eq_some_iff.1 hcontrol
    exact ⟨trivial,fun _ => rfl⟩
  | pingResponse =>
    obtain ⟨address,-,hphysical⟩ := bind_eq_some_iff.1 h
    obtain ⟨physical,-,⟨⟩⟩ := bind_eq_some_iff.1 hphysical
    exact ⟨trivial,fun _ => rfl⟩
  | linkResponse =>
    obtain ⟨address,-,hpeer⟩ := bind_eq_some_iff.1 h
    obtain ⟨peer,-,⟨⟩⟩ := bind_eq_some_iff.1 hpeer
    exact ⟨trivial,fun _ => rfl⟩
  | linkRequest =>
    obtain ⟨p,hp,rfl⟩ := map_eq_some_iff.1 h
    obtain ⟨info,-,hinfo⟩ := bind_eq_some_iff.1 hp
    obtain ⟨address,-,haddress⟩ := bind_eq_some_iff.1 hinfo
    obtain ⟨options,hoptions,⟨⟩⟩ := bind_eq_some_iff.1 haddress
    exact ⟨ownSlots_of_denoteOptions hoptions,fun _ => rfl⟩
  | pingRequest | openRequest | setOptRequest | getOptResponse =>
    obtain ⟨_,-,rfl⟩ := map_eq_some_iff.1 h
    exact ⟨trivial,fun _ => rfl⟩
  | pollResponse =>
    cases h
    exact ⟨trivial,fun hne => absurd rfl hne⟩
  | _ =>
    cases h
    exact ⟨trivial,fun _ => rfl⟩

variable {m : Message} {v : Codec.Message} (h : m.denote = some v)
include h

lemma ownSlots_of_denote : v.body.OwnSlots := by
  obtain ⟨content,-,hbody,-⟩ := denote_eq_some_iff.1 h
  exact (Content.denote_tagged hbody).1
lemma typeId_of_denote (hpoll : v.body ≠ .pollResponse) : m.typeId = v.body.type.code := by
  obtain ⟨content,-,hbody,-,htype | htype,-⟩ := denote_eq_some_iff.1 h
  · exact htype
  · rw [htype,(Content.denote_tagged hbody).2 hpoll]

end

/-- The client understands the message, the native decoder gives it back, and it is no poll response. -/
def Portable (moved : Bool) (v : Codec.Message) : Prop :=
  Understood v ∧ v.body.Canonical ∧ v.body.Fits moved ∧ v.body ≠ .pollResponse

lemma not_wraps_of_understood {v} (h : Understood v) : ¬v.body.Wraps := by
  have htext : ∀ t : Codec.Text, t.1.length < 2 ^ 31 → ¬t.Wraps := by
    intro t ht hw
    rw [Codec.Text.Wraps,Codec.length_castLength] at hw
    omega
  have hvalue : ∀ value, UnderstoodValue value → ¬value.Wraps := by
    intro value hv hw
    cases value with
    | addrInfo address name => exact htext name hv.2.2 hw
    | _ => exact hw
  obtain ⟨-,hb⟩ := h
  intro hw
  cases hbody : v.body with rw [hbody] at hb hw
  | openRequest streamId type connectionString => exact htext connectionString hb.2.2 hw
  | setoptRequest value | getoptResponse value => exact hvalue value hb hw
  | _ => exact hw

lemma scoped_of_received {v : Codec.Value} (h : v.received = v) : v.Scoped := by
  cases v with
  | multicast type value =>
    cases value with
    | inet => trivial
    | inet6 =>
      have hvalue := (Codec.Value.multicast.inj h).2
      exact (Codec.Multicast.inet6.inj hvalue).2.2.symm
  | _ => trivial
lemma canonical_of_received {b : Codec.Body} {moved} (ho : b.OwnSlots) (h : b.received moved = some b) :
    b.Canonical := by
  cases b with
  | linkRequest =>
    refine ⟨ho,fun i v hv => scoped_of_received ?_⟩
    have hprops := (linkRequest.inj (some.inj h)).2
    have hslot := congrFun (congrArg Codec.Props.options hprops) i
    simp only [Codec.Props.received,hv,map_some,some.injEq] at hslot
    exact hslot
  | setoptRequest => exact scoped_of_received (setoptRequest.inj (some.inj h))
  | getoptResponse => exact scoped_of_received (getoptResponse.inj (some.inj h))
  | _ => trivial

section

def createdPollResponse (version : UInt32) (v : Codec.Message) : Message :=
  { Message.create version (fun _ => referenceOf default) (some (referenceOf v.sourceId))
      (some (referenceOf v.targetId)) (some (referenceOf v.proxyId)) .pollResponse with error := v.errorCode }

variable {lib : Library} (hformat : lib.WritesFormat) (enc : Encoding) {verNum version : UInt32}

lemma shortBody_of_understood {v} (h : Understood v) : ShortBody v.body := by
  have hcast : ∀ d : Bytes, d.length < 2 ^ 31 → (Codec.castLength d).length < 2 ^ 31 := by
    intro d hd
    rw [Codec.length_castLength]
    omega
  have hvalue : ∀ value, UnderstoodValue value → ShortValue value := by
    intro value hv
    cases value with
    | record type value => exact hcast value hv
    | addrInfo address name => exact hcast name.1 hv.2.2
    | _ => trivial
  obtain ⟨-,hb⟩ := h
  cases hbody : v.body with rw [hbody] at hb
  | data => exact ⟨hcast _ hb.2.1,hcast _ hb.2.2⟩
  | openRequest => exact hcast _ hb.2.2
  | setoptRequest value | getoptResponse value => exact hvalue value hb
  | _ => trivial

include hformat

lemma nativeToClient_of_understood {msg v} (hv : msg.denote some = some v)
    (hwidth : verNum.toNat < 2 ^ 16) (hversion : version = verNum) (h : Understood v) (ho : v.body.OwnSlots) :
    NativeToClient lib enc verNum version msg v := by
  have hshort := shortBody_of_understood h
  refine ⟨_,(Codec.writtenOf_iff lib verNum msg _).2 ⟨v,hv,rfl⟩,fun rest => ?_⟩
  obtain ⟨st,hread⟩ := consumes_message enc ⟨hwidth,hversion,hshort⟩ ho .new
  rw [Item.ser_of_writesFormat hformat]
  exact ⟨_,st,hread rest,(denote_messageOf_iff enc version hshort ho).2 h⟩

lemma NativeToClient.conditions {msg v} (hv : msg.denote some = some v)
    (h : NativeToClient lib enc verNum version msg v) :
    verNum.toNat < 2 ^ 16 ∧ version = verNum ∧ Understood v ∧ v.body.OwnSlots ∧
      (messageOf enc version v).denote = some v := by
  obtain ⟨bytes,hwritten,hread⟩ := h
  obtain ⟨v',hv',rfl⟩ := (Codec.writtenOf_iff lib verNum msg bytes).1 hwritten
  obtain rfl := some.inj (hv.symm.trans hv')
  obtain ⟨m,st,hok,hm⟩ := hread []
  rw [Item.ser_of_writesFormat hformat] at hok
  have ho := ownSlots_of_denote hm
  have hcond : verNum.toNat < 2 ^ 16 ∧ version = verNum ∧ ShortBody v.body := by
    by_contra hnot
    exact not_ok_object (length_messageItems verNum v) ((takesIf_messageFields enc ho).2 hnot) _ _ _ _ hok
  obtain ⟨st',hconsumes⟩ := consumes_message enc hcond ho .new
  obtain ⟨hwidth,hversion,hshort⟩ := hcond
  obtain ⟨rfl,-⟩ := hok.det (hconsumes [])
  exact ⟨hwidth,hversion,(denote_messageOf_iff enc version hshort ho).1 hm,ho,hm⟩

variable {place : ℕ → Option ℕ} (hl : lib.ReadsBack) (hplace : ∀ n, (place n).isSome) (stale : Codec.Property Slice)
include hl

lemma decodes_written (hplace : ∀ n, (place n).isSome) {m v} (hm : m.denote = some v)
    (h : Understood v) (ho : v.body.OwnSlots) (htype : m.typeId = v.body.type.code)
    (hversion : m.version &&& 0xffff0000 = verNum &&& 0xffff0000) :
    ∃ bytes, Ok (writeMessage m) [] () bytes ∧ ∀ rest, ∃ r mem,
      Ok (decodeMessageObjectOf (mpackDecoder lib place) verNum stale .zero) ⟨bytes ++ rest,⟨1,⟨none,0⟩⟩⟩ r
        ⟨rest,⟨0,mem⟩⟩ ∧ r.denote mem.read = v.received (moves place ⟨none,0⟩) := by
  obtain ⟨i,hi,hwrites⟩ := writes_message hm h htype
  obtain ⟨r,mem,hreads,hdenote⟩ :=
    Codec.decodes_messageOf hl hplace ⟨none,0⟩ stale hi hversion (not_wraps_of_understood h) ho
  refine ⟨_,hwrites [],fun rest => ⟨r,mem,?_,hdenote⟩⟩
  have hrun := hreads 0 rest
  rw [Item.serList_singleton,Item.ser_of_writesFormat hformat] at hrun
  exact hrun

include hplace in
lemma not_clientToNative_pollResponse {v} (hpoll : v.body = .pollResponse)
    (hversion : version &&& 0xffff0000 = verNum &&& 0xffff0000) : ¬ClientToNative lib place stale verNum version v := by
  intro hcn
  have hdenote : (createdPollResponse version v).denote = some v := by
    refine denote_eq_some_iff.2 ⟨.pollResponse,rfl,?_,?_,.inr rfl,rfl,rfl,rfl,rfl⟩
    · rw [hpoll]
      rfl
    · rw [hpoll]
      rfl
  obtain ⟨bytes,hok,hread⟩ := hcn _ rfl hdenote
  obtain ⟨source,hs,hsource⟩ := puts_reference (some (referenceOf v.sourceId))
  obtain ⟨proxy,hp,hproxy⟩ := puts_reference (some (referenceOf v.proxyId))
  obtain ⟨target,ht,htarget⟩ := puts_reference (some (referenceOf v.targetId))
  have hputs : Puts (writeMessage (createdPollResponse version v)) [obj [uint32 version,source,proxy,target,
      int32 v.errorCode,.bool true,uint32 contentCustom,.nil]] := by
    refine puts_object rfl rfl ((puts_uint32 version).item ?_)
    refine hsource.item (hproxy.item (htarget.item ?_))
    exact (puts_int32 v.errorCode).item ((puts_bool true).item ((puts_uint32 contentCustom).item puts_nil))
  obtain ⟨-,rfl⟩ := hok.det (hputs [])
  obtain ⟨r,mem,hr,-⟩ := hread []
  have hfails := Codec.fails_unknownType hl hplace ⟨none,0⟩ stale .zero hs hp ht hversion
    v.errorCode true (t := contentCustom) rfl .nil
  rw [← Item.serList_of_writesFormat hformat] at hr
  exact hfails 0 [] r _ hr

include hplace in
lemma ClientToNative.conditions {v : Codec.Message} (hv : (messageOf enc version v).denote = some v)
    (h : Understood v) (ho : v.body.OwnSlots) (hversion : version &&& 0xffff0000 = verNum &&& 0xffff0000)
    (hcn : ClientToNative lib place stale verNum version v) :
    v.body.Canonical ∧ v.body.Fits (moves place ⟨none,0⟩) := by
  obtain ⟨bytes,hok,hread⟩ := hcn _ rfl hv
  obtain ⟨bytes',hok',hread'⟩ := decodes_written hformat hl stale hplace hv h ho rfl hversion
  obtain ⟨-,rfl⟩ := hok.det hok'
  obtain ⟨r,mem,hr,hdenote⟩ := hread []
  obtain ⟨r',mem',hr',hdenote'⟩ := hread' []
  obtain ⟨rfl,⟨⟩⟩ := hr.det hr'
  have hreceived := Codec.Message.received_eq_some_iff.1 (hdenote'.symm.trans hdenote)
  have hcanonical := canonical_of_received ho hreceived
  exact ⟨hcanonical,(received_eq_iff _ hcanonical).1 ⟨not_wraps_of_understood h,hreceived⟩⟩

end

section

variable {lib : Library} {place : ℕ → Option ℕ} (hformat : lib.WritesFormat) (hl : lib.ReadsBack)
  (hplace : ∀ n, (place n).isSome)
include hformat hl hplace

/-- Server and client exchange a message exactly when they have the same version of 16 bits and both can express it. -/
theorem wireCompatible_iff (enc : Encoding) (stale : Codec.Property Slice) (verNum version : UInt32)
    {msg : IoMessage Bytes} {v : Codec.Message} (hv : msg.denote some = some v) :
    NativeToClient lib enc verNum version msg v ∧ ClientToNative lib place stale verNum version v ↔
      verNum.toNat < 2 ^ 16 ∧ version = verNum ∧ Portable (moves place ⟨none,0⟩) v := by
  constructor
  · rintro ⟨hnc,hcn⟩
    obtain ⟨hwidth,rfl,hu,ho,hm⟩ := hnc.conditions hformat enc hv
    obtain ⟨hcanonical,hfits⟩ := hcn.conditions hformat enc hl hplace stale hm hu ho rfl
    exact ⟨hwidth,rfl,hu,hcanonical,hfits,
      fun hpoll => not_clientToNative_pollResponse hformat hl hplace stale hpoll rfl hcn⟩
  · rintro ⟨hwidth,rfl,hu,hcanonical,hfits,hpoll⟩
    refine ⟨nativeToClient_of_understood hformat enc hv hwidth rfl hu hcanonical.ownSlots,fun m hversion hm => ?_⟩
    have htype := typeId_of_denote hm hpoll
    obtain ⟨bytes,hok,hread⟩ :=
      decodes_written hformat hl stale hplace hm hu hcanonical.ownSlots htype (by rw [hversion])
    have hreceived := ((received_eq_iff _ hcanonical).2 hfits).2
    rw [Codec.Message.received_eq_some_iff.2 hreceived] at hread
    exact ⟨bytes,hok,hread⟩

end

def utf8Encoding : Encoding where
  getString b := if h : (ByteArray.mk b.toArray).IsValidUTF8 then .fromUTF8 _ h else ""
  getString_utf8 s := dif_pos s.isValidUTF8
  length_getString b := by
    split_ifs
    · change b.length ≤ _
      omega
    · exact Nat.zero_le _

/-- A data message with a control buffer is exchanged between two builds of version 0.0.1 when memory stays where it
is. -/
theorem dataWithControl_wireCompatible : ∃ v, Codec.dataWithControl.denote some = some v ∧
    NativeToClient format utf8Encoding 0x100 0x100 Codec.dataWithControl v ∧
    ClientToNative format (fun _ => some 0) .zero 0x100 0x100 v := by
  refine ⟨_,Codec.denote_dataWithControl,?_⟩
  apply (wireCompatible_iff format_writesFormat format_readsBack (fun _ => rfl) utf8Encoding .zero 0x100 0x100
    Codec.denote_dataWithControl).2
  refine ⟨by decide,rfl,⟨by decide,trivial,by decide,by decide⟩,trivial,?_,nofun⟩
  exact ⟨by decide,by decide,fun h => absurd h (by decide)⟩

def closedAfterReceiving : IoMessage Bytes :=
  { (IoMessage.zero : IoMessage Bytes) with
    type := Codec.MessageType.close.code
    isResponse := true
    content := { (Codec.Content.zero : Codec.Content Bytes) with closeResponse :=
      { timeOpen := 1,bytesReceived := 2,bytesSent := 3,errorCode := 0 } } }

/-- The builds have version 0.2.1, with which the client reads no message at all. With one that it can read, it takes
what the proxy received for what it sent. -/
theorem closedAfterReceiving_not_wireCompatible : ∃ v, closedAfterReceiving.denote some = some v ∧
    ¬NativeToClient format utf8Encoding Codec.moduleVerNum Codec.moduleVerNum closedAfterReceiving v ∧
    ¬NativeToClient format utf8Encoding 0x100 0x100 closedAfterReceiving v ∧
    NativeToClient format utf8Encoding 0x100 0x100 closedAfterReceiving
      { v with body := .closeResponse 1 3 2 0 } := by
  let v : Codec.Message := ⟨default,default,default,0,.closeResponse 1 2 3 0⟩
  have hv : closedAfterReceiving.denote some = some v := rfl
  have hwidth : (0x100 : UInt32).toNat < 2 ^ 16 := by decide
  refine ⟨v,hv,fun h => ?_,fun h => ?_,?_⟩
  · exact absurd (h.conditions format_writesFormat utf8Encoding hv).1 (by decide)
  · have hu := (h.conditions format_writesFormat utf8Encoding hv).2.2.1
    exact absurd hu.2.1 (by decide)
  · refine ⟨_,(Codec.writtenOf_iff format 0x100 _ _).2 ⟨v,hv,rfl⟩,fun rest => ?_⟩
    have hshort : ShortBody v.body := trivial
    have herror : asInt32 0 = 0 := asInt32_eq_iff.2 (by decide)
    obtain ⟨st,hread⟩ := consumes_message utf8Encoding ⟨hwidth,rfl,hshort⟩ trivial .new
    refine ⟨_,st,hread rest,Message.denote_eq_some_iff.2 ⟨_,rfl,?_,rfl,.inl rfl,rfl,rfl,rfl,herror⟩⟩
    exact congrArg (fun e => some (closeResponse 1 3 2 e)) herror

end EdgeProxy.Client
