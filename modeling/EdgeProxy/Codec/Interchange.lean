import EdgeProxy.Codec.JsonSpec
import EdgeProxy.Codec.RoundTrip

/-! # One message through both codecs

A message that is sent as JSON and as MessagePack. The one has numbers of double precision, the other 32-bit
lengths. The two receivers get the same message exactly when no value of the message shows the difference.
-/
namespace EdgeProxy.Codec

open Base Lib Lib.MessagePack Option Option Body IoMessage Value

/-- A value that both codecs carry unchanged. -/
def Value.Exact : Value → Prop
  | option _ value => Significant 53 value.toNat
  | record _ value => value.length < 2 ^ 32
  | fileInfo value => Significant 53 value.inodeNumber.toNat ∧ Significant 53 value.deviceId.toNat ∧
      Significant 53 value.totalSize.toNat ∧ Significant 53 value.lastAtime.toNat ∧ Significant 53 value.lastMtime.toNat
  | addrInfo _ name => name.Fits
  | _ => True

def Value.InRange : Value → Prop
  | option _ value => roundTo 53 value.toNat < 2 ^ 64
  | _ => True

/-- The options as a receiver stores them: of two options of one type, the one from the later slot. -/
def Options.stored (o : Options) : Options :=
  Options.placed ((List.finRange prxSoMax).filterMap o)

/-- Every option can be received, and those that are stored are exact. -/
def Options.Exact (o : Options) : Prop :=
  (∀ i v, o i = some v → v.InRange) ∧ ∀ i v, o.stored i = some v → v.Exact

/-- Both codecs carry the message unchanged, and a data message with two buffers is received without moving the first
one. -/
def Body.Exact (moved : Bool) : Body → Prop
  | data _ sequenceNumber _ buffer controlBuffer => Significant 53 sequenceNumber.toNat ∧
      (moved → 2 ^ 32 ∣ buffer.length ∨ 2 ^ 32 ∣ controlBuffer.length)
  | closeResponse timeOpen bytesReceived bytesSent _ =>
    Significant 53 timeOpen.toNat ∧ Significant 53 bytesReceived.toNat ∧ Significant 53 bytesSent.toNat
  | pollRequest sequenceNumber timeout => Significant 53 sequenceNumber.toNat ∧ Significant 53 timeout.toNat
  | linkRequest _ props => Significant 53 props.timeout.toNat ∧ props.options.Exact
  | openRequest _ _ connectionString _ _ => connectionString.Fits
  | setoptRequest value => value.Exact
  | getoptResponse value => value.Exact
  | _ => True

def Common {γ : Type} (x y : Option γ) : Prop :=
  ∃ w, x = some w ∧ y = some w
lemma common_some {γ : Type} {x} {w : γ} : Common x (some w) ↔ x = some w := by
  constructor
  · rintro ⟨_,hx,⟨⟩⟩
    exact hx
  · exact fun hx => ⟨w,hx,rfl⟩
lemma common_map {γ γ' : Type} {x y} {f : γ → γ'} (hf : Function.Injective f) :
    Common (x.map f) (y.map f) ↔ Common x y := by
  constructor
  · rintro ⟨w,hx,hy⟩
    obtain ⟨a,rfl,rfl⟩ := map_eq_some_iff.1 hx
    obtain ⟨b,rfl,hb⟩ := map_eq_some_iff.1 hy
    exact ⟨a,rfl,congrArg some (hf hb)⟩
  · rintro ⟨w,rfl,rfl⟩
    exact ⟨f w,rfl,rfl⟩

lemma jsonChannel_uint_eq_iff {v} : jsonChannel.uint v = some v ↔ Significant 53 v.toNat := by
  rw [← roundTo_eq_iff]
  unfold jsonChannel
  dsimp only
  have hlt := v.toNat_lt
  constructor
  · intro h
    split_ifs at h with hround
    have hv := congrArg UInt64.toNat (some.inj h)
    rwa [UInt64.toNat_ofNat',Nat.mod_eq_of_lt hround] at hv
  · intro h
    rw [h,if_pos hlt]
    exact congrArg some (UInt64.toNat_inj.1 (by simp))

lemma common_text {t} : Common (jsonChannel.text t) (mpackChannel.text t) ↔ t.Fits := by
  rw [← t.cut_eq_iff]
  by_cases hw : t.Wraps
  · rw [mpackChannel_text_of_wraps hw]
    exact iff_of_false (fun ⟨_,_,h⟩ => nomatch h) fun h => h.1 hw
  · rw [mpackChannel_text_of_not_wraps hw,common_some]
    exact ⟨fun h => ⟨hw,(some.inj h).symm⟩,fun h => congrArg some h.2.symm⟩
lemma FileInfo.via_jsonChannel_iff {fi} : fi.via jsonChannel = some fi ↔ (fileInfo fi).Exact := by
  obtain ⟨inodeNumber,deviceId,type,totalSize,lastAtime,lastMtime⟩ := fi
  simp only [FileInfo.via,bind_eq_bind,bind_eq_some_iff,Value.Exact,← jsonChannel_uint_eq_iff]
  constructor
  · rintro ⟨_,hinode,_,hdevice,_,hsize,_,hatime,_,hmtime,⟨⟩⟩
    exact ⟨hinode,hdevice,hsize,hatime,hmtime⟩
  · rintro ⟨hinode,hdevice,hsize,hatime,hmtime⟩
    exact ⟨_,hinode,_,hdevice,_,hsize,_,hatime,_,hmtime,rfl⟩

lemma Value.common_iff {v : Value} : Common (v.via jsonChannel) (v.via mpackChannel) ↔ v.Exact := by
  cases v with
  | option =>
    refine (common_map fun _ _ h => ?_).trans (common_some.trans jsonChannel_uint_eq_iff)
    cases h
    rfl
  | record type value =>
    have hrecord : value = castLength value ↔ value.length < 2 ^ 32 := eq_comm.trans castLength_eq_iff
    refine common_some.trans (.trans ?_ hrecord)
    exact ⟨fun h => (record.inj (some.inj h)).2,fun h => congrArg (fun d => some (record type d)) h⟩
  | fileInfo =>
    refine (common_map fun _ _ h => ?_).trans (common_some.trans FileInfo.via_jsonChannel_iff)
    cases h
    rfl
  | addrInfo =>
    refine (common_map fun _ _ h => ?_).trans common_text
    cases h
    rfl
  | multicast | ifAddrInfo => exact iff_of_true ⟨_,rfl,rfl⟩ trivial

variable {χ : Channel}

lemma Options.placed_filterMap {values} (h : ∀ v ∈ values, (v.via χ).isSome) (i : Fin prxSoMax) :
    placed (values.filterMap (Value.via χ)) i = (placed values i).bind (Value.via χ) := by
  induction values using List.reverseRecOn with
  | nil => rfl
  | append_singleton values v ih =>
    obtain ⟨w,hw⟩ := isSome_iff_exists.1 (h v (by simp))
    rw [List.filterMap_append,List.filterMap_cons_some hw,List.filterMap_nil,placed_concat,
      placed_concat,type_of_via hw,ih fun u hu => h u (by simp [hu])]
    split_ifs
    · exact hw.symm
    · rfl
lemma Options.via_eq (o : Options) :
    o.via χ = if ∀ i v, o i = some v → (v.via χ).isSome then some fun i => (o.stored i).bind (Value.via χ)
      else none := by
  have hall : (∀ v ∈ (List.finRange prxSoMax).filterMap o, (v.via χ).isSome) ↔
      ∀ i v, o i = some v → (v.via χ).isSome := by
    simp only [List.mem_filterMap,List.mem_finRange,true_and]
    exact ⟨fun h i v hv => h v ⟨i,hv⟩,fun h v ⟨i,hv⟩ => h i v hv⟩
  rw [via,mapM_eq_filterMap]
  by_cases h : ∀ i v, o i = some v → (v.via χ).isSome
  · rw [if_pos h,if_pos (hall.2 h)]
    exact congrArg some (funext (placed_filterMap (hall.2 h)))
  · rw [if_neg h,if_neg (mt hall.1 h),map_none]
lemma Value.inRange_iff {v : Value} (h : isSocketOption v.type) : v.InRange ↔ (v.via jsonChannel).isSome := by
  cases v with
  | option =>
    rw [via]
    unfold jsonChannel
    dsimp only
    split_ifs with hlt
    · exact iff_of_true hlt rfl
    · exact iff_of_false hlt nofun
  | fileInfo => exact absurd (show isSocketOption prxPropertyTypeFileInfo from h) (by decide)
  | _ => exact iff_of_true trivial rfl
lemma Options.settable_stored {o : Options} (ho : o.Settable) {i v}
    (h : o.stored i = some v) : isSocketOption v.type := by
  obtain ⟨j,-,hj⟩ := List.mem_filterMap.1 (List.mem_reverse.1 (List.mem_of_find?_eq_some h))
  exact ho j v hj

lemma Options.common_iff {o : Options} (ho : o.Settable) :
    Common (o.via jsonChannel) (o.via mpackChannel) ↔ o.Exact := by
  have hmpack : ∀ v : Value, isSocketOption v.type → (v.via mpackChannel).isSome := fun v hv => by
    rw [v.via_of_not_wraps (v.not_wraps_of_isSocketOption hv)]
    rfl
  have hrange : (∀ i v, o i = some v → v.InRange) ↔ ∀ i v, o i = some v → (v.via jsonChannel).isSome :=
    forall_congr' fun i => forall_congr' fun v => imp_congr_right fun hv => inRange_iff (ho i v hv)
  rw [via_eq (χ := mpackChannel),if_pos fun i v hv => hmpack v (ho i v hv),common_some,via_eq,Exact,hrange]
  by_cases h : ∀ i v, o i = some v → (v.via jsonChannel).isSome
  · rw [if_pos h,some.injEq,funext_iff]
    refine ⟨fun heq => ⟨h,fun i v hv => ?_⟩,fun hexact i => ?_⟩
    · obtain ⟨w,hw⟩ := isSome_iff_exists.1 (hmpack v (settable_stored ho hv))
      have hi := heq i
      rw [hv] at hi
      exact Value.common_iff.1 ⟨w,hi.trans hw,hw⟩
    · cases hv : o.stored i with
      | none => rfl
      | some v =>
        obtain ⟨w,hjson,hmpack⟩ := Value.common_iff.2 (hexact.2 i v hv)
        rw [bind_some,bind_some,hjson,hmpack]
  · rw [if_neg h]
    exact iff_of_false nofun fun hexact => h hexact.1

lemma Props.common_iff {p : Props} (ho : p.options.Settable) :
    Common (p.via jsonChannel) (p.via mpackChannel) ↔ Significant 53 p.timeout.toNat ∧ p.options.Exact := by
  rw [← jsonChannel_uint_eq_iff,← Options.common_iff ho]
  constructor
  · rintro ⟨_,hjson,hmpack⟩
    obtain ⟨timeout,htimeout,hjson⟩ := bind_eq_some_iff.1 hjson
    obtain ⟨options,hoptions,hp⟩ := bind_eq_some_iff.1 hjson
    obtain ⟨options',hoptions',hp'⟩ := bind_eq_some_iff.1 hmpack
    cases hp
    cases hp'
    exact ⟨htimeout,options,hoptions,hoptions'⟩
  · rintro ⟨htimeout,options,hoptions,hoptions'⟩
    refine ⟨{ p with options },?_,?_⟩
    · unfold Props.via
      rw [htimeout,hoptions]
      rfl
    · unfold Props.via
      rw [hoptions']
      rfl

lemma castLength_eq_nil_iff {d} : castLength d = [] ↔ 2 ^ 32 ∣ d.length := by
  rw [← List.length_eq_zero_iff,length_castLength,Nat.dvd_iff_mod_eq_zero]

lemma Body.common_iff {b : Body} (ho : b.Settable) (moved : Bool) :
    (∃ b', b.via jsonChannel = some b' ∧ b.via mpackChannel = some b' ∧ b'.kept moved = some b') ↔ b.Exact moved := by
  have hkept : (∀ {b'}, b.via mpackChannel = some b' → b'.kept moved = some b') →
      ((∃ b', b.via jsonChannel = some b' ∧ b.via mpackChannel = some b' ∧ b'.kept moved = some b') ↔
        Common (b.via jsonChannel) (b.via mpackChannel)) := by
    intro hk
    exact ⟨fun ⟨b',hjson,hmpack,_⟩ => ⟨b',hjson,hmpack⟩,fun ⟨b',hjson,hmpack⟩ => ⟨b',hjson,hmpack,hk hmpack⟩⟩
  cases b with
  | data isResponse sequenceNumber source buffer controlBuffer =>
    have hjson : (data isResponse sequenceNumber source buffer controlBuffer).via jsonChannel =
        (jsonChannel.uint sequenceNumber).map fun sequenceNumber =>
          .data isResponse sequenceNumber source (castLength buffer) (castLength controlBuffer) := rfl
    have hmpack : (data isResponse sequenceNumber source buffer controlBuffer).via mpackChannel =
        some (.data isResponse sequenceNumber source (castLength buffer) (castLength controlBuffer)) := by
      have hbytes : ∀ d, mpackChannel.bytes (castLength d) = castLength d := castLength_castLength
      simp only [via,hbytes]
      rfl
    rw [Exact,← jsonChannel_uint_eq_iff,← castLength_eq_nil_iff,← castLength_eq_nil_iff,hjson,hmpack]
    constructor
    · rintro ⟨_,hs,⟨⟩,hk⟩
      obtain ⟨n,hn,⟨⟩⟩ := map_eq_some_iff.1 hs
      refine ⟨hn,fun hmoved => ?_⟩
      by_contra hne
      rw [kept,if_pos ⟨hmoved,fun h => hne (.inl h),fun h => hne (.inr h)⟩] at hk
      cases hk
    · rintro ⟨hn,hmoved⟩
      refine ⟨_,by rw [hn]; rfl,rfl,if_neg ?_⟩
      rintro ⟨hm,hbuffer,hcontrol⟩
      exact (hmoved hm).elim hbuffer hcontrol
  | closeResponse =>
    refine (hkept (by rintro _ ⟨⟩; rfl)).trans (common_some.trans ?_)
    simp only [via,Exact,← jsonChannel_uint_eq_iff,bind_eq_bind,bind_eq_some_iff]
    constructor
    · rintro ⟨_,hopen,_,hreceived,_,hsent,⟨⟩⟩
      exact ⟨hopen,hreceived,hsent⟩
    · rintro ⟨hopen,hreceived,hsent⟩
      exact ⟨_,hopen,_,hreceived,_,hsent,rfl⟩
  | pollRequest =>
    refine (hkept (by rintro _ ⟨⟩; rfl)).trans (common_some.trans ?_)
    simp only [via,Exact,← jsonChannel_uint_eq_iff,bind_eq_bind,bind_eq_some_iff]
    constructor
    · rintro ⟨_,hsequence,_,htimeout,⟨⟩⟩
      exact ⟨hsequence,htimeout⟩
    · rintro ⟨hsequence,htimeout⟩
      exact ⟨_,hsequence,_,htimeout,rfl⟩
  | openRequest streamId type connectionString polled maxRecv =>
    refine (hkept ?_).trans (.trans ?_ common_text)
    · intro b' h
      obtain ⟨_,-,rfl⟩ := map_eq_some_iff.1 h
      rfl
    · have hvia : ∀ χ : Channel, (openRequest streamId type connectionString polled maxRecv).via χ =
          (χ.text connectionString).map fun t => .openRequest streamId type t polled maxRecv := fun _ => rfl
      rw [hvia]
      exact common_map fun _ _ h => by cases h; rfl
  | linkRequest | setoptRequest | getoptResponse =>
    refine (hkept ?_).trans ((common_map fun _ _ h => ?_).trans ?_)
    · intro b' h
      obtain ⟨_,-,rfl⟩ := map_eq_some_iff.1 h
      rfl
    · cases h
      rfl
    · first
      | exact Props.common_iff ho
      | exact Value.common_iff
  | _ => exact iff_of_true ⟨_,rfl,rfl,rfl⟩ trivial

lemma Body.kept_eq_some_iff {moved} {b w : Body} : b.kept moved = some w ↔ b = w ∧ b.kept moved = some b := by
  have hkept : ∀ w, b.kept moved = some w → b = w := by
    intro w h
    cases b with
    | data =>
      rw [kept] at h
      split_ifs at h
      exact some.inj h
    | _ => exact some.inj h
  constructor
  · exact fun h => ⟨hkept w h,by rw [h,hkept w h]⟩
  · rintro ⟨rfl,hb⟩
    exact hb

lemma Body.kept_or {moved moved'} {b : Body} :
    (b.kept moved = some b ∧ b.kept moved' = some b) ↔ b.kept (moved || moved') = some b := by
  cases b with
  | data => cases moved <;> cases moved' <;> simp [kept]
  | _ => exact iff_of_true ⟨rfl,rfl⟩ rfl

variable {τ : Type}

/-- What a message is decoded with: the answers of the allocator, the content of the decoder's local variable, the
record to fill and its memory. -/
structure Receiver where
  place : ℕ → Option ℕ
  stale : Property Slice
  old : IoMessage Slice
  memory : Memory

namespace Receiver

def HasMemory (r : Receiver) : Prop :=
  ∀ n, (r.place n).isSome
def moved (r : Receiver) : Bool :=
  moves r.place r.memory
def ReadsMpack (r : Receiver) (lib : Library) (bytes : Bytes) (v : Message) : Prop :=
  ∃ msg t, Ok (decodeMessageObject (mpackDecoder lib r.place) r.stale r.old) ⟨bytes,⟨1,r.memory⟩⟩ msg t ∧
    msg.denote t.user.memory.read = some v

def ReadsJson (r : Receiver) (lib : JsonLibrary τ) (palPton : Bytes → Except PrxError SocketAddress) (text : Option τ)
    (v : Message) : Prop :=
  ∃ msg mem, jsonDecodeMessage lib palPton r.place r.stale r.old r.memory text = .ok (msg,mem) ∧
    msg.denote mem.read = some v

end Receiver

/-- Two receivers, one for each codec, read the same message. -/
def Interchangeable (lib : Library) (json : JsonLibrary τ) (palPton : Bytes → Except PrxError SocketAddress)
    (r r' : Receiver) (bytes : Bytes) (text : Option τ) : Prop :=
  ∃ v, r.ReadsMpack lib bytes v ∧ r'.ReadsJson json palPton text v

lemma Property.type_denote {π : Type} {read} {prop : Property π} {v}
    (h : prop.denote read = some v) : v.type = prop.type := by
  unfold Property.denote at h
  split_ifs at h with hmulticast haddr hitf hfile
  · obtain ⟨_,-,rfl⟩ := map_eq_some_iff.1 h
    rfl
  · obtain ⟨_,-,rfl⟩ := map_eq_some_iff.1 h
    exact haddr.symm
  · obtain ⟨_,-,rfl⟩ := map_eq_some_iff.1 h
    exact hitf.symm
  · cases h
    exact hfile.symm
  · obtain ⟨_,-,rfl⟩ := map_eq_some_iff.1 h
    rfl
  · cases h
    rfl

lemma settable_of_denoteOptions {π : Type} {read} {options : Vector (Property π) prxSoMax}
    {o} (h : denoteOptions read options = some o) : o.Settable := by
  unfold denoteOptions at h
  split_ifs at h
  cases h
  intro i v hv
  dsimp only at hv
  split_ifs at hv with hi
  rw [Property.type_denote hv]
  exact hi

lemma IoMessage.settable_of_denote {msg : IoMessage Bytes} {v : Message} (h : msg.denote some = some v) :
    v.body.Settable := by
  obtain ⟨b,hb,rfl⟩ := map_eq_some_iff.1 h
  cases b with
  | linkRequest version props =>
    obtain ⟨hresponse,hcode⟩ := tagged_denoteBody some hb
    have htype : messageType msg.type = some .link := by
      rw [← hcode]
      rfl
    have hlink : msg.content.linkRequest.denote some = some (.linkRequest version props) := by
      simpa only [denoteBody,htype,← hresponse,Body.isResponse] using hb
    obtain ⟨p,hp,⟨⟩⟩ := map_eq_some_iff.1 hlink
    obtain ⟨address,-,hp⟩ := bind_eq_some_iff.1 hp
    obtain ⟨options,hoptions,⟨⟩⟩ := bind_eq_some_iff.1 hp
    exact settable_of_denoteOptions hoptions
  | _ => trivial

variable {lib : Library} {json : JsonLibrary τ} {palPton : Bytes → Except PrxError SocketAddress}

lemma jsonEncodeMessage_ok (hjson : json.Preserves) {msg text} (h : jsonEncodeMessage json msg = .ok text) :
    ∃ v t, msg.denote some = some v ∧ text = some t ∧
      json.parse t = some (.object (v.members (jsonFormat json) moduleVerNum)) ∧
        json.Sound (.object (v.members (jsonFormat json) moduleVerNum)) := by
  unfold jsonEncodeMessage at h
  cases hrun : (encodeMessageObject (jsonEncoder json) msg).run (.object []) with
  | error =>
    rw [hrun] at h
    cases h
  | ok result =>
    obtain ⟨⟨⟩,value⟩ := result
    rw [hrun] at h
    obtain rfl : json.serialize value = text := Except.ok.inj h
    obtain ⟨members,hmembers,rfl,hsound⟩ := writes_message (jsonEncoderSpec hjson) moduleVerNum msg value hrun
    obtain ⟨v,hv,rfl⟩ := map_eq_some_iff.1 hmembers
    obtain ⟨t,hserialize,hparse⟩ := hjson.parse hsound
    exact ⟨v,t,hv,hserialize,hparse,hsound⟩

variable {v w : Message}

/-- The two decoders give a record that denotes what arrived, if its buffers are kept. -/
theorem reads_iff_of_outcome {σ : Type} {x : StateT σ (Except Stop) (IoMessage Slice)} {s : σ} (mem : σ → Memory)
    {d moved}
    (h : Outcome x s d fun b msg t => msg.denote (mem t).read = (b.kept moved).map fun body => { v with body }) :
    (∃ msg t, Ok x s msg t ∧ msg.denote (mem t).read = some w) ↔
      ∃ b, d = some b ∧ b.kept moved = some b ∧ w = { v with body := b } := by
  cases d with
  | none => exact iff_of_false (fun ⟨msg,t,hok,_⟩ => h msg t hok) fun ⟨_,hb,_⟩ => nomatch hb
  | some b =>
    obtain ⟨msg,t,hok,hdenote⟩ := h
    constructor
    · rintro ⟨msg',t',hok',hw⟩
      obtain ⟨rfl,rfl⟩ := hok'.det hok
      rw [hdenote] at hw
      obtain ⟨b',hb',rfl⟩ := map_eq_some_iff.1 hw
      obtain ⟨rfl,hkept⟩ := kept_eq_some_iff.1 hb'
      exact ⟨b,rfl,hkept,rfl⟩
    · rintro ⟨_,⟨⟩,hkept,rfl⟩
      refine ⟨msg,t,hok,?_⟩
      rw [hdenote,hkept]
      rfl

lemma Receiver.readsJson_iff {ms} (hmembers : v.members (jsonFormat json) moduleVerNum = ms)
    (hjson : json.Preserves) (r : Receiver) (hr : r.HasMemory) (hv : v.body.Settable) {t : τ}
    (hparse : json.parse t = some (.object ms)) (hsound : json.Sound (.object ms)) :
    r.ReadsJson json palPton (some t) w ↔
      ∃ b, v.body.via jsonChannel = some b ∧ b.kept r.moved = some b ∧ w = { v with body := b } := by
  have hsent := Message.sentIn_members (jsonFormat json) hv moduleVerNum r.old
  rw [hmembers] at hsent
  have hgives := gives_message (jsonDecoderSpec palPton hjson hr) r.memory r.stale hsent rfl
  have hms : ∀ m ∈ ms, json.Sound m.2 := by
    cases hsound with
    | object _ hms => exact hms
  have hnodup : (ms.map Prod.fst).Nodup := by
    simp [← hmembers,Message.members,messageMembers]
  have hread : Outcome (decodeMessageObject (jsonDecoder json palPton r.place) r.stale r.old)
      ⟨.object ms,0,r.memory⟩ (v.body.via jsonChannel)
      fun b msg t => msg.denote t.memory.read = (b.kept r.moved).map fun body => { v with body } := by
    have hnested := hgives hms (.object ms) 0 fun m hm => lookup_of_mem hnodup hm
    exact (outcome_jsonNested
      (P := fun b msg mem => msg.denote mem.read = (b.kept r.moved).map fun body => { v with body })
      (hnested.imp fun _ _ _ h => h.2)).imp fun _ _ _ h => h.2
  rw [← reads_iff_of_outcome JsonCtx.memory hread]
  unfold Receiver.ReadsJson jsonDecodeMessage
  dsimp only
  rw [hparse]
  dsimp only
  constructor
  · rintro ⟨msg,mem,hrun,hw⟩
    cases hx : (decodeMessageObject (jsonDecoder json palPton r.place) r.stale r.old).run
        ⟨.object ms,0,r.memory⟩ with
    | error =>
      rw [hx] at hrun
      cases hrun
    | ok =>
      rw [hx] at hrun
      cases hrun
      exact ⟨_,_,hx,hw⟩
  · rintro ⟨msg,t,hok,hw⟩
    refine ⟨msg,t.memory,?_,hw⟩
    rw [show (decodeMessageObject (jsonDecoder json palPton r.place) r.stale r.old).run _ = _ from hok]
    rfl

lemma Receiver.readsMpack_iff (hlib : lib.ReadsBack) (r : Receiver) (hr : r.HasMemory)
    (hv : v.body.Settable) : r.ReadsMpack lib (v.wire.ser lib) w ↔
      ∃ b, v.body.via mpackChannel = some b ∧ b.kept r.moved = some b ∧ w = { v with body := b } := by
  have hyields := yields_message hlib hr r.memory r.stale (Message.sentIn_members mpackFormat hv moduleVerNum r.old) rfl
  rw [v.obj_members] at hyields
  exact reads_iff_of_outcome (fun t : Source UInt8 DecCtx => t.user.memory) hyields.outcome

lemma interchangeable_iff_of_denote (hlib : lib.ReadsBack) (hjson : json.Preserves) {r r' : Receiver}
    (hr : r.HasMemory) (hr' : r'.HasMemory) {msg : IoMessage Bytes} (hv : msg.denote some = some v)
    {bytes text} (hwritten : Written lib msg bytes) (hencoded : jsonEncodeMessage json msg = .ok text) :
    Interchangeable lib json palPton r r' bytes text ↔ v.body.Exact (r.moved || r'.moved) := by
  obtain ⟨w,t,hw,rfl,hparse,hsound⟩ := jsonEncodeMessage_ok hjson hencoded
  obtain rfl : v = w := some.inj (hv.symm.trans hw)
  obtain ⟨w,hw,rfl⟩ := (written_iff lib msg bytes).1 hwritten
  obtain rfl : v = w := some.inj (hv.symm.trans hw)
  have hset := settable_of_denote hv
  rw [← common_iff hset]
  simp only [Interchangeable,r.readsMpack_iff hlib hr hset,r'.readsJson_iff rfl hjson hr' hset hparse hsound]
  constructor
  · rintro ⟨w,⟨b,hmpack,hkept,rfl⟩,⟨b',hjson,hkept',he⟩⟩
    obtain rfl : b = b' := congrArg Message.body he
    exact ⟨b,hjson,hmpack,kept_or.1 ⟨hkept,hkept'⟩⟩
  · rintro ⟨b,hjson,hmpack,hkept⟩
    obtain ⟨hkept,hkept'⟩ := kept_or.2 hkept
    exact ⟨_,⟨b,hmpack,hkept,rfl⟩,⟨b,hjson,hkept',rfl⟩⟩

/-- A message that both codecs encode is received alike from the two exactly when both carry it unchanged. -/
theorem interchangeable_iff (hlib : lib.ReadsBack) (hjson : json.Preserves) {r r' : Receiver} (hr : r.HasMemory)
    (hr' : r'.HasMemory) {msg : IoMessage Bytes} {bytes : Bytes} {text : Option τ} (hwritten : Written lib msg bytes)
    (hencoded : jsonEncodeMessage json msg = .ok text) :
    Interchangeable lib json palPton r r' bytes text ↔
      ∀ v, msg.denote some = some v → v.body.Exact (r.moved || r'.moved) := by
  obtain ⟨v,-,hv,-⟩ := jsonEncodeMessage_ok hjson hencoded
  rw [interchangeable_iff_of_denote hlib hjson hr hr' hv hwritten hencoded]
  constructor
  · intro h w hw
    obtain rfl : v = w := some.inj (hv.symm.trans hw)
    exact h
  · exact fun h => h v hv

def escape : Bytes → Bytes
  | [] => []
  | b :: d => (if b = 0 then 1 else b) :: (if b = 0 then 1 else 2) :: escape d
def unescape : Bytes → Option Bytes
  | [] => some []
  | [_] => none
  | a :: mark :: s => (unescape s).map ((if mark = 1 then 0 else a) :: ·)
lemma unescape_escape (d : Bytes) : unescape (escape d) = some d := by
  induction d with
  | nil => rfl
  | cons b d ih => by_cases hb : b = 0 <;> simp [escape,unescape,ih,hb]
lemma zero_notMem_escape (d : Bytes) : 0 ∉ escape d := by
  induction d with
  | nil => simp [escape]
  | cons b d ih => by_cases hb : b = 0 <;> simp [escape,ih,hb,eq_comm]
def values : JsonLibrary Json where
  accepts _ := true
  serialize := some
  parse := some
  base64Encode d := some (escape d)
  base64Decode := unescape
lemma values_preserves : values.Preserves where
  parse := fun _ => ⟨_,rfl,rfl⟩
  base64 := by
    rintro d s hd ⟨⟩
    refine ⟨?_,zero_notMem_escape d,unescape_escape d⟩
    cases d with
    | nil => exact absurd rfl hd
    | cons => exact nofun
def pollOf (timeout : UInt64) : IoMessage Bytes :=
  { (IoMessage.zero : IoMessage Bytes) with
    type := MessageType.poll.code
    content := { (Content.zero : Content Bytes) with pollMessage := ⟨0,timeout⟩ } }

lemma denote_pollOf (timeout : UInt64) :
    (pollOf timeout).denote some = some ⟨default,default,default,0,.pollRequest 0 timeout⟩ :=
  rfl
def still : Receiver :=
  ⟨fun _ => some 0,.zero,.zero,⟨none,0⟩⟩
lemma poll_written (timeout : UInt64) : ∃ bytes, Written format (pollOf timeout) bytes :=
  ⟨_,(written_iff format _ _).2 ⟨_,denote_pollOf timeout,rfl⟩⟩
lemma poll_encoded (timeout : UInt64) : ∃ text, jsonEncodeMessage values (pollOf timeout) = .ok text :=
  ⟨_,rfl⟩

/-- A timeout of 2 ^ 53 milliseconds arrives alike. -/
theorem poll_interchangeable : ∃ bytes text, Written format (pollOf 9007199254740992) bytes ∧
    jsonEncodeMessage values (pollOf 9007199254740992) = .ok text ∧
      Interchangeable format values (fun _ => .error .invalidFormat) still still bytes text := by
  obtain ⟨bytes,hwritten⟩ := poll_written 9007199254740992
  obtain ⟨text,hencoded⟩ := poll_encoded 9007199254740992
  refine ⟨bytes,text,hwritten,hencoded,(interchangeable_iff format_readsBack values_preserves (fun _ => rfl)
    (fun _ => rfl) hwritten hencoded).2 fun v hv => ?_⟩
  cases (denote_pollOf _).symm.trans hv
  exact ⟨significant_of_lt (by decide),⟨1,by decide,53,by decide⟩⟩

/-- One of a millisecond more does not. -/
theorem poll_not_interchangeable : ∃ bytes text, Written format (pollOf 9007199254740993) bytes ∧
    jsonEncodeMessage values (pollOf 9007199254740993) = .ok text ∧
      ¬Interchangeable format values (fun _ => .error .invalidFormat) still still bytes text := by
  obtain ⟨bytes,hwritten⟩ := poll_written 9007199254740993
  obtain ⟨text,hencoded⟩ := poll_encoded 9007199254740993
  refine ⟨bytes,text,hwritten,hencoded,?_⟩
  rw [interchangeable_iff_of_denote format_readsBack values_preserves (fun _ => rfl) (fun _ => rfl) (denote_pollOf _)
    hwritten hencoded]
  exact fun h => absurd (roundTo_eq_iff.2 h.2) (by decide)

end EdgeProxy.Codec
