import EdgeProxy.Codec.DecodeTypes

/-! # The decoder of messages

Run on the document of a message, the decoder stores a record that denotes what arrives of the message, or fails if
nothing does.
-/
namespace EdgeProxy.Codec

open Base Body Option

variable {m : Type → Type} [Monad m] [MonadExceptOf Stop m] {β : Type} {c : Decoder m Slice} {F : Format β}
  {χ : Channel} {place : ℕ → Option ℕ} (S : c.Spec F χ place) (mem : Memory) (moved : Bool)

lemma gives_dataMessage {old source a}
    (ha : source.SentIn F old.sourceAddress a) (isResponse : Bool) (sequenceNumber : UInt64)
    (buffer controlBuffer : Bytes) :
    S.gives (ioDecodeDataMessage c old) (dataMembers F sequenceNumber a buffer controlBuffer) mem
      ((data isResponse sequenceNumber source buffer controlBuffer).via χ)
      fun b d mem' => d.denote mem'.read isResponse = b.kept (moves place mem) := by
  rw [via,map_eq_bind]
  refine S.type ((S.uint "sequence_number" sequenceNumber mem).bind fun sequenceNumber => ?_)
  refine (gives_addressMember S mem "source_address" ha).step ?_
  rintro sourceAddress mem ⟨haddr,rfl⟩
  refine (S.binDefault "buffer" (castLength buffer) mem).step ?_
  intro p mem₁ hbuffer
  refine (S.binDefault "control_buffer" (castLength controlBuffer) mem₁).step ?_
  intro q mem₂ hcontrol
  refine S.ending ?_
  simp only [DataMessage.denote,haddr,hcontrol.bufferValue,hbuffer.bufferValue_after hcontrol,kept]
  split_ifs <;> rfl

lemma gives_pingRequest {old address a} (ha : address.SentIn F old.address a) :
    S.gives (ioDecodePingRequest c old) [("address",a)] mem (some (pingRequest address))
      fun b r _ => r.address.denote.map pingRequest = b.kept moved := by
  refine S.type ((gives_addressMember S mem "address" ha).step ?_)
  rintro sa _ ⟨haddr,rfl⟩
  exact S.ending (by rw [haddr]; rfl)
lemma gives_pingResponse {old address a} (ha : address.SentIn F old.address a)
    (physicalAddress : Vector UInt8 8) (timeMs : UInt32) :
    S.gives (ioDecodePingResponse c old) (pingResponseMembers F a physicalAddress timeMs) mem
      (some (pingResponse address physicalAddress timeMs)) fun b r _ => r.denote = b.kept moved := by
  refine S.type ((gives_addressMember S mem "address" ha).step ?_)
  rintro sa _ ⟨haddr,rfl⟩
  refine (S.binFixed "physical_address" _ physicalAddress _ (by decide) (by decide)).read ?_
  refine (S.uint32 "time_ms" timeMs _).read (S.ending ?_)
  simp only [PingResponse.denote,haddr]
  rfl

lemma gives_linkRequest (stale : Property Slice) {old props}
    {ms} (h : props.SentIn F old.props ms) (version : UInt8) :
    S.gives (ioDecodeLinkRequest c stale old) [("version",F.uint8 version),("props",F.obj ms)] mem
      ((linkRequest version props).via χ) fun b r mem' => r.denote mem'.read = b.kept moved := by
  have hnamed : Named ms := by
    obtain ⟨a,slots,-,-,-,-,rfl⟩ := h
    simp [Named,Props.membersWith]
  refine S.type ((S.uint8 "version" version mem).read ?_)
  refine (S.object "props" hnamed (gives_props S mem stale h)).last ?_
  rintro props sp _ ⟨hprops,rfl⟩
  refine S.ending ?_
  simp only [LinkRequest.denote,hprops]
  rfl

lemma gives_linkResponse {old linkId localAddress peerAddress r a a'}
    (hr : linkId.SentIn F old.linkId r) (ha : localAddress.SentIn F old.localAddress a)
    (ha' : peerAddress.SentIn F old.peerAddress a') :
    S.gives (ioDecodeLinkResponse c old) [("link_id",r),("local_address",a),("peer_address",a')] mem
      (some (linkResponse linkId localAddress peerAddress)) fun b r _ => r.denote = b.kept moved := by
  refine S.type ((gives_ref S mem "link_id" hr).read ?_)
  refine (gives_addressMember S _ "local_address" ha).step ?_
  rintro _ _ ⟨hlocal,rfl⟩
  refine (gives_addressMember S _ "peer_address" ha').step ?_
  rintro _ _ ⟨hpeer,rfl⟩
  refine S.ending ?_
  simp only [LinkResponse.denote,hlocal,hpeer]
  rfl

lemma gives_openRequest {old streamId r} (hr : streamId.SentIn F old.streamId r)
    (type : Int32) (connectionString : Text) (polled : Bool) (maxRecv : UInt32) :
    S.gives (ioDecodeOpenRequest c old) (openRequestMembers F r type connectionString polled maxRecv) mem
      ((openRequest streamId type connectionString polled maxRecv).via χ)
      fun b r mem' => r.denote mem'.read = b.kept moved := by
  rw [via,map_eq_bind]
  refine S.type ((gives_ref S mem "stream_id" hr).read ?_)
  refine (S.int32 "type" type _).read ?_
  refine S.bind (S.stringDefault "connection-string" connectionString _) ?_
  rintro text _ mem' - ⟨p,rfl,hp⟩
  refine (S.bool "polled" polled mem').read ?_
  refine (S.uint32 "max_recv" maxRecv mem').read (S.ending ?_)
  simp only [OpenRequest.denote,hp,bind_eq_bind,bind_some,text_terminated]
  rfl

lemma gives_soVal {old} {v : Value} {ms} (h : v.SentIn F old ms) :
    S.gives (c.decodeMember (some "so_val") old (ioDecodePrxProperty c)) [("so_val",F.obj ms)] mem (v.via χ)
      fun w prop mem' => prop.denote mem'.read = some w ∧ prop.type = v.type ∧ (isSocketOption v.type → mem' = mem) :=
  S.object "so_val" (Value.named h) (gives_property S mem h)
lemma gives_setoptRequest {old} {v : Value} {ms} (h : v.SentIn F old.soVal ms) :
    S.gives (ioDecodeSetoptRequest c old) [("so_val",F.obj ms)] mem ((setoptRequest v).via χ)
      fun b r mem' => (r.soVal.denote mem'.read).map setoptRequest = b.kept moved := by
  refine S.type ((gives_soVal S mem h).last ?_)
  rintro w prop mem' ⟨hprop,-,-⟩
  exact S.ending (by rw [hprop]; rfl)
lemma gives_getoptResponse {old} {v : Value} {ms} (h : v.SentIn F old.soVal ms) :
    S.gives (ioDecodeGetoptResponse c old) [("so_val",F.obj ms)] mem ((getoptResponse v).via χ)
      fun b r mem' => (r.soVal.denote mem'.read).map getoptResponse = b.kept moved := by
  refine S.type ((gives_soVal S mem h).last ?_)
  rintro w prop mem' ⟨hprop,-,-⟩
  exact S.ending (by rw [hprop]; rfl)
lemma gives_closeResponse (timeOpen bytesReceived bytesSent : UInt64) (errorCode : Int32) :
    S.gives (ioDecodeCloseResponse c) (closeResponseMembers F timeOpen bytesReceived bytesSent errorCode) mem
      ((closeResponse timeOpen bytesReceived bytesSent errorCode).via χ)
      fun b r _ => some r.denote = b.kept moved := by
  refine S.type ((S.uint "time_open" timeOpen mem).bind fun timeOpen => ?_)
  refine (S.uint "bytes_received" bytesReceived mem).bind fun bytesReceived => ?_
  refine (S.uint "bytes_sent" bytesSent mem).bind fun bytesSent => ?_
  exact (S.int32 "error_code" errorCode mem).read (S.ending rfl)
lemma gives_pollMessage (sequenceNumber timeout : UInt64) :
    S.gives (ioDecodePollMessage c) [("sequence_number",F.uint sequenceNumber),("timeout",F.uint timeout)] mem
      ((pollRequest sequenceNumber timeout).via χ)
      fun b p _ => some (pollRequest p.sequenceNumber p.timeout) = b.kept moved := by
  refine S.type ((S.uint "sequence_number" sequenceNumber mem).bind fun sequenceNumber => ?_)
  exact (S.uint "timeout" timeout mem).bind fun timeout => S.ending rfl
lemma gives_getoptRequest (soOpt : Int32) :
    S.gives (ioDecodeGetoptRequest c) [("so_opt",F.int32 soOpt)] mem (some (getoptRequest soOpt))
      fun b r _ => some (getoptRequest r.soOpt) = b.kept moved :=
  S.type ((S.int32 "so_opt" soOpt mem).read (S.ending rfl))
def Body.OwnSlots : Body → Prop
  | .linkRequest _ props => props.options.OwnSlots
  | _ => True

variable {S mem} in
lemma Decoder.Spec.gives.content {α γ : Type} {x} {g : α → Content Slice} {ms}
    {d P} {Q : γ → Content Slice → Memory → Prop} (h : S.gives x ms mem d P)
    (hms : Named ms) (hg : ∀ v a mem', P v a mem' → Q v (g a) mem') :
    S.gives (ioDecodeContent c x >>= fun a => pure (g a)) [("content",F.obj ms)] mem d Q := by
  rw [← map_id_apply (x := d)]
  exact Decoder.Spec.gives.last (S.object "content" hms h) fun v a mem' hp => S.done (hg v a mem' hp)

lemma gives_null {γ : Type} {old g} {Q : γ → Content Slice → Memory → Prop} (h : Q g old mem) :
    S.gives (ioDecodeNull c >>= fun _ => pure old) [("content",F.null)] mem (some g) Q := by
  refine Decoder.Spec.gives.read (v := ()) (S.null "content" ?_) (S.done h)
  exact S.done ⟨rfl,rfl⟩

lemma gives_messageContent (stale : Property Slice) (msg : IoMessage Slice) {b : Body} {i : β}
    (h : b.SentIn F msg.content i) (ht : msg.type = b.type.code) (hr : msg.isResponse = b.isResponse) :
    S.gives (ioDecodeMessageContent c stale msg) [("content",i)] mem (b.via χ)
      fun b content mem' => { msg with content }.denoteBody mem'.read = b.kept (moves place mem) := by
  unfold ioDecodeMessageContent
  rw [ht,hr]
  cases b with
  | data isResponse sequenceNumber source buffer controlBuffer =>
    obtain ⟨a,ha,rfl⟩ := h
    have hdata := gives_dataMessage S mem ha isResponse sequenceNumber buffer controlBuffer
    exact hdata.content (by simp [Named,dataMembers]) fun _ _ _ h => h
  | closeResponse timeOpen bytesReceived bytesSent errorCode =>
    obtain rfl : i = _ := h
    have hclose := gives_closeResponse S mem (moves place mem) timeOpen bytesReceived bytesSent errorCode
    exact hclose.content (by simp [Named,closeResponseMembers]) fun _ _ _ h => h
  | pingRequest =>
    obtain ⟨a,ha,rfl⟩ := h
    exact (gives_pingRequest S mem _ ha).content (by simp [Named]) fun _ _ _ h => h
  | pingResponse address physicalAddress timeMs =>
    obtain ⟨a,ha,rfl⟩ := h
    have hping := gives_pingResponse S mem (moves place mem) ha physicalAddress timeMs
    exact hping.content (by simp [Named,pingResponseMembers]) fun _ _ _ h => h
  | pollRequest sequenceNumber timeout =>
    obtain rfl : i = _ := h
    exact (gives_pollMessage S mem _ sequenceNumber timeout).content (by simp [Named]) fun _ _ _ h => h
  | linkRequest version =>
    obtain ⟨j,hj,rfl⟩ := h
    exact (gives_linkRequest S mem _ stale hj version).content (by simp [Named]) fun _ _ _ h => h
  | linkResponse =>
    obtain ⟨r,a,a',hlink,ha,ha',rfl⟩ := h
    exact (gives_linkResponse S mem _ hlink ha ha').content (by simp [Named]) fun _ _ _ h => h
  | openRequest streamId type connectionString polled maxRecv =>
    obtain ⟨r,hstream,rfl⟩ := h
    have hopen := gives_openRequest S mem (moves place mem) hstream type connectionString polled maxRecv
    exact hopen.content (by simp [Named,openRequestMembers]) fun _ _ _ h => h
  | setoptRequest =>
    obtain ⟨j,hj,rfl⟩ := h
    exact (gives_setoptRequest S mem _ hj).content (by simp [Named]) fun _ _ _ h => h
  | getoptRequest soOpt =>
    obtain rfl : i = _ := h
    exact (gives_getoptRequest S mem _ soOpt).content (by simp [Named]) fun _ _ _ h => h
  | getoptResponse =>
    obtain ⟨j,hj,rfl⟩ := h
    exact (gives_getoptResponse S mem _ hj).content (by simp [Named]) fun _ _ _ h => h
  | _ =>
    obtain rfl : i = _ := h
    exact gives_null S mem rfl

section

variable (stale : Property Slice) {old : IoMessage Slice} {source proxy target : IoRef} {i j k : β}
  (hsource : source.SentIn F old.sourceId i) (hproxy : proxy.SentIn F old.proxyId j)
  (htarget : target.SentIn F old.targetId k) {version verNum : UInt32}
  (hversion : version &&& 0xffff0000 = verNum &&& 0xffff0000) (errorCode : Int32) (isResponse : Bool) {γ : Type}
include hsource hproxy htarget hversion

/-- The members before the content are read as they are. -/
theorem gives_header (t : UInt32) (content : β) {d Q} (h : ∀ msg : IoMessage Slice, msg = { old with
          sourceId := source, proxyId := proxy, targetId := target, errorCode, isResponse, type := t } →
      ∃ P : γ → Content Slice → Memory → Prop,
        S.gives (ioDecodeMessageContent c stale msg) [("content",content)] mem d P ∧
          ∀ g content mem', P g content mem' → Q g { msg with content } mem') :
    S.gives (ioDecodeMessageOf c verNum stale old)
      (messageMembers F version i j k errorCode isResponse t content) mem d Q := by
  refine S.type ((S.uint32 "version" version mem).read ?_)
  rw [if_neg (not_not_intro hversion)]
  refine (gives_ref S mem "source_id" hsource).read ?_
  refine (gives_ref S mem "proxy_id" hproxy).read ?_
  refine (gives_ref S mem "target_id" htarget).read ?_
  refine (S.int32 "error_code" errorCode mem).read ?_
  refine (S.bool "is_response" isResponse mem).read ?_
  refine (S.uint32 "type" t mem).read ?_
  obtain ⟨P,hcontent,hmsg⟩ := h _ rfl
  rw [← map_id_apply (x := d)]
  exact hcontent.last fun g content mem' hp => S.ending (hmsg g content mem' hp)

lemma gives_unknownType {t} (htype : messageType t = none) (content : β) (P : γ → IoMessage Slice → Memory → Prop) :
    S.gives (ioDecodeMessageOf c verNum stale old)
      (messageMembers F version i j k errorCode isResponse t content) mem none P := by
  refine gives_header S mem stale hsource hproxy htarget hversion errorCode isResponse t content ?_
  rintro _ rfl
  refine ⟨fun _ _ _ => False,?_,fun _ _ _ => False.elim⟩
  unfold ioDecodeMessageContent
  rw [htype]
  exact S.stop _ _ _ _

end

/-- The record denotes what arrives of the message. The two builds agree in the upper half of their versions. -/
theorem gives_message (stale : Property Slice) {old : IoMessage Slice} {msg : Message} {version verNum}
    {ms} (h : msg.SentIn F version old ms) (hversion : version &&& 0xffff0000 = verNum &&& 0xffff0000) :
    S.gives (ioDecodeMessageOf c verNum stale old) ms mem (msg.body.via χ)
      fun b r mem' => r.denote mem'.read = (b.kept (moves place mem)).map fun body => { msg with body } := by
  obtain ⟨source,proxy,target,content,hsource,hproxy,htarget,hcontent,rfl⟩ := h
  refine gives_header S mem stale hsource hproxy htarget hversion msg.errorCode msg.body.isResponse
    msg.body.type.code content ?_
  rintro _ rfl
  refine ⟨_,gives_messageContent S mem stale _ (by exact hcontent) rfl rfl,fun b content mem' h => ?_⟩
  exact congrArg (Option.map _) h

end EdgeProxy.Codec
