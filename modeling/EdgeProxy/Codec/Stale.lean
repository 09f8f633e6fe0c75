import EdgeProxy.Codec.Complete
import EdgeProxy.Codec.Runs

/-! # Previous content that shows through

Whether the values of a decoded message depend on the input only. The decoders succeed on null objects and on content
that is too short, and leave there what the memory held before.
-/
namespace EdgeProxy.Codec

open Base Lib Lib.MessagePack List RawAddress Body Content

variable {π : Type}

lemma depends_props (raw : RawProps π) :
    DependsUnless emptyStrings (fun read (old : Property π × SocketProperties π) => (raw.apply old.1 old.2).denote read)
      raw.Complete := by
  have hboth := ((depends_addressMember raw.address).pair
    (depends_options raw.options)).map
    (fun p => Props.mk raw.family raw.sockType raw.protoType raw.flags raw.timeout p.1 p.2) fun _ _ => by grind
  refine (hboth.part (g := fun old : Property π × SocketProperties π => (old.2.address,old.1)) fun p => ?_).of_eq
    fun read old => ?_
  · exact ⟨(p.2,⟨0,0,0,0,0,p.1,.replicate prxSoMax .zero⟩),rfl⟩
  · simp only [SocketProperties.denote,RawProps.apply]
    cases (applyMember apply raw.address old.2.address).denote <;>
      cases denoteOptions read (applyOptions raw.options old.1 (.replicate prxSoMax .zero)) <;> rfl

def flagsOnly (flags : UInt32) : SocketProperties π :=
  ⟨0,0,0,flags,0,default,.replicate prxSoMax .zero⟩
lemma denote_flagsOnly (flags : UInt32) (read : π → Option Bytes) :
    (flagsOnly flags).denote read = some ⟨0,0,0,flags,0,.unspec,optionsValue read (.replicate prxSoMax .zero)⟩ := by
  rfl

lemma depends_propsMember (raw : Option (RawProps π)) : DependsUnless emptyStrings
      (fun read (old : Property π × SocketProperties π) =>
        (applyMember (RawProps.apply old.1) raw old.2).denote read)
      (MemberComplete RawProps.Complete raw) := by
  cases raw with
  | none =>
    refine .of_ne (.zero,flagsOnly 0) (.zero,flagsOnly 1) (denote_flagsOnly 0 _) (denote_flagsOnly 1 _) fun h => ?_
    exact absurd (show (0 : UInt32) = 1 from congrArg Props.flags h) (by decide)
  | some raw => exact depends_props raw
lemma depends_propertyMember (raw : Option (RawProperty π)) :
    DependsUnless emptyStrings (fun read old => (applyMember RawProperty.apply raw old).denote read)
      (MemberComplete RawProperty.Complete raw) := by
  have hvalue := fun value => RawProperty.denote_option ⟨1,by decide⟩ value (emptyStrings : π → Option Bytes) .zero
  refine depends_member (Property.denote) (.of_ne _ _ (hvalue 0) (hvalue 1) fun h => ?_)
    depends_property raw
  cases h

def RawContent.kinds : RawContent π → List (MessageType × Bool)
  | none => [(.close,false),(.poll,true),(.open,true),(.setopt,true)]
  | data _ => [(.data,false),(.data,true)]
  | closeResponse _ => [(.close,true)]
  | pingRequest _ => [(.ping,false)]
  | pingResponse _ => [(.ping,true)]
  | poll _ => [(.poll,false)]
  | linkRequest _ => [(.link,false)]
  | linkResponse _ => [(.link,true)]
  | openRequest _ => [(.open,false)]
  | setoptRequest _ => [(.setopt,false)]
  | getoptRequest _ => [(.getopt,false)]
  | getoptResponse _ => [(.getopt,true)]

def bodyOf (read : π → Option Bytes) (type : MessageType) (isResponse : Bool) (content : Content π) : Option Body :=
  ({ (IoMessage.zero : IoMessage π) with type := type.code,isResponse,content } : IoMessage π).denoteBody read

lemma depends_dataMessage (raw : RawDataMessage π) (isResponse : Bool) :
    DependsUnless emptyStrings (fun read old => (raw.apply old).denote read isResponse)
      (MemberComplete Complete raw.source) := by
  obtain ⟨buffer,hb⟩ := bufferValue_emptyStrings raw.buffer
  obtain ⟨control,hc⟩ := bufferValue_emptyStrings raw.controlBuffer
  have hall := (depends_pair_memory (depends_addressMember raw.source)
    (fun read => (bufferValue read raw.buffer).bind fun b =>
      (bufferValue read raw.controlBuffer).bind fun c => some (b,c))
    (by rw [hb,hc]; rfl)).map (fun p => data isResponse raw.sequenceNumber p.1 p.2.1 p.2.2) fun _ _ => by grind
  refine (hall.part (g := fun old : DataMessage π => old.sourceAddress) fun address => ?_).of_eq fun read old => ?_
  · exact ⟨⟨0,address,none,none⟩,rfl⟩
  · simp only [DataMessage.denote,RawDataMessage.apply]
    cases (applyMember apply raw.source old.sourceAddress).denote <;>
      cases bufferValue read raw.buffer <;> cases bufferValue read raw.controlBuffer <;> rfl

lemma depends_pingResponse {ρ : Type} {e : ρ} (raw : RawPingResponse) :
    DependsUnless e (fun _ old => (raw.apply old).denote)
      (MemberComplete Complete raw.address ∧ 8 ≤ raw.physicalAddress.length) := by
  have hboth := ((depends_addressMember (e := e) raw.address).pair (depends_overlay raw.physicalAddress)).map
    (fun p => pingResponse p.1 p.2 raw.timeMs) fun _ _ => by grind
  refine (hboth.part (g := fun old : PingResponse => (old.address,old.physicalAddress)) fun p => ?_).of_eq
    fun read old => ?_
  · exact ⟨⟨p.1,p.2,0⟩,rfl⟩
  · simp only [PingResponse.denote,RawPingResponse.apply]
    cases (applyMember apply raw.address old.address).denote <;> rfl

lemma depends_linkResponse {ρ : Type} {e : ρ} (raw : RawLinkResponse) :
    DependsUnless e (fun _ old => (raw.apply old).denote)
      (MemberComplete RefComplete raw.linkId ∧ MemberComplete Complete raw.localAddress ∧
        MemberComplete Complete raw.peerAddress) := by
  have hall := ((depends_refMember (e := e) raw.linkId).pair
    ((depends_addressMember raw.localAddress).pair (depends_addressMember raw.peerAddress))).map
    (fun p => linkResponse p.1 p.2.1 p.2.2) fun _ _ => by grind
  refine (hall.part (g := fun old : LinkResponse => (old.linkId,old.localAddress,old.peerAddress)) fun p => ?_).of_eq
    fun read old => ?_
  · exact ⟨⟨p.1,p.2.1,p.2.2⟩,rfl⟩
  · simp only [LinkResponse.denote,RawLinkResponse.apply]
    cases (applyMember apply raw.localAddress old.localAddress).denote <;>
      cases (applyMember apply raw.peerAddress old.peerAddress).denote <;> rfl

lemma depends_openRequest (raw : RawOpenRequest π) :
    DependsUnless emptyStrings (fun read old => (raw.apply old).denote read)
      (MemberComplete RefComplete raw.streamId) := by
  have hall := (depends_pair_memory (depends_refMember raw.streamId) (fun read => (read raw.connectionString).bind text)
    rfl).map (fun p => openRequest p.1 raw.type p.2 raw.polled raw.maxRecv) fun _ _ => by grind
  refine (hall.part (g := fun old : OpenRequest π => old.streamId) fun streamId => ?_).of_eq fun read old => ?_
  · exact ⟨⟨streamId,0,none,false,0,0⟩,rfl⟩
  · simp only [OpenRequest.denote,RawOpenRequest.apply]
    cases hread : read raw.connectionString with
    | none => simp [hread]
    | some d =>
      cases text d with
      | none | some => simp [hread]

lemma depends_inContent {σ : Type} {view : (π → Option Bytes) → σ → Option Body} {settled : Prop}
    (h : DependsUnless emptyStrings view settled) (g : Content π → σ) (hg : Function.Surjective g) :
    DependsUnless emptyStrings (fun read (old : Property π × Content π) => view read (g old.2)) settled :=
  h.part (hg.comp fun content => ⟨(.zero,content),rfl⟩)

lemma depends_content (raw : RawContent π) {type : MessageType} {isResponse} (h : (type,isResponse) ∈ raw.kinds) :
    DependsUnless emptyStrings
      (fun read (old : Property π × Content π) => bodyOf read type isResponse (raw.apply old.1 old.2))
      raw.Complete := by
  have : Inhabited (Property π × Content π) := ⟨(.zero,.zero)⟩
  cases raw with
  | none =>
    simp only [RawContent.kinds,mem_cons,not_mem_nil,or_false] at h
    rcases h with ⟨rfl,rfl⟩ | ⟨rfl,rfl⟩ | ⟨rfl,rfl⟩ | ⟨rfl,rfl⟩
    · exact .const (fun _ => some closeRequest) rfl
    · exact .const (fun _ => some pollResponse) rfl
    · exact .const (fun _ => some openResponse) rfl
    · exact .const (fun _ => some setoptResponse) rfl
  | data message =>
    have hdata := depends_inContent (depends_dataMessage message isResponse) (·.dataMessage) fun dataMessage =>
      ⟨{ zero with dataMessage },rfl⟩
    simp only [RawContent.kinds,mem_cons,not_mem_nil,or_false] at h
    rcases h with ⟨rfl,rfl⟩ | ⟨rfl,rfl⟩ <;> exact hdata
  | closeResponse response =>
    cases mem_singleton.1 h
    exact .const (fun _ => some response.denote) rfl
  | pingRequest address =>
    cases mem_singleton.1 h
    have haddress := (depends_addressMember (e := (emptyStrings : π → Option Bytes)) address).map
      pingRequest fun _ _ => by grind
    exact depends_inContent haddress (·.pingRequest.address) fun address =>
      ⟨{ zero with pingRequest := ⟨address⟩ },rfl⟩
  | pingResponse response =>
    cases mem_singleton.1 h
    exact depends_inContent (depends_pingResponse response) (·.pingResponse) fun pingResponse =>
      ⟨{ zero with pingResponse },rfl⟩
  | poll message =>
    cases mem_singleton.1 h
    exact .const (fun _ => some (pollRequest message.sequenceNumber message.timeout)) rfl
  | linkRequest request =>
    cases mem_singleton.1 h
    have hprops := (depends_propsMember request.props).map (linkRequest request.version) fun _ _ => by grind
    exact hprops.part (g := fun old : Property π × Content π => (old.1,old.2.linkRequest.props)) fun p =>
      ⟨(p.1,{ zero with linkRequest := ⟨0,p.2⟩ }),rfl⟩
  | linkResponse response =>
    cases mem_singleton.1 h
    exact depends_inContent (depends_linkResponse response) (·.linkResponse) fun linkResponse =>
      ⟨{ zero with linkResponse },rfl⟩
  | openRequest request =>
    cases mem_singleton.1 h
    exact depends_inContent (depends_openRequest request) (·.openRequest) fun openRequest =>
      ⟨{ zero with openRequest },rfl⟩
  | setoptRequest soVal =>
    cases mem_singleton.1 h
    have hvalue := (depends_propertyMember soVal).map setoptRequest fun _ _ => by grind
    exact depends_inContent hvalue (·.setoptRequest.soVal) fun soVal =>
      ⟨{ zero with setoptRequest := ⟨soVal⟩ },rfl⟩
  | getoptRequest request =>
    cases mem_singleton.1 h
    exact .const (fun _ => some (getoptRequest request.soOpt)) rfl
  | getoptResponse soVal =>
    cases mem_singleton.1 h
    have hvalue := (depends_propertyMember soVal).map getoptResponse fun _ _ => by grind
    exact depends_inContent hvalue (·.getoptResponse.soVal) fun soVal =>
      ⟨{ zero with getoptResponse := ⟨soVal⟩ },rfl⟩

def RawMessage.Tagged (raw : RawMessage π) : Prop :=
  ∃ type, messageType raw.type = some type ∧ (type,raw.isResponse) ∈ raw.content.kinds

lemma depends_message {raw : RawMessage π} (h : raw.Tagged) :
    DependsUnless emptyStrings (fun read (old : Property π × IoMessage π) => (raw.apply old.1 old.2).denote read)
      raw.Complete := by
  obtain ⟨type,htype,hkind⟩ := h
  have hall := ((depends_refMember raw.sourceId).pair
    ((depends_refMember raw.proxyId).pair
      ((depends_refMember raw.targetId).pair (depends_content raw.content hkind)))).map
    (fun p => Message.mk p.1 p.2.1 p.2.2.1 raw.errorCode p.2.2.2) fun _ _ => by grind
  refine (hall.part (g := fun old : Property π × IoMessage π =>
    (old.2.sourceId,old.2.proxyId,old.2.targetId,old.1,old.2.content)) fun p => ?_).of_eq fun read old => ?_
  · exact ⟨(p.2.2.2.1,⟨p.1,p.2.1,p.2.2.1,0,false,0,p.2.2.2.2⟩),rfl⟩
  · have hbody : (raw.apply old.1 old.2).denoteBody read =
        bodyOf read type raw.isResponse (raw.content.apply old.1 old.2.content) := by
      rw [bodyOf,code_of_messageType htype]
      rfl
    rw [IoMessage.denote,hbody]
    cases bodyOf read type raw.isResponse (raw.content.apply old.1 old.2.content) <;> rfl

variable {ω α β : Type}

/-- Decoding from `s` gives the same value and ends in the same state, whatever the memory held before. -/
def DependsOnlyOnInput {σ : Type} (decode : σ → StateT ω (Except Stop) α) (same : α → α → Prop) (s : ω) : Prop :=
  ∀ old old' a a' t t', Ok (decode old) s a t → Ok (decode old') s a' t' → same a a' ∧ t = t'

lemma ok_map {f} {x : StateT ω (Except Stop) α} {s t} {b : β} : Ok (f <$> x) s b t ↔ ∃ a, Ok x s a t ∧ b = f a := by
  simp only [map_eq_pure_bind,ok_bind,ok_pure]
  constructor
  · rintro ⟨a,_,hx,rfl,rfl⟩
    exact ⟨a,hx,rfl⟩
  · rintro ⟨a,hx,rfl⟩
    exact ⟨a,t,hx,rfl,rfl⟩

lemma map_eq_true_iff {p : α → Prop} {x : StateT ω (Except Stop) α} :
    p <$> x = (fun _ => True) <$> x ↔ ∀ s a t, Ok x s a t → p a := by
  constructor
  · intro heq s a t hok
    have htrue : Ok (p <$> x) s (p a) t := ok_map.2 ⟨a,hok,rfl⟩
    rw [heq] at htrue
    obtain ⟨_,-,hp⟩ := ok_map.1 htrue
    exact of_eq_true hp
  · intro h
    funext s
    change Except.map _ (x s) = Except.map _ (x s)
    cases hx : x s with
    | error => rfl
    | ok r => simp [Except.map,h s r.1 r.2 hx]

/-- For a decoder that reads first, what was read decides. -/
theorem dependsOnlyOnInput_iff {σ ρ τ : Type} {decode} {read : StateT ω (Except Stop) α} {apply : α → σ → β}
    {same : β → β → Prop} {e} {v : ρ → β → Option τ} {complete : α → Prop} {s}
    (h : ∀ old, decode old = (fun raw => apply raw old) <$> read) (hsame : ∀ b b', same b b' ↔ ∀ r, v r b = v r b')
    (hdepends : ∀ {raw t}, Ok read s raw t → DependsUnless e (fun r old => v r (apply raw old)) (complete raw)) :
    DependsOnlyOnInput decode same s ↔ ∀ raw t, Ok read s raw t → complete raw := by
  constructor
  · intro honly raw t hread
    have hok : ∀ old, Ok (decode old) s (apply raw old) t := by
      intro old
      rw [h]
      exact ok_map.2 ⟨raw,hread,rfl⟩
    exact (hdepends hread).iff.1 fun r old old' => (hsame _ _).1 (honly _ _ _ _ _ _ (hok old) (hok old')).1 r
  · intro hcomplete old old' a a' t t' hok hok'
    rw [h] at hok hok'
    obtain ⟨raw,hread,rfl⟩ := ok_map.1 hok
    obtain ⟨raw',hread',rfl⟩ := ok_map.1 hok'
    obtain ⟨rfl,rfl⟩ := hread.det hread'
    exact ⟨(hsame _ _).2 fun r => (hdepends hread).same (hcomplete raw t hread) r old old',rfl⟩

def SocketAddress.Same (a b : SocketAddress) : Prop :=
  a.denote = b.denote
def SocketProperties.Same (a b : SocketProperties π) : Prop :=
  ∀ read, a.denote read = b.denote read
def IoMessage.Same (a b : IoMessage π) : Prop :=
  ∀ read, a.denote read = b.denote read

/-- What is decoded depends on the input only exactly if what stands there is complete. -/
def CompleteDecides (c : Decoder (StateT ω (Except Stop)) π) (s : ω) : Prop :=
  (DependsOnlyOnInput (ioDecodeRef c) Eq s ↔ ∀ d t, Ok (readRef c) s d t → RefComplete d) ∧
  (DependsOnlyOnInput (ioDecodePrxSocketAddress c) SocketAddress.Same s ↔
    ∀ raw t, Ok (readAddress c) s raw t → raw.Complete) ∧
  (DependsOnlyOnInput (fun old : Property π × SocketProperties π =>
    ioDecodePrxSocketProperties c old.1 old.2) SocketProperties.Same s ↔
      ∀ raw t, Ok (readProps c) s raw t → raw.Complete) ∧
  (DependsOnlyOnInput (fun old : Property π × IoMessage π => decodeMessageObject c old.1 old.2) IoMessage.Same s ↔
    ∀ raw t, Ok (readMessageObject c) s raw t → raw.Complete)

section

variable {c : Decoder (StateT ω (Except Stop)) π}

lemma kinds_of_readContent {type} {isResponse : Bool} {raw} {s t} (h : Ok (readContent c type isResponse) s raw t) :
    ∃ kind, messageType type = some kind ∧ (kind,isResponse) ∈ raw.kinds := by
  unfold readContent at h
  cases hkind : messageType type with
  | none =>
    rw [hkind] at h
    exact absurd h ok_throw
  | some kind =>
    rw [hkind] at h
    cases kind <;> cases isResponse
    all_goals
      obtain ⟨content,-,rfl⟩ := ok_map.1 h
      simp [RawContent.kinds]
lemma tagged_of_readMessage {raw s t} (h : Ok (readMessage c) s raw t) : raw.Tagged := by
  obtain ⟨_,_,-,h⟩ := ok_bind.1 h
  obtain ⟨version,_,-,h⟩ := ok_bind.1 h
  split_ifs at h
  · obtain ⟨_,_,hthrow,-⟩ := ok_bind.1 h
    exact absurd hthrow ok_throw
  · simp only [ok_bind] at h
    obtain ⟨_,_,-,_,_,-,_,_,-,_,_,-,_,_,-,_,_,-,_,_,hcontent,_,_,-,rfl,-⟩ := h
    exact kinds_of_readContent hcontent

variable (h : c.Splits)
include h

lemma tagged_of_readMessageObject {raw s t} (hok : Ok (readMessageObject c) s raw t) : raw.Tagged := by
  refine map_eq_true_iff.1 ?_ s raw t hok
  unfold readMessageObject
  rw [← h.decObject,← h.decObject]
  congr 1
  funext isNull
  exact map_eq_true_iff.2 fun s raw t hok => by
    cases isNull with
    | false => exact tagged_of_readMessage hok
    | true => exact absurd hok ok_throw

lemma completeDecides (s : ω) : CompleteDecides c s := by
  refine ⟨?_,?_,?_,?_⟩
  · exact dependsOnlyOnInput_iff (ioDecodeRef_eq h) (fun _ _ => by simp) fun _ => depends_ref (e := ()) _
  · exact dependsOnlyOnInput_iff (ioDecodePrxSocketAddress_eq h) (fun _ _ => (forall_const _).symm)
      fun _ => depends_address (e := ()) _
  · exact dependsOnlyOnInput_iff (fun old => ioDecodePrxSocketProperties_eq h old.1 old.2) (fun _ _ => .rfl)
      fun _ => depends_props _
  · exact dependsOnlyOnInput_iff (fun old => decodeMessageObject_eq h old.1 old.2) (fun _ _ => .rfl)
      fun hread => depends_message (tagged_of_readMessageObject h hread)

end

theorem dependsOnlyOnInput_iff_complete (place : ℕ → Option ℕ) :
    (∀ lib s, CompleteDecides (mpackDecoder lib place) s) ∧
      ∀ (τ : Type) (lib : JsonLibrary τ) palPton s, CompleteDecides (jsonDecoder lib palPton place) s :=
  ⟨fun lib => completeDecides (mpackDecoder_splits lib place),
    fun _ lib palPton => completeDecides (jsonDecoder_splits lib palPton place)⟩

def closeRequestWith (sourceId proxyId targetId : Bytes) : Bytes :=
  [0x99,0xc0,0xce,0x00,0x02,0x01,0x00] ++ sourceId ++ proxyId ++ targetId ++ [0x00,0xc2,0x15,0xc0]
def refOfLength (n : ℕ) : Bytes :=
  [0x92,0xc0,0xc4,.ofNat n] ++ List.replicate n 1

/-- With three whole ids nothing of the previous message shows. -/
theorem wholeIds_dependOnlyOnInput :
    DependsOnlyOnInput (fun old : Property Slice × IoMessage Slice =>
      decodeMessageObject (mpackDecoder format fun _ => some 0) old.1 old.2) IoMessage.Same
        ⟨closeRequestWith (refOfLength 16) (refOfLength 16) (refOfLength 16),⟨1,⟨none,0⟩⟩⟩ := by
  refine ((dependsOnlyOnInput_iff_complete _).1 _ _).2.2.2.2 fun raw t hread => ?_
  obtain ⟨raw',t',hread',hcomplete⟩ := ok_of_checkRun (x := readMessageObject (mpackDecoder format fun _ => some 0))
    (s := ⟨closeRequestWith (refOfLength 16) (refOfLength 16) (refOfLength 16),⟨1,⟨none,0⟩⟩⟩)
    (p := fun raw _ => raw.Complete) (by decide +kernel)
  obtain ⟨rfl,rfl⟩ := hread.det hread'
  exact of_decide_eq_true hcomplete

lemma not_dependsOnlyOnInput_of_check {s}
    (h : checkRun (readMessageObject (mpackDecoder format fun _ => some 0)) s (fun raw _ => ¬raw.Complete)) :
    ¬DependsOnlyOnInput (fun old : Property Slice × IoMessage Slice =>
      decodeMessageObject (mpackDecoder format fun _ => some 0) old.1 old.2) IoMessage.Same s := by
  intro hsame
  obtain ⟨raw,t,hread,hincomplete⟩ := ok_of_checkRun h
  exact of_decide_eq_true hincomplete ((completeDecides (mpackDecoder_splits format _) s).2.2.2.1 hsame raw t hread)

/-- A source id that is null, and one that is too short, show what was there before. -/
theorem nullAndShortIds_show_previous :
    ¬DependsOnlyOnInput (fun old : Property Slice × IoMessage Slice =>
      decodeMessageObject (mpackDecoder format fun _ => some 0) old.1 old.2) IoMessage.Same
        ⟨closeRequestWith [0xc0] (refOfLength 16) (refOfLength 16),⟨1,⟨none,0⟩⟩⟩ ∧
    ¬DependsOnlyOnInput (fun old : Property Slice × IoMessage Slice =>
      decodeMessageObject (mpackDecoder format fun _ => some 0) old.1 old.2) IoMessage.Same
        ⟨closeRequestWith (refOfLength 2) (refOfLength 16) (refOfLength 16),⟨1,⟨none,0⟩⟩⟩ :=
  ⟨not_dependsOnlyOnInput_of_check (by decide +kernel),not_dependsOnlyOnInput_of_check (by decide +kernel)⟩

end EdgeProxy.Codec
