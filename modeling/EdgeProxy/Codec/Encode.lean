import EdgeProxy.Codec.Document

/-! # The encoders write documents

Every successful run of an encoder writes the document of the value its record denotes, and a run on a record that
denotes no value never succeeds. This holds for any codec that writes values as its format says.
-/
namespace EdgeProxy.Codec

open Base Option Body Property

variable {m : Type → Type} [Monad m] [MonadExceptOf Stop m] {β : Type}

/-- What the successful runs of a writer write, `none` if there are none: members of the object that
is being written, a record with these members, or elements of an array. -/
structure Encoder.Spec (c : Encoder m) (F : Format β) where
  members : m Unit → Option (List (String × β)) → Prop
  record : m Unit → Option (List (String × β)) → Prop
  items : m Unit → Option (List β) → Prop
  uint : ∀ name v, members (c.encUint (some name) v) (some [(name,F.uint v)])
  int32 : ∀ name v, members (c.encodeInt32 (some name) v) (some [(name,F.int32 v)])
  bool : ∀ name v, members (c.encBool (some name) v) (some [(name,F.bool v)])
  string : ∀ name s, members (c.encString (some name) s) ((s.bind cstr).map fun t => [(name,F.str t)])
  bin : ∀ name d, members (c.encBin (some name) d) (some [(name,F.bin d)])
  null : ∀ name, members (c.encObject (some name) true (pure ())) (some [(name,F.null)])
  object : ∀ name {x w}, record x w → members (c.encObject (some name) false x) (w.map fun ms => [(name,F.obj ms)])
  array : ∀ name {x w k}, items x w → (∀ is ∈ w, is.length = k) →
    members (c.encArray (some name) k x) (w.map fun is => [(name,F.arr is)])
  stop : ∀ e, members (throw e) none
  seq : ∀ {x y w w'}, members x w → members y w' → members (x >>= fun _ => y) (w.bind fun a => w'.map (a ++ ·))
  ending : members c.encTypeEnd (some [])
  type : ∀ {k x w}, members x w → (∀ ms ∈ w, ms.length = k ∧ Named ms) → record (c.encTypeBegin k >>= fun _ => x) w
  ref : ∀ r, record (ioEncodeRef c r) (some (r.members F))
  stopRecord : ∀ e, record (throw e) none
  nil : items (pure ()) (some [])
  element : ∀ {x y w w'}, record x w → items y w' →
    items (c.encObject none false x >>= fun _ => y) (w.bind fun ms => w'.map (F.obj ms :: ·))

variable {c : Encoder m} {F : Format β} (S : c.Spec F)

section

variable {S} {x y : m Unit} {w w' : Option (List (String × β))}

lemma Encoder.Spec.members.of_eq (h : S.members x w) (e : w = w') : S.members x w' :=
  e ▸ h
lemma Encoder.Spec.members.seq (h : S.members x w) (h' : S.members y w') :
    S.members (x >>= fun _ => y) (w.bind fun a => w'.map (a ++ ·)) :=
  S.seq h h'
lemma Encoder.Spec.members.item {i} (h : S.members x (some [i])) (h' : S.members y w') :
    S.members (x >>= fun _ => y) (w'.map (i :: ·)) :=
  S.seq h h'
lemma Encoder.Spec.record.of_eq (h : S.record x w) (e : w = w') : S.record x w' :=
  e ▸ h

end

lemma cstr_eq_text (mem : Bytes) : cstr mem = (text mem).map fun t => t.1 := by
  unfold cstr text
  split_ifs <;> rfl
lemma cstr_eq_fixedText {n} (v : Vector UInt8 n) : cstr v.toList = (fixedText v).map fun t => t.1 := by
  unfold cstr fixedText
  split_ifs <;> rfl
lemma writes_uint32 (name : String) (v : UInt32) :
    S.members (c.encodeUint32 (some name) v) (some [(name,F.uint32 v)]) :=
  S.uint name _
lemma writes_uint16 (name : String) (v : UInt16) :
    S.members (c.encodeUint16 (some name) v) (some [(name,F.uint16 v)]) :=
  S.uint name _
lemma writes_uint8 (name : String) (v : UInt8) : S.members (c.encodeUint8 (some name) v) (some [(name,F.uint8 v)]) :=
  S.uint name _
lemma writes_fixedString {n} (name : String) (v : Vector UInt8 n) :
    S.members (c.encString (some name) v.toList) ((fixedText v).map fun t => [(name,F.str t.1)]) :=
  (S.string name v.toList).of_eq (by simp [cstr_eq_fixedText,Function.comp_def])

lemma writes_addressInet (sa : SocketAddress) (h : sa.family = prxAddressFamilyInet) :
    S.record (ioEncodePrxSocketAddressInet c sa) (some ((Address.inet sa.ip.port sa.ip.in4).members F)) := by
  unfold ioEncodePrxSocketAddressInet
  simp only [h]
  exact S.type ((S.int32 _ _).item ((writes_uint16 S _ _).item ((S.bin _ _).item S.ending)))
    (by simp [Named,Address.members])
lemma writes_addressInet6 (sa : SocketAddress) (h : sa.family = prxAddressFamilyInet6) :
    S.record (ioEncodePrxSocketAddressInet c sa)
      (some ((Address.inet6 sa.ip.port sa.ip.flow sa.ip.in6 sa.ip.scopeId).members F)) := by
  have hne : sa.family ≠ prxAddressFamilyInet := by
    rw [h]
    decide
  unfold ioEncodePrxSocketAddressInet
  rw [if_neg hne,h]
  exact S.type ((S.int32 _ _).item ((writes_uint16 S _ _).item ((writes_uint32 S _ _).item
    ((S.bin _ _).item ((writes_uint32 S _ _).item S.ending))))) (by simp [Named,Address.members])
lemma writes_addressProxy (sa : SocketAddress) (h : sa.family = prxAddressFamilyProxy) :
    S.record (ioEncodePrxSocketAddressProxy c sa)
      ((fixedText sa.proxy.host).map fun t =>
        (Address.proxy sa.proxy.port sa.proxy.flags sa.proxy.itfIndex t).members F) := by
  have hm := (S.int32 "family" sa.family).item ((writes_uint16 S "port" sa.proxy.port).item
    ((writes_uint16 S "flags" sa.proxy.flags).item ((S.int32 "itf_index" sa.proxy.itfIndex).item
      ((writes_fixedString S "host" sa.proxy.host).seq S.ending))))
  refine (S.type hm ?_).of_eq ?_ <;> cases fixedText sa.proxy.host <;> simp [Named,Address.members,h]
lemma writes_addressUnix (sa : SocketAddress) (h : sa.family = prxAddressFamilyUnix) :
    S.record (ioEncodePrxSocketAddressUnix c sa)
      ((fixedText sa.ux.path).map fun t => (Address.unix t).members F) := by
  have hm := (S.int32 "family" sa.family).item ((writes_fixedString S "path" sa.ux.path).seq S.ending)
  refine (S.type hm ?_).of_eq ?_ <;> cases fixedText sa.ux.path <;> simp [Named,Address.members,h]

lemma writes_address (sa : SocketAddress) :
    S.record (ioEncodePrxSocketAddress c sa) (sa.denote.map (Address.members F)) := by
  unfold ioEncodePrxSocketAddress SocketAddress.denote
  by_cases h0 : sa.family = prxAddressFamilyUnspec
  · simp only [h0]
    exact S.type ((S.int32 _ _).item S.ending) (by simp [Named,Address.members])
  by_cases h1 : sa.family = prxAddressFamilyInet
  · simp only [h1]
    exact writes_addressInet S sa h1
  by_cases h2 : sa.family = prxAddressFamilyInet6
  · rw [if_neg h0,if_pos (.inr h2),if_neg h0,if_neg h1,if_pos h2]
    exact writes_addressInet6 S sa h2
  have h12 : ¬(sa.family = prxAddressFamilyInet ∨ sa.family = prxAddressFamilyInet6) := not_or.2 ⟨h1,h2⟩
  rw [if_neg h0,if_neg h12,if_neg h0,if_neg h1,if_neg h2]
  by_cases h3 : sa.family = prxAddressFamilyProxy
  · rw [if_pos h3,if_pos h3,map_map]
    exact writes_addressProxy S sa h3
  rw [if_neg h3,if_neg h3]
  by_cases h4 : sa.family = prxAddressFamilyUnix
  · rw [if_pos h4,if_pos h4,map_map]
    exact writes_addressUnix S sa h4
  rw [if_neg h4,if_neg h4]
  exact S.stopRecord _

lemma writes_addressMember (name : String) (sa : SocketAddress) :
    S.members (c.encObject (some name) false (ioEncodePrxSocketAddress c sa))
      (sa.denote.map fun a => [(name,F.obj (a.members F))]) :=
  (S.object name (writes_address S sa)).of_eq (map_map ..)

lemma writes_multicast (mo : MulticastOption) :
    S.record (ioEncodePrxMulticastOption c mo) (mo.denote.map (Multicast.members F)) := by
  unfold ioEncodePrxMulticastOption MulticastOption.denote
  by_cases h1 : mo.family = prxAddressFamilyInet
  · rw [h1]
    exact S.type ((S.int32 _ _).item ((S.int32 _ _).item ((S.bin _ _).item S.ending)))
      (by simp [Named,Multicast.members])
  rw [if_neg h1,if_neg h1]
  by_cases h2 : mo.family = prxAddressFamilyInet6
  · rw [h2]
    exact S.type ((S.int32 _ _).item ((S.int32 _ _).item ((S.bin _ _).item S.ending)))
      (by simp [Named,Multicast.members])
  rw [if_neg h2,if_neg h2]
  exact S.type ((S.int32 _ _).item ((S.int32 _ _).item ((S.stop _).seq S.ending))) (by simp)

lemma writes_name (name : String) (p : Option Bytes) :
    S.members (c.encString (some name) (p.getD [0])) ((nameValue some p).map fun t => [(name,F.str t.1)]) := by
  refine (S.string name _).of_eq ?_
  cases p with
  | none => rfl
  | some => simp [nameValue,cstr_eq_text,Function.comp_def]
lemma writes_addrinfo (ai : AddrInfo Bytes) : S.record (ioEncodePrxAddrinfo c ai)
      ((ai.denote some).map fun p => addrInfoMembers F (F.obj (p.1.members F)) p.2) := by
  have hm := (writes_addressMember S "address" ai.address).seq ((writes_name S "name" ai.name).seq S.ending)
  unfold AddrInfo.denote
  refine (S.type hm ?_).of_eq ?_ <;> cases ai.address.denote <;> cases nameValue some ai.name <;>
    simp [Named,addrInfoMembers]
lemma writes_ifaddrinfo (ifa : IfAddrInfo) : S.record (ioEncodePrxIfaddrinfo c ifa)
      (ifa.denote.map fun v =>
        v.membersWith F (F.obj (v.address.members F)) (F.obj (v.broadcastAddr.members F))) := by
  have hm := (writes_addressMember S "address" ifa.address).seq
    ((writes_uint8 S "prefix" ifa.prefixLen).item ((writes_uint8 S "flags" ifa.flags).item
      ((writes_fixedString S "name" ifa.name).seq ((S.int32 "index" ifa.index).item
        ((writes_addressMember S "broadcast_addr" ifa.broadcastAddr).seq S.ending)))))
  unfold IfAddrInfo.denote
  refine (S.type hm ?_).of_eq ?_ <;> cases ifa.address.denote <;> cases fixedText ifa.name <;>
    cases ifa.broadcastAddr.denote <;> simp [Named,Interface.membersWith]
lemma writes_fileInfo (fi : FileInfo) : S.record (ioEncodePrxFileInfo c fi) (some (fi.members F)) :=
  S.type ((S.uint _ _).item ((S.uint _ _).item ((S.int32 _ _).item ((S.uint _ _).item
    ((S.uint _ _).item ((S.uint _ _).item S.ending)))))) (by simp [Named,FileInfo.members])
lemma writes_typed {α : Type} {x} {d : Option α} {g : α → β} {f} (type : Int32)
    (h : S.members x (d.map fun a => [("property",g a)])) (hf : ∀ a, (f a).members F = propertyMembers F type (g a)) :
    S.record (do
        c.encTypeBegin 2
        c.encodeInt32 "type" type
        x
        c.encTypeEnd)
      ((d.map f).map (Value.members F)) := by
  refine (S.type ((S.int32 _ _).item (h.seq S.ending)) ?_).of_eq ?_ <;> cases d <;>
    simp [hf,Named,propertyMembers]
lemma writes_typedObject {α : Type} {x} {d : Option α} {g : α → List (String × β)} {f}
    (type : Int32) (h : S.record x (d.map g)) (hf : ∀ a, (f a).members F = propertyMembers F type (F.obj (g a))) :
    S.record (do
        c.encTypeBegin 2
        c.encodeInt32 "type" type
        c.encObject "property" false x
        c.encTypeEnd)
      ((d.map f).map (Value.members F)) :=
  writes_typed S type ((S.object "property" h).of_eq (map_map ..)) hf

lemma writes_property (prop : Property Bytes) :
    S.record (ioEncodePrxProperty c prop) ((prop.denote some).map (Value.members F)) := by
  unfold ioEncodePrxProperty denote
  by_cases hobj : isObjectType prop.type
  · rw [if_pos hobj]
    unfold ioEncodePrxPropertyObject
    by_cases hm : isMulticast prop.type
    · rw [if_pos hm,dif_pos hm]
      exact writes_typedObject S _ (writes_multicast S prop.mcast) fun _ => rfl
    rw [if_neg hm,dif_neg hm]
    by_cases ha : prop.type = prxPropertyTypeAddrinfo
    · rw [if_pos ha,if_pos ha]
      exact writes_typedObject S _ (writes_addrinfo S prop.addrInfo) fun _ => by rw [ha]; rfl
    rw [if_neg ha,if_neg ha]
    by_cases hi : prop.type = prxPropertyTypeIfaddrinfo
    · rw [if_pos hi,if_pos hi]
      exact writes_typedObject S _ (writes_ifaddrinfo S prop.itfInfo) fun _ => by rw [hi]; rfl
    rw [if_neg hi,if_neg hi]
    by_cases hf : prop.type = prxPropertyTypeFileInfo
    · rw [if_pos hf,if_pos hf]
      exact writes_typedObject S (d := some prop.fileInfo) _ (writes_fileInfo S prop.fileInfo)
        fun _ => by rw [hf]; rfl
    have hrec : ¬isRecordType prop.type := fun h => h.not_isObjectType hobj
    have hopt : ¬isSocketOption prop.type := fun h => hobj.elim hm h.lt_fileInfo
    rw [if_neg hf,if_neg hf,dif_neg hrec,dif_neg hopt]
    exact writes_typedObject S (d := none) (g := Empty.elim) (f := Empty.elim) _ (S.stopRecord _) nofun
  have hge : ∀ t, prxPropertyTypeFileInfo ≤ t → prop.type ≠ t := fun t ht he => hobj (.inr (he ▸ ht))
  rw [if_neg hobj,dif_neg fun h => hobj (.inl h),if_neg (hge _ (by decide)),if_neg (hge _ (by decide)),
    if_neg (hge _ (by decide))]
  by_cases hrec : isRecordType prop.type
  · rw [if_pos hrec,dif_pos hrec]
    refine writes_typed S _ ((S.bin _ _).of_eq ?_) fun _ => rfl
    cases prop.bin <;> rfl
  rw [if_neg hrec,dif_neg hrec]
  by_cases hopt : isSocketOption prop.type
  · rw [if_pos hopt,dif_pos hopt]
    exact writes_typed S (d := some prop.value) _
      (S.uint _ _) fun _ => rfl
  rw [if_neg hopt,dif_neg hopt]
  exact writes_typed S (d := none) (g := Empty.elim) (f := Empty.elim) _ (S.stop _) nofun

lemma writes_options (options : List (Property Bytes)) : S.items (ioEncodeOptions c options)
      ((options.mapM (denote some)).map (List.map fun v => F.obj (v.members F))) := by
  induction options with
  | nil => exact S.nil
  | cons option options ih =>
    have h := S.element (writes_property S option) ih
    rw [ioEncodeOptions]
    cases hd : option.denote some <;> cases hds : options.mapM (denote some) <;>
      simpa [hd,hds] using h

private lemma mapM_filter_eq {ι α β : Type} (l : List ι) (f : ι → α) (p : α → Prop) [DecidablePred p]
    (d : α → Option β) : ((l.map f).filter fun a => p a).mapM d = if ∀ i ∈ l, p (f i) → (d (f i)).isSome then
        some (l.filterMap fun i => if p (f i) then d (f i) else none)
      else none := by
  induction l with
  | nil => simp
  | cons i l ih =>
    simp only [List.map_cons,List.mem_cons,forall_eq_or_imp]
    by_cases hp : p (f i)
    · rw [List.filter_cons_of_pos (by simpa using hp),List.mapM_cons,ih]
      cases hd : d (f i) with
      | none => simp [hp]
      | some =>
        simp only [hp,isSome_some,true_and,forall_const]
        split_ifs <;> simp [hp,hd]
    · rw [List.filter_cons_of_neg (by simpa using hp),ih]
      simp [hp]

private lemma length_of_mapM {α β : Type} {d} {l : List α} {r : List β}
    (h : l.mapM d = some r) : r.length = l.length := by
  induction l generalizing r with
  | nil =>
    cases h
    rfl
  | cons a l ih =>
    simp only [List.mapM_cons,bind_eq_bind,bind_eq_some_iff] at h
    obtain ⟨b,-,bs,hbs,⟨⟩⟩ := h
    simp [ih hbs]
lemma mapM_writtenOptions (sp : SocketProperties Bytes) : (writtenOptions sp).mapM (denote some) =
      (denoteOptions some sp.options).map fun o => (List.finRange prxSoMax).filterMap o := by
  have hlist : sp.options.toList = (List.finRange prxSoMax).map fun i => sp.options[i] := by
    apply List.ext_getElem <;> simp
  rw [writtenOptions,hlist,mapM_filter_eq,denoteOptions]
  simp only [List.mem_finRange,forall_const]
  split_ifs <;> rfl

lemma writes_props (sp : SocketProperties Bytes) :
    S.record (ioEncodePrxSocketProperties c sp) ((sp.denote some).map (Props.members F)) := by
  have hopt := S.array "options" (writes_options S (writtenOptions sp))
    (by
      intro is his
      obtain ⟨vs,hvs,rfl⟩ := map_eq_some_iff.1 his
      rw [List.length_map]
      exact length_of_mapM hvs)
  have hm := (S.int32 "family" sp.family).item ((S.int32 "sock_type" sp.sockType).item
    ((S.int32 "proto_type" sp.protoType).item ((writes_uint32 S "flags" sp.flags).item
      ((S.uint "timeout" sp.timeout).item ((writes_addressMember S "address" sp.address).seq (hopt.seq S.ending))))))
  unfold SocketProperties.denote
  rw [mapM_writtenOptions] at hm
  refine (S.type hm ?_).of_eq ?_ <;> cases sp.address.denote <;> cases denoteOptions some sp.options <;>
    simp [Named,Props.members,Props.membersWith,Options.items]

lemma writes_dataMessage (isResponse : Bool) (d : DataMessage Bytes) :
    S.record (ioEncodeDataMessage c d) ((d.denote some isResponse).bind (members F)) := by
  have hval : ∀ p : Option Bytes, bufferValue some p = some (p.getD []) := fun p => by cases p <;> rfl
  have hm := (S.uint "sequence_number" d.sequenceNumber).item
    ((writes_addressMember S "source_address" d.sourceAddress).seq
      ((S.bin "buffer" (castLength (d.buffer.getD []))).item
        ((S.bin "control_buffer" (castLength (d.controlBuffer.getD []))).item S.ending)))
  unfold DataMessage.denote
  rw [hval,hval]
  refine (S.type hm ?_).of_eq ?_ <;> cases d.sourceAddress.denote <;> simp [Named,members,dataMembers]
lemma writes_pingRequest (r : PingRequest) :
    S.record (ioEncodePingRequest c r) ((r.address.denote.map pingRequest).bind (members F)) := by
  have hm := (writes_addressMember S "address" r.address).seq S.ending
  refine (S.type hm ?_).of_eq ?_ <;> cases r.address.denote <;> simp [Named,members]
lemma writes_pingResponse (r : PingResponse) : S.record (ioEncodePingResponse c r) (r.denote.bind (members F)) := by
  have hm := (writes_addressMember S "address" r.address).seq
    ((S.bin "physical_address" r.physicalAddress.toList).item ((writes_uint32 S "time_ms" r.timeMs).item S.ending))
  unfold PingResponse.denote
  refine (S.type hm ?_).of_eq ?_ <;> cases r.address.denote <;> simp [Named,members,pingResponseMembers]
lemma writes_linkRequest (r : LinkRequest Bytes) :
    S.record (ioEncodeLinkRequest c r) ((r.denote some).bind (members F)) := by
  have hm := (writes_uint8 S "version" r.version).item ((S.object "props" (writes_props S r.props)).seq S.ending)
  unfold LinkRequest.denote
  refine (S.type hm ?_).of_eq ?_ <;> cases r.props.denote some <;> simp [Named,members]
lemma writes_refMember (name : String) (r : IoRef) :
    S.members (c.encObject (some name) false (ioEncodeRef c r)) (some [(name,F.obj (r.members F))]) :=
  S.object name (S.ref r)
lemma writes_linkResponse (r : LinkResponse) : S.record (ioEncodeLinkResponse c r) (r.denote.bind (members F)) := by
  have hm := (writes_refMember S "link_id" r.linkId).item
    ((writes_addressMember S "local_address" r.localAddress).seq
      ((writes_addressMember S "peer_address" r.peerAddress).seq S.ending))
  unfold LinkResponse.denote
  refine (S.type hm ?_).of_eq ?_ <;> cases r.localAddress.denote <;> cases r.peerAddress.denote <;>
    simp [Named,members]
lemma writes_setoptRequest (r : SetoptRequest Bytes) :
    S.record (ioEncodeSetoptRequest c r) (((r.soVal.denote some).map setoptRequest).bind (members F)) := by
  have hm := (S.object "so_val" (writes_property S r.soVal)).seq S.ending
  refine (S.type hm ?_).of_eq ?_ <;> cases r.soVal.denote some <;> simp [Named,members]
lemma writes_getoptResponse (r : GetoptResponse Bytes) :
    S.record (ioEncodeGetoptResponse c r) (((r.soVal.denote some).map getoptResponse).bind (members F)) := by
  have hm := (S.object "so_val" (writes_property S r.soVal)).seq S.ending
  refine (S.type hm ?_).of_eq ?_ <;> cases r.soVal.denote some <;> simp [Named,members]
lemma writes_openRequest (r : OpenRequest Bytes) :
    S.record (ioEncodeOpenRequest c r) ((r.denote some).bind (members F)) := by
  have hm := (writes_refMember S "stream_id" r.streamId).item
    ((S.int32 "type" r.type).item ((S.string "connection-string" r.connectionString).seq
      ((S.bool "polled" r.polled).item ((writes_uint32 S "max_recv" r.maxRecv).item S.ending))))
  unfold OpenRequest.denote
  refine (S.type hm ?_).of_eq ?_ <;> cases r.connectionString with
  | none => simp
  | some s => cases h : text s <;> simp [cstr_eq_text,h,Named,members,openRequestMembers]

lemma writes_closeResponse (r : CloseResponse) : S.record (ioEncodeCloseResponse c r) (r.denote.members F) :=
  S.type ((S.uint _ _).item ((S.uint _ _).item ((S.uint _ _).item ((S.int32 _ _).item S.ending))))
    (by simp [Named,CloseResponse.denote,members,closeResponseMembers])
lemma writes_pollMessage (p : PollMessage) :
    S.record (ioEncodePollMessage c p) ((pollRequest p.sequenceNumber p.timeout).members F) :=
  S.type ((S.uint _ _).item ((S.uint _ _).item S.ending)) (by simp [Named,members])
lemma writes_getoptRequest (r : GetoptRequest) :
    S.record (ioEncodeGetoptRequest c r) ((getoptRequest r.soOpt).members F) :=
  S.type ((S.int32 _ _).item S.ending) (by simp [Named,members])

lemma writes_content {x} {d : Option Body} (h : S.record x (d.bind (members F))) (hd : ∀ b ∈ d, (b.members F).isSome) :
    S.members (ioEncodeContent c x) (d.map fun b => [("content",b.doc F)]) := by
  refine (S.object "content" h).of_eq ?_
  cases d with
  | none => rfl
  | some b =>
    obtain ⟨ms,hms⟩ := isSome_iff_exists.1 (hd b rfl)
    simp [doc,hms]
lemma filled_bind {α : Type} {x : Option α} {f : α → Option Body} (h : ∀ a, ∀ b ∈ f a, (b.members F).isSome) :
    ∀ b ∈ x.bind f, (b.members F).isSome := by
  intro b hb
  obtain ⟨a,-,hb⟩ := bind_eq_some_iff.1 hb
  exact h a b hb

lemma writes_messageContent (msg : IoMessage Bytes) :
    S.members (ioEncodeMessageContent c msg) ((msg.denoteBody some).map fun b => [("content",b.doc F)]) := by
  unfold ioEncodeMessageContent IoMessage.denoteBody
  cases messageType msg.type with
  | none => exact S.stop _
  | some t =>
    cases msg.isResponse <;> cases t
    case false.data | true.data =>
      exact writes_content S (writes_dataMessage S _ _)
        (filled_bind fun _ => filled_bind fun _ => filled_bind fun _ => by rintro _ ⟨⟩; rfl)
    case true.close =>
      exact writes_content S (writes_closeResponse S _)
        (by simp [CloseResponse.denote,members])
    case true.ping =>
      exact writes_content S (writes_pingResponse S _) (by simp [PingResponse.denote,members])
    case false.ping =>
      exact writes_content S (writes_pingRequest S _) (by simp [members])
    case false.poll =>
      exact writes_content S (writes_pollMessage S _) (by simp [members])
    case true.link =>
      exact writes_content S (writes_linkResponse S _)
        (filled_bind fun _ => filled_bind fun _ => by rintro _ ⟨⟩; rfl)
    case false.link =>
      exact writes_content S (writes_linkRequest S _) (by simp [LinkRequest.denote,members])
    case false.open =>
      exact writes_content S (writes_openRequest S _)
        (filled_bind fun _ => filled_bind fun _ => filled_bind fun _ => by rintro _ ⟨⟩; rfl)
    case false.setopt =>
      exact writes_content S (writes_setoptRequest S _) (by simp [members])
    case true.getopt =>
      exact writes_content S (writes_getoptResponse S _) (by simp [members])
    case false.getopt =>
      exact writes_content S (writes_getoptRequest S _) (by simp [members])
    all_goals exact S.null _

lemma writes_message (verNum : UInt32) (msg : IoMessage Bytes) :
    S.record (ioEncodeMessageOf c verNum msg) ((msg.denote some).map (Message.members F verNum)) := by
  have hm := (writes_uint32 S "version" verNum).item ((writes_refMember S "source_id" msg.sourceId).item
    ((writes_refMember S "proxy_id" msg.proxyId).item ((writes_refMember S "target_id" msg.targetId).item
      ((S.int32 "error_code" msg.errorCode).item ((S.bool "is_response" msg.isResponse).item
        ((writes_uint32 S "type" msg.type).item ((writes_messageContent S msg).seq S.ending)))))))
  unfold IoMessage.denote
  refine (S.type hm ?_).of_eq ?_ <;> cases h : msg.denoteBody some with
  | none => simp
  | some => simp [Named,Message.members,messageMembers,IoMessage.tagged_denoteBody some h]

end EdgeProxy.Codec
