import EdgeProxy.Codec.Decode
import EdgeProxy.Codec.DecodeMessage
import EdgeProxy.Codec.Encode

/-! # The binary codec

Both halves of the MessagePack codec follow its format: an object is the array of the values of its members. The one
exception is a string whose length with its terminator wraps around: no run on it succeeds.
-/
namespace EdgeProxy.Codec

open Base Lib Lib.MessagePack Body Item Options Option

variable {lib : Library}

def mpackFormat : Format Item where
  null := .nil
  bool := .bool
  int := .int
  uint := .uint
  str := str
  bin := bin
  ref r := bin r.u8.toList
  obj members := obj (members.map Prod.snd)
  arr := .arr

/-- Lengths are cut to 32 bits, and no string arrives whose length with its terminator is 0. -/
def mpackChannel : Channel where
  uint := some
  bytes := castLength
  text t := if (castLength t.1).length + 1 = 2 ^ 32 then none else some t.cut

lemma mpackChannel_text_of_wraps {t} (h : t.Wraps) : mpackChannel.text t = none :=
  if_pos h
lemma mpackChannel_text_of_not_wraps {t} (h : ¬t.Wraps) : mpackChannel.text t = some t.cut :=
  if_neg h

section

def Lays (lib : Library) (m : Enc Unit) (w : Option (List Item)) : Prop :=
  Emits m (w.map (Item.serList lib))

variable {m m' : Enc Unit} {w w' : Option (List Item)}

lemma Lays.of_eq (h : Lays lib m w) (e : w = w') : Lays lib m w' :=
  e ▸ h
lemma Lays.seq (h : Lays lib m w) (h' : Lays lib m' w') :
    Lays lib (m >>= fun _ => m') (w.bind fun is => w'.map (is ++ ·)) := by
  refine (Emits.seq h h').of_eq ?_
  cases w <;> cases w' <;> simp [serList_append]

lemma Lays.item {i} (h : Lays lib m (some [i])) (h' : Lays lib m' w') :
    Lays lib (m >>= fun _ => m') (w'.map (i :: ·)) :=
  (h.seq h').of_eq (by simp)
lemma lays_nil : Lays lib (pure ()) (some []) :=
  emits_pure
lemma lays_throw (e : Stop) : Lays lib (throw e) none :=
  emits_throw e
lemma lays_write {b i} (h : i.ser lib = b) : Lays lib (cmpStreamWrite b) (some [i]) :=
  (emits_put _ b).of_eq (by simp [h])

variable (name : Option String)

lemma lays_bin (d : Bytes) : Lays lib ((mpackEncoder lib).encBin name d) (some [bin d]) :=
  ((emits_put _ _).seq (emits_put _ _)).of_eq (by simp [bin,ser])
lemma lays_string (s : Option Bytes) :
    Lays lib ((mpackEncoder lib).encString name s) ((s.bind cstr).map fun t => [str t]) := by
  change Lays lib (mpackWriteString lib name s) _
  unfold mpackWriteString
  cases s.bind cstr with
  | none => exact lays_throw _
  | some => exact ((emits_put _ _).seq (emits_put _ _)).of_eq (by simp [str,ser])
lemma lays_object (h : Lays lib m w) : Lays lib ((mpackEncoder lib).encObject name false m) w :=
  h
lemma lays_type {k} (h : Lays lib m w) (hk : ∀ is ∈ w, is.length = k) :
    Lays lib ((mpackEncoder lib).encTypeBegin k >>= fun _ => m) (w.map fun is => [obj is]) := by
  refine (((emits_put _ _).seq (emits_put _ _)).seq h).of_eq ?_
  cases w with
  | none => rfl
  | some is =>
    have hlen : (UInt32.ofNat k + 1) = .ofNat (is.length + 1) := by
      rw [hk is rfl,UInt32.ofNat_add]
      rfl
    simp [obj,ser,hlen]
lemma lays_array {k} (h : Lays lib m w) (hk : ∀ is ∈ w, is.length = k) :
    Lays lib ((mpackEncoder lib).encArray name k m) (w.map fun is => [.arr is]) := by
  refine ((emits_put _ _).seq h).of_eq ?_
  cases w with
  | none => rfl
  | some is => simp [ser,hk is rfl]

def mpackEncoderSpec (lib : Library) : (mpackEncoder lib).Spec mpackFormat where
  members x w := Lays lib x (w.map (List.map Prod.snd))
  record x w := Lays lib x (w.map fun ms => [mpackFormat.obj ms])
  items x w := Lays lib x w
  uint _ _ := lays_write (by simp [mpackFormat,Item.ser])
  int32 _ _ := lays_write (by simp [mpackFormat,Format.int32,Item.ser])
  bool _ _ := lays_write (by simp [mpackFormat,Item.ser])
  string name s := (lays_string name s).of_eq (by simp [Function.comp_def]; rfl)
  bin name d := lays_bin name d
  null _ := ((emits_put _ _).seq emits_pure).of_eq (by simp [mpackFormat,Item.ser])
  object name x w h := (lays_object name h).of_eq (by simp [Function.comp_def])
  array name x w k h hk := (lays_array name h hk).of_eq (by simp [Function.comp_def]; rfl)
  stop e := lays_throw e
  seq {_ _ w w'} h h' := (h.seq h').of_eq (by cases w <;> cases w' <;> simp)
  ending := lays_nil
  type {_ _ w} h hk := (lays_type h (by cases w <;> simp_all)).of_eq (by cases w <;> rfl)
  ref r := lays_type ((lays_bin _ _).item lays_nil) (by simp)
  stopRecord e := lays_throw e
  nil := lays_nil
  element {_ _ w w'} h h' := ((lays_object none h).seq h').of_eq (by cases w <;> cases w' <;> rfl)

variable (hl : lib.ReadsBack) {place : ℕ → Option ℕ} (hplace : ∀ n, (place n).isSome)

def Yields (lib : Library) {α γ : Type} (x : Dec α) (is : List Item) (mem : Memory) (d : Option γ)
    (P : γ → α → Memory → Prop) : Prop :=
  match d with
  | some g => Decodes lib x is mem (P g)
  | none => Fails lib x is mem

section

variable {α α' γ γ' : Type} {x : Dec α} {f : α → Dec α'} {i : Item} {is : List Item} {mem : Memory}
  {P : γ → α → Memory → Prop} {Q : γ' → α' → Memory → Prop}

lemma Reads.yields {v} (h : Reads lib x is mem v mem) :
    Yields lib x is mem (some v) fun v a mem' => a = v ∧ mem' = mem :=
  ⟨v,mem,h,rfl,rfl⟩
lemma yields_pure {a g} (h : P g a mem) : Yields lib (pure a) [] mem (some g) P :=
  ⟨a,mem,reads_pure a mem,h⟩

variable {d : Option γ}

lemma Yields.item {e} (h : Yields lib x [i] mem d P)
    (h' : ∀ g a mem', g ∈ d → P g a mem' → Yields lib (f a) is mem' (e g) Q) :
    Yields lib (x >>= f) (i :: is) mem (d.bind e) Q := by
  cases d with
  | none => exact .bind h
  | some g =>
    have hrest := h' g
    rw [bind_some]
    cases hg : e g with
    | none =>
      rw [hg] at hrest
      exact Decodes.item_fails h fun a mem' hp => hrest a mem' rfl hp
    | some =>
      rw [hg] at hrest
      exact .item h fun a mem' hp => hrest a mem' rfl hp

lemma Yields.map {g} {f : α → α'} {Q : γ' → α' → Memory → Prop} (h : Yields lib x is mem d P)
    (hg : ∀ v a mem', P v a mem' → Q (g v) (f a) mem') : Yields lib (x >>= fun a => pure (f a)) is mem (d.map g) Q := by
  cases d with
  | none =>
    intro k rest b t hok
    obtain ⟨a,u,hx,-⟩ := ok_bind.1 hok
    exact h k rest a u hx
  | some v =>
    obtain ⟨a,mem',hr,hp⟩ := h
    refine ⟨f a,mem',?_,hg v a mem' hp⟩
    simpa using hr.bind (f := fun a => pure (f a)) (reads_pure (f a) mem')
lemma Yields.imp {P'} (h : Yields lib x is mem d P)
    (hP : ∀ v a mem', P v a mem' → P' v a mem') : Yields lib x is mem d P' := by
  cases d with
  | none => exact h
  | some v => exact .imp h (hP v)
lemma Yields.outcome (h : Yields lib x [i] mem d P) :
    Outcome x ⟨i.ser lib,⟨1,mem⟩⟩ d fun g a t => P g a t.user.memory := by
  have hser : serList lib [i] ++ [] = i.ser lib := by simp
  rw [← hser]
  cases d with
  | none => exact h 0 []
  | some =>
    obtain ⟨a,mem',hreads,hp⟩ := h
    exact ⟨a,_,hreads 0 [],hp⟩
lemma Yields.opens {body} (h : Yields lib body is mem d P) (hopens : Opens lib x i body is mem) :
    Yields lib x [i] mem d P := by
  cases d with
  | none => exact hopens.fails h
  | some => exact hopens.decodes h

include hl

lemma Yields.object (name : Option String) {body} (hlen : is.length + 1 < 2 ^ 32)
    (h : Yields lib (body false) is mem d P) :
    Yields lib ((mpackDecoder lib place).decObject name body) [obj is] mem d P :=
  h.opens (opens_object hl place name mem body hlen)

include hplace in
lemma yields_string (name : String) (t : Text) :
    Yields lib ((mpackDecoder lib place).decodeStringDefault name) [str t.1] mem (mpackChannel.text t)
      fun t p mem' => ∃ s, p = some s ∧ mem'.read s = some (t.1 ++ [0]) := by
  by_cases ht : t.Wraps
  · rw [mpackChannel_text_of_wraps ht]
    exact fails_string hl place name mem t ht
  · rw [mpackChannel_text_of_not_wraps ht]
    exact decodes_stringDefault hl name mem t hplace ht

lemma yields_ref (r old : IoRef) : Yields lib (ioDecodeRef (mpackDecoder lib place) old) [bin r.u8.toList] mem (some r)
      fun r a mem' => a = r ∧ mem' = mem := by
  refine Reads.yields ?_
  exact .bind (f := fun u8 => pure (IoRef.mk u8))
    (reads_binFixed hl place "id" mem old.u8 r.u8 (by decide) (by decide)) (reads_pure r mem)

end

def mpackDecoderSpec : (mpackDecoder lib place).Spec mpackFormat mpackChannel place where
  gives x ms mem d P := Yields lib x (ms.map Prod.snd) mem d P
  givesItems x is mem d P := Yields lib x is mem d P
  uint name v mem := (reads_uint hl place name mem v).yields
  int32 name v mem := (reads_int32 hl place name mem v).yields
  uint32 name v mem := Reads.yields (reads_narrow hl place name mem v.toUInt64 (by simp))
  uint16 name v mem := Reads.yields (reads_narrow hl place name mem v.toUInt64 (by simp))
  uint8 name v mem := Reads.yields (reads_narrow hl place name mem v.toUInt64 (by simp))
  bool name v mem := (reads_bool hl place name mem v).yields
  binFixed name old v mem hn hpos := (reads_binFixed hl place name mem old v hn hpos).yields
  stringFixed name old t mem hn := (reads_stringFixed hl place name mem old t hn).yields
  binDefault name d mem := decodes_binDefault hl name mem d hplace
  stringDefault name t mem := yields_string hl hplace name t
  ref r old mem := yields_ref hl r old
  object name _ _ _ _ _ _ _ hms h := Yields.object hl name (by simpa using hms.1) h
  null name _ _ _ _ _ _ h := h.opens (opens_null hl place name _ _)
  array name _ _ _ _ _ _ _ hlen h := Yields.opens h (opens_array hl place name _ _ hlen)
  done h := yields_pure h
  ending h := yields_pure h
  encEnding h := yields_pure h
  stop _ _ _ _ _ _ _ _ hok := ok_throw hok
  bind h h' := h.item h'
  ret h := h
  map h hg := h.map hg
  type h := h
  imp h hP := h.imp hP
  nil h := yields_pure h
  element hms h h' := (Yields.object hl none (by simpa using hms.1) h).item h'

end

lemma castLength_castLength (d : Bytes) : castLength (castLength d) = castLength d :=
  castLength_of_lt (length_castLength_lt d)
lemma bin_castLength (d : Bytes) : bin (castLength d) = bin d := by
  unfold bin
  congr 1
  exact Subtype.ext (castLength_castLength d)
lemma Address.obj_members (a : Address) : mpackFormat.obj (a.members mpackFormat) = a.wire := by
  cases a <;> rfl
lemma Value.obj_members (v : Value) : mpackFormat.obj (v.members mpackFormat) = v.wire := by
  have haddr := Address.obj_members
  cases v with
  | multicast type value => cases value <;> rfl
  | addrInfo => rw [Value.wire,← haddr]; rfl
  | ifAddrInfo => rw [Value.wire,Interface.wire,← haddr,← haddr]; rfl
  | _ => rfl

lemma Options.items_mpackFormat (o : Options) (slots : List (Fin prxSoMax)) :
    o.items mpackFormat slots = o.wire slots :=
  List.map_congr_left fun v _ => v.obj_members
lemma Props.obj_members (p : Props) : mpackFormat.obj (p.members mpackFormat) = p.wire := by
  rw [Props.wire,← Address.obj_members,← items_mpackFormat]
  rfl

lemma Body.doc_mpackFormat (b : Body) : b.doc mpackFormat = b.wire := by
  cases b with
  | data isResponse sequenceNumber source buffer controlBuffer =>
    rw [wire,← Address.obj_members,← bin_castLength buffer,← bin_castLength controlBuffer]
    rfl
  | pingRequest | pingResponse =>
    rw [wire,← Address.obj_members]
    rfl
  | linkResponse linkId localAddress peerAddress =>
    rw [wire,← localAddress.obj_members,← peerAddress.obj_members]
    rfl
  | linkRequest _ value | setoptRequest value | getoptResponse value =>
    rw [wire,← value.obj_members]
    rfl
  | _ => rfl

lemma Message.obj_members (msg : Message) (verNum : UInt32) :
    mpackFormat.obj (msg.members mpackFormat verNum) = msg.wireOf verNum := by
  rw [Message.wireOf,← doc_mpackFormat]
  rfl
lemma lays_messageOf (verNum : UInt32) (msg : IoMessage Bytes) :
    Lays lib (encodeMessageObjectOf (mpackEncoder lib) verNum msg)
      ((msg.denote some).map fun v => [v.wireOf verNum]) := by
  have hrecord : Lays lib _ _ := writes_message (mpackEncoderSpec lib) verNum msg
  refine (lays_object none hrecord).of_eq ?_
  rw [map_map]
  congr 1
  funext v
  rw [← v.obj_members]
  rfl

variable {π : Type} {i : Item}

lemma Address.SentAs.sentIn {a : Address} {old} (h : a.SentAs old i) : a.SentIn mpackFormat old i := by
  rw [Address.SentIn,a.obj_members]
  exact h
lemma Interface.SentAs.sentIn {v : Interface} {old} (h : v.SentAs old i) :
    ∃ ms, v.SentIn mpackFormat old ms ∧ i = mpackFormat.obj ms := by
  obtain ⟨a,b,ha,hb,rfl⟩ := h
  exact ⟨_,⟨a,b,ha.sentIn,hb.sentIn,rfl⟩,rfl⟩

lemma Value.SentAs.sentIn {v : Value} {old : Property π} (h : v.SentAs old i) :
    ∃ ms, v.SentIn mpackFormat old ms ∧ i = mpackFormat.obj ms := by
  cases v with
  | addrInfo =>
    obtain ⟨a,ha,rfl⟩ := h
    exact ⟨_,⟨a,ha.sentIn,rfl⟩,rfl⟩
  | ifAddrInfo =>
    obtain ⟨j,hj,rfl⟩ := h
    obtain ⟨ms,hms,rfl⟩ := hj.sentIn
    exact ⟨_,⟨ms,hms,rfl⟩,rfl⟩
  | _ =>
    obtain rfl : i = _ := h
    exact ⟨_,rfl,(Value.obj_members _).symm⟩

lemma Props.SentAs.sentIn {p : Props} {old : SocketProperties π} (h : p.SentAs old i) (ho : p.options.OwnSlots) :
    ∃ ms, p.SentIn mpackFormat old ms ∧ i = mpackFormat.obj ms := by
  obtain ⟨a,slots,ha,hnodup,hslots,rfl⟩ := h
  refine ⟨_,⟨a,slots,ha.sentIn,hnodup,hslots,.inl ho,rfl⟩,?_⟩
  rw [← items_mpackFormat]
  rfl

lemma Body.SentAs.sentIn {b : Body} {old : Content π} (h : b.SentAs old i) (ho : b.OwnSlots) :
    b.SentIn mpackFormat old i := by
  cases b with
  | data isResponse sequenceNumber source buffer controlBuffer =>
    obtain ⟨a,ha,rfl⟩ := h
    refine ⟨a,ha.sentIn,?_⟩
    rw [← bin_castLength buffer,← bin_castLength controlBuffer]
    rfl
  | pingRequest | pingResponse =>
    obtain ⟨a,ha,rfl⟩ := h
    exact ⟨a,ha.sentIn,rfl⟩
  | linkRequest =>
    obtain ⟨j,hj,rfl⟩ := h
    obtain ⟨ms,hms,rfl⟩ := hj.sentIn ho
    exact ⟨ms,hms,rfl⟩
  | linkResponse =>
    obtain ⟨r,a,a',hr,ha,ha',rfl⟩ := h
    exact ⟨r,a,a',hr,ha.sentIn,ha'.sentIn,rfl⟩
  | openRequest =>
    obtain ⟨r,hr,rfl⟩ := h
    exact ⟨r,hr,rfl⟩
  | setoptRequest | getoptResponse =>
    obtain ⟨j,hj,rfl⟩ := h
    obtain ⟨ms,hms,rfl⟩ := hj.sentIn
    exact ⟨ms,hms,rfl⟩
  | _ =>
    exact h

lemma Message.SentAs.sentIn {msg : Message} {verNum : UInt32} {old : IoMessage π} (h : msg.SentAs verNum old i)
    (ho : msg.body.OwnSlots) : ∃ ms, msg.SentIn mpackFormat verNum old ms ∧ i = mpackFormat.obj ms := by
  obtain ⟨source,proxy,target,content,hsource,hproxy,htarget,hcontent,rfl⟩ := h
  exact ⟨_,⟨source,proxy,target,content,hsource,hproxy,htarget,hcontent.sentIn ho,rfl⟩,rfl⟩
lemma Value.via_of_wraps {v : Value} (h : v.Wraps) : v.via mpackChannel = none := by
  cases v with
  | addrInfo => exact congrArg (Option.map _) (mpackChannel_text_of_wraps h)
  | _ => exact h.elim
lemma Value.via_of_not_wraps {v : Value} (h : ¬v.Wraps) : v.via mpackChannel = some v.received := by
  cases v with
  | addrInfo => exact congrArg (Option.map _) (mpackChannel_text_of_not_wraps h)
  | _ => rfl
lemma Value.not_wraps_of_isSocketOption {v : Value} (h : isSocketOption v.type) : ¬v.Wraps := by
  cases v with
  | addrInfo => exact absurd (show isSocketOption prxPropertyTypeAddrinfo from h) (by decide)
  | _ => exact id

lemma Props.via_mpackChannel {p : Props} (ho : p.options.OwnSlots) : p.via mpackChannel = some p.received := by
  have hvia : ∀ i v, p.options i = some v → v.via mpackChannel = some v.received := fun i v hv =>
    v.via_of_not_wraps (v.not_wraps_of_isSocketOption (v.isSocketOption_of_slot (ho i v hv)))
  have hopt : p.options.via mpackChannel = some fun i => (p.options i).map .received := by
    rw [via_of_ownSlots ho,if_pos]
    · congr 1
      funext i
      cases hi : p.options i with
      | none => rfl
      | some v => rw [bind_some,hvia i v hi,map_some]
    · intro i
      cases hi : p.options i with
      | none => rfl
      | some v => rw [all_some,hvia i v hi]; rfl
  unfold Props.via
  rw [hopt]
  rfl

lemma Body.via_of_wraps {b : Body} (h : b.Wraps) : b.via mpackChannel = none := by
  cases b with
  | openRequest => exact congrArg (Option.map _) (mpackChannel_text_of_wraps h)
  | setoptRequest value | getoptResponse value => exact congrArg (Option.map _) (value.via_of_wraps h)
  | _ => exact h.elim

lemma Body.via_of_not_wraps {b : Body} (h : ¬b.Wraps) (ho : b.OwnSlots) :
    ∃ b', b.via mpackChannel = some b' ∧ ∀ moved, b'.kept moved = b.received moved := by
  cases b with
  | data =>
    refine ⟨_,rfl,fun moved => ?_⟩
    have hbytes : ∀ d, mpackChannel.bytes (castLength d) = castLength d := castLength_castLength
    simp [kept,received,hbytes]
  | linkRequest => exact ⟨_,congrArg (Option.map _) (Props.via_mpackChannel ho),fun _ => rfl⟩
  | openRequest =>
    exact ⟨_,congrArg (Option.map _) (mpackChannel_text_of_not_wraps h),fun _ => rfl⟩
  | setoptRequest value | getoptResponse value =>
    exact ⟨_,congrArg (Option.map _) (value.via_of_not_wraps h),fun _ => rfl⟩
  | _ => exact ⟨_,rfl,fun _ => rfl⟩

variable (hl : lib.ReadsBack) {place : ℕ → Option ℕ} (hplace : ∀ n, (place n).isSome) (mem : Memory)
  (stale : Property Slice)
include hl hplace

variable {old : IoMessage Slice} {msg : Message} {version verNum : UInt32}

lemma yields_message {ms}
    (h : msg.SentIn mpackFormat version old ms) (hversion : version &&& 0xffff0000 = verNum &&& 0xffff0000) :
    Yields lib (decodeMessageObjectOf (mpackDecoder lib place) verNum stale old) [mpackFormat.obj ms] mem
      (msg.body.via mpackChannel)
      fun b r mem' => r.denote mem'.read = (b.kept (moves place mem)).map fun body => { msg with body } := by
  have hlen : (ms.map Prod.snd).length + 1 < 2 ^ 32 := by
    obtain ⟨_,_,_,_,-,-,-,-,rfl⟩ := h
    simp [messageMembers]
  exact .object hl none hlen (gives_message (mpackDecoderSpec hl hplace) mem stale h hversion)
lemma yields_messageOf {i : Item}
    (h : msg.SentAs version old i) (hversion : version &&& 0xffff0000 = verNum &&& 0xffff0000)
    (ho : msg.body.OwnSlots) :
    Yields lib (decodeMessageObjectOf (mpackDecoder lib place) verNum stale old) [i] mem (msg.body.via mpackChannel)
      fun b r mem' => r.denote mem'.read = (b.kept (moves place mem)).map fun body => { msg with body } := by
  obtain ⟨ms,hms,rfl⟩ := h.sentIn ho
  exact yields_message hl hplace mem stale hms hversion

/-- The record denotes the message as it was received. The two builds agree in the upper half of their versions. -/
theorem decodes_messageOf {i : Item}
    (h : msg.SentAs version old i) (hversion : version &&& 0xffff0000 = verNum &&& 0xffff0000)
    (hb : ¬msg.body.Wraps) (ho : msg.body.OwnSlots) :
    Decodes lib (decodeMessageObjectOf (mpackDecoder lib place) verNum stale old) [i] mem
      fun r mem' => r.denote mem'.read = msg.received (moves place mem) := by
  obtain ⟨b,hvia,hkept⟩ := via_of_not_wraps hb ho
  have hyields := yields_messageOf hl hplace mem stale h hversion ho
  rw [hvia] at hyields
  rw [Message.received,← hkept]
  exact hyields

lemma decodes_message (old : IoMessage Slice) (msg : Message) (hb : ¬msg.body.Wraps) (ho : msg.body.OwnSlots) :
    Decodes lib (decodeMessageObject (mpackDecoder lib place) stale old) [msg.wire] mem
      fun r mem' => r.denote mem'.read = msg.received (moves place mem) :=
  decodes_messageOf hl hplace mem stale (msg.sentAs_wire moduleVerNum old) rfl hb ho
lemma fails_message (old : IoMessage Slice) (msg : Message) (hb : msg.body.Wraps) (ho : msg.body.OwnSlots) :
    Fails lib (decodeMessageObject (mpackDecoder lib place) stale old) [msg.wire] mem := by
  have hyields := yields_messageOf hl hplace mem stale (msg.sentAs_wire moduleVerNum old) rfl ho
  rw [via_of_wraps hb] at hyields
  exact hyields
lemma fails_unknownType (old : IoMessage Slice) {source proxy target : IoRef}
    {i j k} (hsource : source.SentAs old.sourceId i) (hproxy : proxy.SentAs old.proxyId j)
    (htarget : target.SentAs old.targetId k)
    (hversion : version &&& 0xffff0000 = verNum &&& 0xffff0000) (errorCode : Int32) (isResponse : Bool) {t}
    (htype : messageType t = none) (content : Item) :
    Fails lib (decodeMessageObjectOf (mpackDecoder lib place) verNum stale old)
      [obj [uint32 version,i,j,k,int32 errorCode,.bool isResponse,uint32 t,content]] mem :=
  (opens_object hl place none mem _ (by simp)).fails (gives_unknownType (mpackDecoderSpec hl hplace) mem stale hsource
    hproxy htarget hversion errorCode isResponse htype content fun (_ : Unit) _ _ => True)

end EdgeProxy.Codec
