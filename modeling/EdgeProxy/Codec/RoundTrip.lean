import EdgeProxy.Codec.MpackSpec

/-! # Message round trips

A message arrives as it was sent exactly when every length fits its 32-bit field, with room for the terminator of a
string, and when the buffer of the receiving message does not move between its allocations.
-/
namespace EdgeProxy.Codec

open Lib Lib.MessagePack Option Body Message

def Multicast.Scoped : Multicast → Prop
  | inet .. => True
  | inet6 itfIndex _ scopeId => scopeId = itfIndex.toUInt32
def Value.Scoped : Value → Prop
  | multicast _ value => value.Scoped
  | _ => True

/-- Options are set in the slots of their own types, and IPv6 multicast options are scoped by their
interface. -/
def Body.Canonical : Body → Prop
  | linkRequest _ props => props.options.OwnSlots ∧ ∀ i v, props.options i = some v → v.Scoped
  | setoptRequest value => value.Scoped
  | getoptResponse value => value.Scoped
  | _ => True

lemma Body.Canonical.ownSlots {b : Body} (h : b.Canonical) : b.OwnSlots := by
  cases b with
  | linkRequest => exact h.1
  | _ => trivial
def Text.Fits (t : Text) : Prop :=
  t.1.length + 1 < 2 ^ 32
def Value.Fits : Value → Prop
  | record _ value => value.length < 2 ^ 32
  | addrInfo _ name => name.Fits
  | _ => True

/-- Every length fits its field, and a data message with two buffers is decoded without moving the
first one. -/
def Body.Fits (moved : Bool) : Body → Prop
  | data _ _ _ buffer controlBuffer =>
    buffer.length < 2 ^ 32 ∧ controlBuffer.length < 2 ^ 32 ∧ (moved → buffer = [] ∨ controlBuffer = [])
  | openRequest _ _ connectionString _ _ => connectionString.Fits
  | setoptRequest value => value.Fits
  | getoptResponse value => value.Fits
  | _ => True

lemma Text.cut_eq_iff (t : Text) : (¬t.Wraps ∧ t.cut = t) ↔ t.Fits := by
  constructor
  · rintro ⟨hw,hc⟩
    have heq : castLength t.1 = t.1 := congrArg Subtype.val hc
    have := castLength_eq_iff.1 heq
    simp only [Text.Wraps,heq,Text.Fits] at hw ⊢
    omega
  · intro hf
    unfold Text.Fits at hf
    have heq : castLength t.1 = t.1 := castLength_of_lt (by omega)
    refine ⟨?_,Subtype.ext heq⟩
    rw [Text.Wraps,heq]
    omega

lemma Multicast.received_eq {v : Multicast} (h : v.Scoped) : v.received = v := by
  cases v with
  | inet => rfl
  | inet6 =>
    rw [Multicast.received,h]
lemma Value.received_eq_iff {v : Value} (h : v.Scoped) : (¬v.Wraps ∧ v.received = v) ↔ v.Fits := by
  cases v with
  | multicast type =>
    exact ⟨fun _ => trivial,fun _ => ⟨id,congrArg (multicast type) (Multicast.received_eq h)⟩⟩
  | record =>
    simp only [Wraps,received,not_false_eq_true,true_and,record.injEq]
    exact castLength_eq_iff
  | addrInfo address name =>
    simp only [received,addrInfo.injEq,true_and]
    exact name.cut_eq_iff
  | _ => exact ⟨fun _ => trivial,fun _ => ⟨id,rfl⟩⟩

lemma Props.received_eq {p : Props} (ho : p.options.OwnSlots) (hs : ∀ i v, p.options i = some v → v.Scoped) :
    p.received = p := by
  have hopt : (fun i => (p.options i).map .received) = p.options := by
    funext i
    cases hi : p.options i with
    | none => rfl
    | some v =>
      have hv := v.isSocketOption_of_slot (ho i v hi)
      have hfits : v.Fits := by
        cases v with
        | record type => exact absurd type.2 hv.not_isRecordType
        | addrInfo => exact absurd (show isSocketOption prxPropertyTypeAddrinfo from hv) (by decide)
        | _ => trivial
      rw [map_some,((Value.received_eq_iff (hs i v hi)).2 hfits).2]
  rw [Props.received,hopt]

lemma Body.received_eq_iff {b : Body} (moved : Bool) (h : b.Canonical) :
    (¬b.Wraps ∧ b.received moved = some b) ↔ b.Fits moved := by
  cases b with
  | data =>
    simp only [Wraps,not_false_eq_true,true_and,received]
    constructor
    · intro he
      split_ifs at he with hm
      simp only [some.injEq,data.injEq,true_and] at he
      rw [he.1,he.2] at hm
      refine ⟨castLength_eq_iff.1 he.1,castLength_eq_iff.1 he.2,fun hmoved => ?_⟩
      by_contra hne
      exact hm ⟨hmoved,fun hb => hne (.inl hb),fun hc => hne (.inr hc)⟩
    · rintro ⟨hb,hc,hm⟩
      rw [castLength_of_lt hb,castLength_of_lt hc,if_neg]
      rintro ⟨hmoved,hbne,hcne⟩
      exact (hm hmoved).elim hbne hcne
  | linkRequest =>
    refine ⟨fun _ => trivial,fun _ => ⟨id,?_⟩⟩
    rw [received,Props.received_eq h.1 h.2]
  | openRequest streamId type connectionString =>
    simp only [received,some.injEq,openRequest.injEq,true_and,and_true]
    exact connectionString.cut_eq_iff
  | setoptRequest =>
    simp only [received,some.injEq,setoptRequest.injEq]
    exact Value.received_eq_iff h
  | getoptResponse =>
    simp only [received,some.injEq,getoptResponse.injEq]
    exact Value.received_eq_iff h
  | _ => exact ⟨fun _ => trivial,fun _ => ⟨id,rfl⟩⟩

lemma Message.received_eq_some_iff {moved} {v : Message} :
    v.received moved = some v ↔ v.body.received moved = some v.body := by
  cases hb : v.body.received moved with
  | none => simp [received,hb]
  | some =>
    simp only [received,hb,map_some,some.injEq]
    exact ⟨fun h => congrArg body h,fun h => by rw [h]⟩

section

def Written (lib : Library) (msg : IoMessage Bytes) (bytes : Bytes) : Prop :=
  ∃ limit, Ok (encodeMessageObject (mpackEncoder lib) msg) ⟨[],limit⟩ () ⟨bytes,limit⟩
def WrittenOf (lib : Library) (verNum : UInt32) (msg : IoMessage Bytes) (bytes : Bytes) : Prop :=
  ∃ limit, Ok (encodeMessageObjectOf (mpackEncoder lib) verNum msg) ⟨[],limit⟩ () ⟨bytes,limit⟩

lemma writtenOf_iff (lib : Library) (verNum : UInt32) (msg : IoMessage Bytes) (bytes : Bytes) :
    WrittenOf lib verNum msg bytes ↔ ∃ v, msg.denote some = some v ∧ bytes = (v.wireOf verNum).ser lib := by
  have hemits : ∀ limit, Ok (encodeMessageObjectOf (mpackEncoder lib) verNum msg) ⟨[],limit⟩ () ⟨bytes,limit⟩ ↔
      ∃ b, ((msg.denote some).map fun v => (v.wireOf verNum).ser lib) = some b ∧
        Sink.Wrote ⟨[],limit⟩ b ⟨bytes,limit⟩ := by
    intro limit
    rw [lays_messageOf verNum msg ⟨[],limit⟩ ⟨bytes,limit⟩ (Nat.zero_le _)]
    simp
  simp only [WrittenOf,hemits,map_eq_some_iff,Sink.Wrote,true_and]
  constructor
  · rintro ⟨limit,b,⟨v,hv,rfl⟩,rfl,-⟩
    exact ⟨v,hv,rfl⟩
  · rintro ⟨v,hv,rfl⟩
    exact ⟨_,_,⟨v,hv,rfl⟩,rfl,Nat.le_refl _⟩

lemma written_iff (lib : Library) (msg : IoMessage Bytes) (bytes : Bytes) :
    Written lib msg bytes ↔ ∃ v, msg.denote some = some v ∧ bytes = v.wire.ser lib :=
  writtenOf_iff lib moduleVerNum msg bytes

/-- Decoding these bytes leaves exactly what follows them and gives a record with the value that was sent. `stale` is
the content of the decoder's local variable, `mem` the memory of the receiving message. -/
def RoundTrips (lib : Library) (place : ℕ → Option ℕ) (stale : Property Slice) (old : IoMessage Slice)
    (mem : Memory) (msg : IoMessage Bytes) (bytes rest : Bytes) : Prop :=
  ∃ r mem', Ok (decodeMessageObject (mpackDecoder lib place) stale old) ⟨bytes ++ rest,⟨1,mem⟩⟩ r ⟨rest,⟨0,mem'⟩⟩ ∧
    r.denote mem'.read = msg.denote some

variable {lib : Library} {place : ℕ → Option ℕ} (hl : lib.ReadsBack) (hplace : ∀ n, (place n).isSome)
include hl hplace

lemma roundTrips_iff_received {msg} {v : Message} (hv : msg.denote some = some v)
    (ho : v.body.OwnSlots) (stale : Property Slice) (old : IoMessage Slice) (mem : Memory) (rest : Bytes) :
    RoundTrips lib place stale old mem msg (v.wire.ser lib) rest ↔
      ¬v.body.Wraps ∧ v.body.received (moves place mem) = some v.body := by
  have hser : ∀ rest, Item.serList lib [v.wire] ++ rest = v.wire.ser lib ++ rest := by simp
  by_cases hw : v.body.Wraps
  · refine iff_of_false ?_ fun h => h.1 hw
    rintro ⟨r,mem',hok,-⟩
    exact fails_message hl hplace mem stale old v hw ho 0 rest r _ ((hser rest).symm ▸ hok)
  · obtain ⟨r,mem',hr,hdenote⟩ := decodes_message hl hplace mem stale old v hw ho
    have hrun := hr 0 rest
    rw [hser] at hrun
    rw [← received_eq_some_iff,RoundTrips,hv]
    constructor
    · rintro ⟨r',mem'',hok,hr'⟩
      obtain ⟨rfl,⟨⟩⟩ := hok.det hrun
      exact ⟨hw,hdenote.symm.trans hr'⟩
    · rintro ⟨-,h⟩
      exact ⟨r,mem',hrun,hdenote.trans h⟩

/-- A message that was encoded arrives exactly when its lengths fit their fields and its first buffer is not moved. -/
theorem message_roundTrips_iff {msg : IoMessage Bytes} {bytes : Bytes} (hwritten : Written lib msg bytes)
    (hcanon : ∀ v, msg.denote some = some v → v.body.Canonical) (stale : Property Slice)
    (old : IoMessage Slice) (mem : Memory) (rest : Bytes) :
    RoundTrips lib place stale old mem msg bytes rest ↔
      ∀ v, msg.denote some = some v → v.body.Fits (moves place mem) := by
  obtain ⟨v,hv,rfl⟩ := (written_iff lib msg bytes).1 hwritten
  have hc := hcanon v hv
  rw [roundTrips_iff_received hl hplace hv hc.ownSlots,received_eq_iff _ hc]
  constructor
  · intro h v' hv'
    rw [hv] at hv'
    cases hv'
    exact h
  · exact fun h => h v hv

end

def dataWithControl : IoMessage Bytes :=
  { (IoMessage.zero : IoMessage Bytes) with
    type := MessageType.data.code
    content := { (Content.zero : Content Bytes) with dataMessage := ⟨7,default,some [2],some [1]⟩ } }
lemma denote_dataWithControl :
    dataWithControl.denote some = some ⟨default,default,default,0,.data false 7 .unspec [1] [2]⟩ :=
  rfl

/-- It arrives as long as the memory stays where it is. -/
theorem dataWithControl_roundTrips : ∃ bytes, Written format dataWithControl bytes ∧
    RoundTrips format (fun _ => some 0) .zero .zero ⟨none,0⟩ dataWithControl bytes [] := by
  have hwritten := (written_iff format dataWithControl _).2 ⟨_,denote_dataWithControl,rfl⟩
  refine ⟨_,hwritten,(message_roundTrips_iff format_readsBack (fun _ => rfl) hwritten ?_ _ _ _ _).2 ?_⟩
  · intro v hv
    cases denote_dataWithControl.symm.trans hv
    trivial
  · intro v hv
    cases denote_dataWithControl.symm.trans hv
    exact ⟨by decide,by decide,fun h => absurd h (by decide)⟩

/-- It is encoded, but it does not arrive when the allocation for the second buffer moves the memory
of the first. -/
theorem dataWithControl_not_roundTrips : ∃ bytes, Written format dataWithControl bytes ∧
    ¬RoundTrips format (fun n => some n) .zero .zero ⟨none,0⟩ dataWithControl bytes [] := by
  have hwritten := (written_iff format dataWithControl _).2 ⟨_,denote_dataWithControl,rfl⟩
  refine ⟨_,hwritten,?_⟩
  rw [roundTrips_iff_received format_readsBack (fun _ => rfl) denote_dataWithControl trivial]
  exact fun h => absurd h.2 (by simp [Body.received,moves,castLength])

end EdgeProxy.Codec
