import Mathlib.Data.Fintype.Card
import EdgeProxy.Codec.Document
import EdgeProxy.Codec.Memory

/-! # The decoders of the proxy types

Run on the document of a value, the decoder of its type stores a record that denotes what arrives of the value, or fails
if nothing does. This holds for any codec that reads values as its format says.
-/
namespace EdgeProxy.Codec

open Base Option Options Int32 Property Value
open List hiding Vector

variable {m : Type → Type} [Monad m] [MonadExceptOf Stop m] {β : Type}

/-- `gives x members mem d P`: reading these members, the program `x` ends with a result that is related
by `P` to what `d` says, and has no successful run if `d` is `none`. The same for the elements of an
array. -/
structure Decoder.Spec (c : Decoder m Slice) (F : Format β) (χ : Channel) (place : ℕ → Option ℕ) where
  gives : {α γ : Type} → m α → List (String × β) → Memory → Option γ → (γ → α → Memory → Prop) → Prop
  givesItems : {α γ : Type} → m α → List β → Memory → Option γ → (γ → α → Memory → Prop) → Prop
  uint : ∀ name v mem, gives (c.decUint (some name)) [(name,F.uint v)] mem (χ.uint v) fun v a mem' => a = v ∧ mem' = mem
  int32 : ∀ name v mem, gives (c.decodeInt32 (some name)) [(name,F.int32 v)] mem (some v)
    fun v a mem' => a = v ∧ mem' = mem
  uint32 : ∀ name v mem, gives (c.decodeUint32 (some name)) [(name,F.uint32 v)] mem (some v)
    fun v a mem' => a = v ∧ mem' = mem
  uint16 : ∀ name v mem, gives (c.decodeUint16 (some name)) [(name,F.uint16 v)] mem (some v)
    fun v a mem' => a = v ∧ mem' = mem
  uint8 : ∀ name v mem, gives (c.decodeUint8 (some name)) [(name,F.uint8 v)] mem (some v)
    fun v a mem' => a = v ∧ mem' = mem
  bool : ∀ name v mem, gives (c.decBool (some name)) [(name,F.bool v)] mem (some v) fun v a mem' => a = v ∧ mem' = mem
  binFixed : ∀ {n : ℕ} name (old v : Vector UInt8 n) mem, n < 2 ^ 32 → n ≠ 0 →
    gives (c.decodeBinFixed (some name) old) [(name,F.bin v.toList)] mem (some v) fun v a mem' => a = v ∧ mem' = mem
  stringFixed : ∀ {n : ℕ} name (old : Vector UInt8 n) (t : FixedText n) mem, n < 2 ^ 32 →
    gives (c.decodeStringFixed (some name) old) [(name,F.str t.1)] mem (some (overlay old (t.1 ++ [0])))
      fun v a mem' => a = v ∧ mem' = mem
  binDefault : ∀ name d mem, gives (c.decodeBinDefault (some name)) [(name,F.bin d)] mem (some (χ.bytes d))
    fun d p mem' => Stored place mem d p mem'
  stringDefault : ∀ name (t : Text) mem, gives (c.decodeStringDefault (some name)) [(name,F.str t.1)] mem (χ.text t)
    fun t p mem' => ∃ s, p = some s ∧ mem'.read s = some (t.1 ++ [0])
  ref : ∀ r old mem, gives (ioDecodeRef c old) (r.members F) mem (some r) fun r a mem' => a = r ∧ mem' = mem
  object : ∀ name {α γ : Type} {body : Bool → m α} {ms mem} {d : Option γ} {P}, Named ms →
    gives (body false) ms mem d P → gives (c.decObject (some name) body) [(name,F.obj ms)] mem d P
  null : ∀ name {α γ : Type} {body : Bool → m α} {mem} {d : Option γ} {P},
    gives (body true) [] mem d P → gives (c.decObject (some name) body) [(name,F.null)] mem d P
  array : ∀ name {α γ : Type} {body : ℕ → m α} {is mem} {d : Option γ} {P}, is.length < 2 ^ 32 →
    givesItems (body is.length) is mem d P → gives (c.decArray (some name) body) [(name,F.arr is)] mem d P
  done : ∀ {α γ : Type} {a : α} {mem} {g : γ} {P : γ → α → Memory → Prop}, P g a mem → gives (pure a) [] mem (some g) P
  ending : ∀ {α γ : Type} {a : α} {mem} {g : γ} {P : γ → α → Memory → Prop}, P g a mem →
    gives (c.decTypeEnd >>= fun _ => pure a) [] mem (some g) P
  encEnding : ∀ {α γ : Type} {a : α} {mem} {g : γ} {P : γ → α → Memory → Prop}, P g a mem →
    gives (c.encTypeEnd >>= fun _ => pure a) [] mem (some g) P
  stop : ∀ {α γ : Type} e ms mem (P : γ → α → Memory → Prop), gives (throw e) ms mem none P
  bind : ∀ {α α' γ γ' : Type} {x : m α} {f : α → m α'} {i ms mem} {d : Option γ} {e : γ → Option γ'} {P Q},
    gives x [i] mem d P → (∀ g a mem', g ∈ d → P g a mem' → gives (f a) ms mem' (e g) Q) →
    gives (x >>= f) (i :: ms) mem (d.bind e) Q
  ret : ∀ {α α' γ : Type} {a : α} {f : α → m α'} {ms mem} {d : Option γ} {P}, gives (f a) ms mem d P →
    gives (pure a >>= f) ms mem d P
  map : ∀ {α α' γ γ' : Type} {x : m α} {ms mem} {d : Option γ} {P} {g : γ → γ'} {f : α → α'}
    {Q : γ' → α' → Memory → Prop}, gives x ms mem d P → (∀ v a mem', P v a mem' → Q (g v) (f a) mem') →
    gives (x >>= fun a => pure (f a)) ms mem (d.map g) Q
  type : ∀ {α γ : Type} {x : m α} {ms mem} {d : Option γ} {P}, gives x ms mem d P →
    gives (c.decTypeBegin >>= fun _ => x) ms mem d P
  imp : ∀ {α γ : Type} {x : m α} {is mem} {d : Option γ} {P Q : γ → α → Memory → Prop}, givesItems x is mem d P →
    (∀ g a mem', P g a mem' → Q g a mem') → givesItems x is mem d Q
  nil : ∀ {α γ : Type} {a : α} {mem} {g : γ} {P : γ → α → Memory → Prop}, P g a mem →
    givesItems (pure a) [] mem (some g) P
  element : ∀ {α α' γ γ' : Type} {x : m α} {f : α → m α'} {ms is mem} {d : Option γ} {e : γ → Option γ'} {P Q},
    Named ms →
    gives x ms mem d P → (∀ g a mem', g ∈ d → P g a mem' → givesItems (f a) is mem' (e g) Q) →
    givesItems (c.decObject none (fun _ => x) >>= f) (F.obj ms :: is) mem (d.bind e) Q

variable {c : Decoder m Slice} {F : Format β} {χ : Channel} {place : ℕ → Option ℕ} (S : c.Spec F χ place)

section

variable {S} {α α' γ γ' : Type} {x : m α} {f : α → m α'} {i : String × β} {ms : List (String × β)} {mem : Memory}
  {P : γ → α → Memory → Prop} {Q : γ' → α' → Memory → Prop}

lemma Decoder.Spec.gives.step {g e} (h : S.gives x [i] mem (some g) P)
    (h' : ∀ a mem', P g a mem' → S.gives (f a) ms mem' e Q) : S.gives (x >>= f) (i :: ms) mem e Q := by
  refine S.bind (e := fun _ => e) h ?_
  rintro _ a mem' ⟨⟩ hp
  exact h' a mem' hp
lemma Decoder.Spec.gives.read {v e} (h : S.gives x [i] mem (some v) fun v a mem' => a = v ∧ mem' = mem)
    (h' : S.gives (f v) ms mem e Q) : S.gives (x >>= f) (i :: ms) mem e Q := by
  refine h.step ?_
  rintro _ _ ⟨rfl,rfl⟩
  exact h'
lemma Decoder.Spec.gives.bind {d e} (h : S.gives x [i] mem d fun v a mem' => a = v ∧ mem' = mem)
    (h' : ∀ v, S.gives (f v) ms mem (e v) Q) : S.gives (x >>= f) (i :: ms) mem (d.bind e) Q := by
  refine S.bind h ?_
  rintro v _ _ - ⟨rfl,rfl⟩
  exact h' _
lemma Decoder.Spec.gives.last {d g} (h : S.gives x [i] mem d P)
    (h' : ∀ v a mem', P v a mem' → S.gives (f a) [] mem' (some (g v)) Q) : S.gives (x >>= f) [i] mem (d.map g) Q := by
  rw [map_eq_bind]
  exact S.bind h fun v a mem' _ hp => h' v a mem' hp

end

variable (mem : Memory)

lemma gives_ref (name : String) {old r i} (h : r.SentIn F old i) :
    S.gives (c.decodeMember (some name) old (ioDecodeRef c)) [(name,i)] mem (some r)
      fun r a mem' => a = r ∧ mem' = mem := by
  rcases h with rfl | ⟨rfl,rfl⟩
  · exact S.object name (by simp [Named,IoRef.members]) (S.ref r old mem)
  · exact S.null name (S.done ⟨rfl,rfl⟩)

lemma gives_address (old : SocketAddress) (a : Address) :
    S.gives (ioDecodePrxSocketAddress c old) (a.members F) mem (some a)
      fun a sa mem' => sa.denote = some a ∧ mem' = mem := by
  cases a with
  | unspec =>
    refine S.type ((S.int32 "family" _ mem).read ?_)
    exact S.ending ⟨rfl,rfl⟩
  | inet port addr =>
    refine S.type ((S.int32 "family" _ mem).read ?_)
    refine (S.uint16 "port" port mem).read ?_
    refine (S.binFixed "addr" _ addr mem (by decide) (by decide)).read ?_
    exact S.ending ⟨rfl,rfl⟩
  | inet6 port flow addr scopeId =>
    refine S.type ((S.int32 "family" _ mem).read ?_)
    refine (S.uint16 "port" port mem).read ?_
    refine (S.uint32 "flow" flow mem).read ?_
    refine (S.binFixed "addr" _ addr mem (by decide) (by decide)).read ?_
    refine (S.uint32 "scope_id" scopeId mem).read ?_
    exact S.ending ⟨rfl,rfl⟩
  | proxy port flags itfIndex host =>
    refine S.type ((S.int32 "family" _ mem).read ?_)
    refine (S.uint16 "port" port mem).read ?_
    refine (S.uint16 "flags" flags mem).read ?_
    refine (S.int32 "itf_index" itfIndex mem).read ?_
    refine (S.stringFixed "host" _ host mem (by decide)).read ?_
    refine S.ending ⟨?_,rfl⟩
    rw [SocketAddress.denote_proxy rfl]
    exact congrArg (Option.map _) (fixedText_overlay old.proxy.host host)
  | unix path =>
    refine S.type ((S.int32 "family" _ mem).read ?_)
    refine (S.stringFixed "path" _ path mem (by decide)).read ?_
    refine S.ending ⟨?_,rfl⟩
    rw [SocketAddress.denote_unix rfl]
    exact congrArg (Option.map _) (fixedText_overlay old.ux.path path)

lemma Address.named (a : Address) : Named (a.members F) := by
  cases a <;> simp [Named,Address.members]
lemma gives_addressMember (name : String) {old a i} (h : a.SentIn F old i) :
    S.gives (c.decodeMember (some name) old (ioDecodePrxSocketAddress c)) [(name,i)] mem (some a)
      fun a sa mem' => sa.denote = some a ∧ mem' = mem := by
  rcases h with rfl | ⟨rfl,hold⟩
  · exact S.object name a.named (gives_address S mem old a)
  · exact S.null name (S.done ⟨hold,rfl⟩)
lemma gives_multicast (old : MulticastOption) (v : Multicast) :
    S.gives (ioDecodePrxMulticastOption c old) (v.members F) mem (some v.received)
      fun v mo mem' => mo.denote = some v ∧ mem' = mem := by
  cases v with
  | inet itfIndex addr | inet6 itfIndex addr =>
    refine S.type ((S.int32 "family" _ mem).read ?_)
    refine (S.int32 "itf_index" itfIndex mem).read ?_
    refine (S.binFixed "addr" _ addr mem (by decide) (by decide)).read ?_
    exact S.encEnding ⟨rfl,rfl⟩
lemma gives_fileInfo (v : FileInfo) :
    S.gives (ioDecodePrxFileInfo c) (v.members F) mem (v.via χ) fun v fi mem' => fi = v ∧ mem' = mem := by
  refine S.type ((S.uint "inode_number" _ mem).bind fun _ => ?_)
  refine (S.uint "device_id" _ mem).bind fun _ => ?_
  refine (S.int32 "type" _ mem).read ?_
  refine (S.uint "total_size" _ mem).bind fun _ => ?_
  refine (S.uint "last_atime" _ mem).bind fun _ => ?_
  refine (S.uint "last_mtime" _ mem).bind fun _ => ?_
  exact S.ending ⟨rfl,rfl⟩

lemma gives_ifaddrinfo {old v ms} (h : v.SentIn F old ms) :
    S.gives (ioDecodePrxIfaddrinfo c old) ms mem (some v) fun v ifa mem' => ifa.denote = some v ∧ mem' = mem := by
  obtain ⟨a,b,ha,hb,rfl⟩ := h
  refine S.type ((gives_addressMember S mem "address" ha).step ?_)
  rintro address _ ⟨haddr,rfl⟩
  refine (S.uint8 "prefix" v.prefixLen _).read ?_
  refine (S.uint8 "flags" v.flags _).read ?_
  refine (S.stringFixed "name" _ v.name _ (by decide)).read ?_
  refine (S.int32 "index" v.index _).read ?_
  refine (gives_addressMember S _ "broadcast_addr" hb).step ?_
  rintro broadcastAddr _ ⟨hbroadcast,rfl⟩
  refine S.ending ⟨?_,rfl⟩
  simp only [IfAddrInfo.denote,haddr,hbroadcast,fixedText_overlay]
  rfl

lemma Interface.named (v : Interface) (a b : β) : Named (v.membersWith F a b) := by
  simp [Named,Interface.membersWith]
lemma gives_addrinfo {old address a} (ha : address.SentIn F old.address a) (name : Text) :
    S.gives (ioDecodePrxAddrinfo c old) (addrInfoMembers F a name) mem (χ.text name)
      fun name ai mem' => ai.denote mem'.read = some (address,name) := by
  refine S.type ((gives_addressMember S mem "address" ha).step ?_)
  rintro sa _ ⟨haddr,rfl⟩
  rw [← map_id_apply (x := χ.text name)]
  refine (S.stringDefault "name" name _).last ?_
  rintro name _ mem' ⟨s,rfl,hs⟩
  refine S.ending ?_
  simp only [AddrInfo.denote,haddr,nameValue,hs,bind_some,text_terminated]
  rfl

variable {old : Property Slice}

lemma gives_objectProperty {γ : Type} {type ms d} {P : γ → Property Slice → Memory → Prop} (hobj : isObjectType type)
    (hms : Named ms) (h : S.gives (ioDecodePrxPropertyObject c { old with type }) ms mem d P) : S.gives
    (ioDecodePrxProperty c old) (propertyMembers F type (F.obj ms)) mem d P := by
  refine S.type ((S.int32 "type" type mem).read ?_)
  rw [if_pos hobj]
  rw [← map_id_apply (x := d)]
  refine Decoder.Spec.gives.last (S.object "property" hms h) ?_
  exact fun g a mem' hp => S.ending hp

lemma gives_property {v : Value} {ms} (h : v.SentIn F old ms) : S.gives (ioDecodePrxProperty c old) ms mem (v.via χ)
      fun w prop mem' =>
        prop.denote mem'.read = some w ∧ prop.type = v.type ∧ (isSocketOption v.type → mem' = mem) := by
  cases v with
  | option type value =>
    obtain rfl : ms = _ := h
    refine S.type ((S.int32 "type" type.1 mem).read ?_)
    rw [if_neg type.2.not_isObjectType,if_neg type.2.1.not_isRecordType,if_pos type.2.1]
    refine (S.uint "property" value mem).last ?_
    rintro value _ _ ⟨rfl,rfl⟩
    refine S.ret (S.ending ⟨?_,rfl,fun _ => rfl⟩)
    apply denote_option
  | multicast type value =>
    obtain rfl : ms = _ := h
    have hms : Named (value.members F) := by cases value <;> simp [Named,Multicast.members]
    refine gives_objectProperty S mem (.inl type.2) hms ?_
    unfold ioDecodePrxPropertyObject
    rw [if_pos type.2]
    refine S.map (gives_multicast S mem _ value) ?_
    rintro v mcast _ ⟨hdenote,rfl⟩
    refine ⟨?_,rfl,fun _ => rfl⟩
    rw [denote_multicast type.2]
    exact congrArg (Option.map _) hdenote
  | record type value =>
    obtain rfl : ms = _ := h
    refine S.type ((S.int32 "type" type.1 mem).read ?_)
    rw [if_neg type.2.not_isObjectType,if_pos type.2]
    refine (S.binDefault "property" value mem).last ?_
    intro d bin mem' hstored
    refine S.ret (S.ending ⟨?_,rfl,fun h => absurd type.2 h.not_isRecordType⟩)
    refine (denote_record (by exact type.2)).trans ?_
    exact congrArg (Option.map _) hstored.bufferValue
  | fileInfo value =>
    obtain rfl : ms = _ := h
    refine gives_objectProperty S mem (by decide) (by simp [Named,FileInfo.members]) ?_
    refine S.map (gives_fileInfo S mem value) ?_
    rintro v fi _ ⟨rfl,rfl⟩
    exact ⟨denote_fileInfo rfl,rfl,fun _ => rfl⟩
  | addrInfo address name =>
    obtain ⟨a,ha,rfl⟩ := h
    refine gives_objectProperty S mem (by decide) (by simp [Named,addrInfoMembers]) ?_
    refine S.map (gives_addrinfo S mem ha name) ?_
    intro name ai mem' hdenote
    refine ⟨?_,rfl,fun h => absurd (show isSocketOption prxPropertyTypeAddrinfo from h) (by decide)⟩
    exact congrArg (Option.map _) hdenote
  | ifAddrInfo value =>
    obtain ⟨ms',hms,rfl⟩ := h
    have hnamed : Named ms' := by
      obtain ⟨a,b,-,-,rfl⟩ := hms
      exact value.named a b
    refine gives_objectProperty S mem (by decide) hnamed ?_
    refine S.map (g := ifAddrInfo) (gives_ifaddrinfo S mem hms) ?_
    rintro v ifa _ ⟨hdenote,rfl⟩
    refine ⟨?_,rfl,fun _ => rfl⟩
    exact congrArg (Option.map _) hdenote

lemma Value.named {v : Value} {ms} (h : v.SentIn F old ms) : Named ms := by
  have hnamed : ∀ type i, Named (propertyMembers F type i) := fun type i => by simp [Named,propertyMembers]
  cases v with
  | addrInfo | ifAddrInfo =>
    obtain ⟨a,-,rfl⟩ := h
    exact hnamed _ _
  | _ =>
    obtain rfl : ms = _ := h
    exact hnamed _ _
def Holds (read : Slice → Option Bytes) (options : Vector (Property Slice) prxSoMax) (i : Fin prxSoMax) :
    Option Value → Prop
  | none => ¬isSocketOption (options.get i).type
  | some v => isSocketOption (options.get i).type ∧ (options.get i).denote read = some v

variable {o : Options}

lemma denoteOptions_of_holds {read options}
    (h : ∀ i, Holds read options i (o i)) : denoteOptions read options = some o := by
  have hall : ∀ i : Fin prxSoMax, isSocketOption options[i].type → (options[i].denote read).isSome := by
    intro i hi
    have := h i
    cases ho : o i with
    | none =>
      rw [ho] at this
      exact absurd hi this
    | some v =>
      rw [ho] at this
      exact isSome_iff_exists.2 ⟨v,this.2⟩
  rw [denoteOptions,if_pos hall]
  congr 1
  funext i
  have := h i
  cases ho : o i with
  | none =>
    rw [ho] at this
    exact if_neg this
  | some =>
    rw [ho] at this
    exact (if_pos this.1).trans this.2

lemma toInt_slot (i : Fin prxSoMax) : (ofNat i.1).toInt = i.1 := by
  revert i
  decide
lemma isMulticast.isSocketOption {t} (h : isMulticast t) : isSocketOption t := by
  rcases h with rfl | rfl <;> decide

lemma Value.isSocketOption_of_slot {v : Value} {i : Fin prxSoMax} (h : v.type = .ofNat i.1) :
    isSocketOption v.type := by
  have hsmall : v.type.toInt < 34 := by
    rw [h,toInt_slot]
    exact Int.ofNat_lt.2 i.2
  cases v with
  | option type => exact type.2.1
  | multicast type => exact type.2.isSocketOption
  | record type =>
    have hle : prxRecordTypeDefault.toInt ≤ type.1.toInt := le_iff_toInt_le.1 type.2.1
    have : prxRecordTypeDefault.toInt = 100 := rfl
    simp only [Value.type] at hsmall
    omega
  | _ => exact absurd hsmall (by simp only [type]; decide)

lemma get_storeOption {π : Type} (options : Vector (Property π) prxSoMax) {option}
    {j} (hopt : isSocketOption option.type) (hj : option.type = .ofNat j.1) (i : Fin prxSoMax) :
    (storeOption options option).get i = if i = j then option else options.get i := by
  rw [storeOption,if_pos hopt,hj,toInt_slot]
  change (options.setIfInBounds _ option)[i] = if i = j then option else options[i]
  simp [Vector.getElem_setIfInBounds,Fin.ext_iff,eq_comm]
lemma exists_slot {t} (h : isSocketOption t) : ∃ j : Fin prxSoMax, t = .ofNat j.1 := by
  have hlo : 0 < t.toInt := lt_iff_toInt_lt.1 h.1
  have hhi : t.toInt < 34 := lt_iff_toInt_lt.1 h.2
  refine ⟨⟨t.toInt.toNat,show t.toInt.toNat < 34 by omega⟩,?_⟩
  apply toInt_inj.1
  rw [toInt_slot]
  change t.toInt = t.toInt.toNat
  omega
lemma ofNat_slot_inj {i j : Fin prxSoMax} : (ofNat i.1 = .ofNat j.1) ↔ i = j := by
  rw [← toInt_inj,toInt_slot,toInt_slot,Int.ofNat_inj,Fin.ext_iff]
lemma Value.type_of_via {v w : Value} (h : v.via χ = some w) : w.type = v.type := by
  cases v with
  | option | fileInfo | addrInfo =>
    obtain ⟨_,-,rfl⟩ := map_eq_some_iff.1 h
    rfl
  | _ =>
    cases h
    rfl
lemma Options.placed_concat (values : List Value) (w : Value) (i : Fin prxSoMax) :
    placed (values ++ [w]) i = if w.type = .ofNat i.1 then some w else placed values i := by
  by_cases h : w.type = .ofNat i.1 <;> simp [placed,h]

variable (mem : Memory)

/-- Each option that is read is stored over what its slot held. -/
theorem gives_options (values : List Value) (hset : ∀ v ∈ values, isSocketOption v.type) (stale : Property Slice)
    (options : Vector (Property Slice) prxSoMax) (before : List Value)
    (hbefore : ∀ i, Holds mem.read options i (placed before i)) :
    S.givesItems (ioDecodeOptions c values.length stale options) (values.map fun v => F.obj (v.members F)) mem
      ((values.mapM (Value.via χ)).map (before ++ ·))
      fun values options' mem' => mem' = mem ∧ ∀ i, Holds mem.read options' i (placed values i) := by
  induction values generalizing stale options before with
  | nil =>
    exact S.nil ⟨rfl,by simpa using hbefore⟩
  | cons v values ih =>
    have hopt := hset v mem_cons_self
    have hv := v.sentIn_members F { stale with type := 0 }
    have hmapM : ((v :: values).mapM (Value.via χ)).map (before ++ ·) =
        (v.via χ).bind fun w => (values.mapM (Value.via χ)).map ((before ++ [w]) ++ ·) := by
      rw [mapM_cons]
      cases v.via χ with
      | none => rfl
      | some => cases values.mapM (Value.via χ) <;> simp
    rw [hmapM]
    refine S.element (named hv) (gives_property S mem hv) ?_
    rintro w option _ hw ⟨hdenote,htype,hmem⟩
    obtain rfl := hmem hopt
    obtain ⟨j,hj⟩ := exists_slot hopt
    have hwtype : w.type = .ofNat j.1 := (type_of_via hw).trans hj
    refine ih (fun u hu => hset u (mem_cons_of_mem _ hu)) option _ _ fun i => ?_
    rw [placed_concat,hwtype]
    have hget := get_storeOption options (htype ▸ hopt) (htype.trans hj) i
    by_cases hij : i = j
    · rw [if_pos hij] at hget
      rw [if_pos (congrArg (fun i : Fin prxSoMax => ofNat i.1) hij.symm),Holds,hget,htype]
      exact ⟨hopt,hdenote⟩
    · rw [if_neg hij] at hget
      rw [if_neg fun h => hij (ofNat_slot_inj.1 h).symm]
      have hi := hbefore i
      unfold Holds at ⊢
      rw [hget]
      exact hi

lemma mapM_eq_filterMap {α γ : Type} (f : α → Option γ) (l : List α) :
    l.mapM f = if ∀ a ∈ l, (f a).isSome then some (l.filterMap f) else none := by
  induction l with
  | nil => rfl
  | cons a l ih =>
    rw [mapM_cons,ih]
    cases ha : f a with
    | none => simp [ha]
    | some =>
      by_cases hl : ∀ a ∈ l, (f a).isSome
      · rw [if_pos hl,if_pos (by simpa [ha] using hl),filterMap_cons_some ha]
        rfl
      · rw [if_neg hl,if_neg (by simpa [ha] using hl)]
        rfl

lemma Options.placed_of_ownSlots (ho : o.OwnSlots) {slots : List (Fin prxSoMax)}
    (hslots : ∀ i, (o i).isSome → i ∈ slots) : ((slots.filterMap o).mapM (Value.via χ)).map placed =
      if ∀ i, (o i).all fun v => (v.via χ).isSome then some fun i => (o i).bind (Value.via χ) else none := by
  have hall : (∀ v ∈ slots.filterMap o, (v.via χ).isSome) ↔ ∀ i, (o i).all fun v => (v.via χ).isSome := by
    constructor
    · intro h i
      cases hi : o i with
      | none => rfl
      | some v => exact h v (mem_filterMap.2 ⟨i,hslots i (by rw [hi]; rfl),hi⟩)
    · intro h v hv
      obtain ⟨i,-,hi⟩ := mem_filterMap.1 hv
      have := h i
      rwa [hi] at this
  -- the values of one type come from one slot
  have hsent : ∀ i w, w ∈ (slots.filterMap o).filterMap (Value.via χ) → w.type = .ofNat i.1 →
      (o i).bind (Value.via χ) = some w := by
    intro i w hw htype
    obtain ⟨v,hv,hvia⟩ := mem_filterMap.1 hw
    obtain ⟨j,-,hj⟩ := mem_filterMap.1 hv
    have hij : j = i := ofNat_slot_inj.1 ((ho j v hj).symm.trans ((type_of_via hvia).symm.trans htype))
    rw [← hij,hj]
    exact hvia
  have hplaced : placed ((slots.filterMap o).filterMap (Value.via χ)) = fun i => (o i).bind (Value.via χ) := by
    funext i
    cases hfind : placed ((slots.filterMap o).filterMap (Value.via χ)) i with
    | some w =>
      exact (hsent i w (mem_reverse.1 (mem_of_find?_eq_some hfind))
        (by simpa using List.find?_some hfind)).symm
    | none =>
      rw [eq_comm,bind_eq_none_iff]
      intro v hv
      by_contra hvia
      obtain ⟨w,hw⟩ := ne_none_iff_exists'.1 hvia
      have hmem : w ∈ (slots.filterMap o).filterMap (Value.via χ) :=
        mem_filterMap.2 ⟨v,mem_filterMap.2 ⟨i,hslots i (by rw [hv]; rfl),hv⟩,hw⟩
      have htype : w.type = .ofNat i.1 := (type_of_via hw).trans (ho i v hv)
      exact List.find?_eq_none.1 hfind w (mem_reverse.2 hmem) (by simpa using htype)
  rw [mapM_eq_filterMap]
  by_cases h : ∀ i, (o i).all fun v => (v.via χ).isSome
  · rw [if_pos h,if_pos (hall.2 h),map_some,hplaced]
  · rw [if_neg h,if_neg (mt hall.1 h),map_none]

lemma Options.via_of_ownSlots (ho : o.OwnSlots) :
    o.via χ = if ∀ i, (o i).all fun v => (v.via χ).isSome then some fun i => (o i).bind (Value.via χ) else none :=
  placed_of_ownSlots ho fun i _ => mem_finRange i
lemma Options.OwnSlots.settable (ho : o.OwnSlots) : o.Settable :=
  fun i v hv => v.isSocketOption_of_slot (ho i v hv)

lemma gives_props (stale : Property Slice) {old : SocketProperties Slice} {p : Props} {ms} (h : p.SentIn F old ms) :
    S.gives (ioDecodePrxSocketProperties c stale old) ms mem (p.via χ)
      fun p sp mem' => sp.denote mem'.read = some p ∧ mem' = mem := by
  obtain ⟨a,slots,ha,hnodup,hslots,horder,rfl⟩ := h
  have hlen : (p.options.items F slots).length < 2 ^ 32 := by
    have hle := length_filterMap_le p.options slots
    have hcard : slots.length ≤ prxSoMax := hnodup.length_le_card.trans_eq (Fintype.card_fin prxSoMax)
    simp only [items,length_map,prxSoMax] at hle hcard ⊢
    omega
  have hset : ∀ v ∈ slots.filterMap p.options, isSocketOption v.type := by
    intro v hv
    obtain ⟨i,-,hi⟩ := mem_filterMap.1 hv
    exact horder.elim (fun ho => ho.settable i v hi) fun h => h.1 i v hi
  have hvia : p.options.via χ = ((slots.filterMap p.options).mapM (Value.via χ)).map placed := by
    rcases horder with ho | ⟨-,rfl⟩
    · rw [via_of_ownSlots ho,placed_of_ownSlots ho hslots]
    · rfl
  have hempty : ∀ i, Holds mem.read (.replicate prxSoMax .zero) i (placed [] i) := by
    simp [placed,Holds]
    decide
  refine S.type ((S.int32 "family" p.family mem).read ?_)
  refine (S.int32 "sock_type" p.sockType mem).read ?_
  refine (S.int32 "proto_type" p.protoType mem).read ?_
  refine (S.uint32 "flags" p.flags mem).read ?_
  refine (S.uint "timeout" p.timeout mem).bind fun timeout => ?_
  refine (gives_addressMember S mem "address" ha).step ?_
  rintro address mem ⟨haddr,rfl⟩
  have hoptions := gives_options S mem _ hset stale (.replicate prxSoMax .zero) [] hempty
  simp only [nil_append,Option.map_id'] at hoptions
  rw [← length_map] at hoptions
  rw [hvia,Option.bind_eq_bind,Option.bind_map]
  refine S.bind (S.array "options" hlen hoptions) ?_
  rintro values options mem' - ⟨rfl,hholds⟩
  refine S.ending ⟨?_,rfl⟩
  simp only [SocketProperties.denote,haddr,denoteOptions_of_holds hholds]
  rfl

end EdgeProxy.Codec
