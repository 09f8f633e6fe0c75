import EdgeProxy.Codec.DecodeTypes
import EdgeProxy.Codec.Separation
import EdgeProxy.Lib.Dependence

/-! # Types that are decoded completely

Which values of the proxy types depend on what the memory held before: where an object is null, where the content for an
array is too short, and where no option so far has filled the address of a multicast option.
-/
namespace EdgeProxy.Codec

open Lib Address RawProperty Multicast Value Vector

variable {π : Type}

def MemberComplete {α : Type} (complete : α → Prop) : Option α → Prop
  | none => False
  | some raw => complete raw
def RefComplete (d : Bytes) : Prop :=
  16 ≤ d.length

def RawAddress.Complete : RawAddress → Prop
  | inet _ addr => 4 ≤ addr.length
  | inet6 _ _ addr _ => 16 ≤ addr.length
  | unspec | proxy .. | unix _ => True
def RawMulticast.Complete : RawMulticast → Prop
  | inet _ addr => 4 ≤ addr.length
  | inet6 _ addr => 16 ≤ addr.length
def RawProperty.Complete : RawProperty π → Prop
  | multicast _ value => value.Complete
  | addrInfo address _ => MemberComplete RawAddress.Complete address
  | ifAddrInfo address _ _ _ _ broadcastAddr =>
    MemberComplete RawAddress.Complete address ∧ MemberComplete RawAddress.Complete broadcastAddr
  | fileInfo _ | record .. | option .. => True
def RawProperty.type : RawProperty π → Int32
  | multicast type _ => type.1
  | addrInfo .. => prxPropertyTypeAddrinfo
  | ifAddrInfo .. => prxPropertyTypeIfaddrinfo
  | fileInfo _ => prxPropertyTypeFileInfo
  | record type _ => type.1
  | option type _ => type.1

structure Filled where
  inet : Bool
  inet6 : Bool

def Filled.none : Filled := ⟨false,false⟩
def RawMulticast.fill (filled : Filled) : RawMulticast → Filled
  | inet _ addr => { filled with inet := filled.inet || decide (4 ≤ addr.length) }
  | inet6 _ addr => { filled with inet6 := filled.inet6 || decide (16 ≤ addr.length) }
def RawProperty.fill (filled : Filled) : RawProperty π → Filled
  | multicast _ value => value.fill filled
  | _ => filled

def RawProperty.Covered (filled : Filled) : RawProperty π → Prop
  | multicast _ (.inet ..) => filled.inet
  | multicast _ (.inet6 ..) => filled.inet6
  | _ => True

/-- Every option is overwritten by a later one of its type, or its address was filled up to then. -/
def OptionsSettled : Filled → List (RawProperty π) → Prop
  | _, [] => True
  | filled, raw :: raws =>
    (raw.Covered (raw.fill filled) ∨ ∃ later ∈ raws, later.type = raw.type) ∧ OptionsSettled (raw.fill filled) raws

def RawProps.Complete (raw : RawProps π) : Prop :=
  MemberComplete RawAddress.Complete raw.address ∧ OptionsSettled .none raw.options

def RawContent.Complete : RawContent π → Prop
  | none | closeResponse _ | poll _ | getoptRequest _ => True
  | data message => MemberComplete RawAddress.Complete message.source
  | pingRequest address => MemberComplete RawAddress.Complete address
  | pingResponse response =>
    MemberComplete RawAddress.Complete response.address ∧ 8 ≤ response.physicalAddress.length
  | linkRequest request => MemberComplete RawProps.Complete request.props
  | linkResponse response =>
    MemberComplete RefComplete response.linkId ∧ MemberComplete RawAddress.Complete response.localAddress ∧
      MemberComplete RawAddress.Complete response.peerAddress
  | openRequest request => MemberComplete RefComplete request.streamId
  | setoptRequest soVal => MemberComplete RawProperty.Complete soVal
  | getoptResponse soVal => MemberComplete RawProperty.Complete soVal

/-- No object is null that is decoded into the message, and all content has the size of its array. -/
def RawMessage.Complete (raw : RawMessage π) : Prop :=
  MemberComplete RefComplete raw.sourceId ∧ MemberComplete RefComplete raw.proxyId ∧
    MemberComplete RefComplete raw.targetId ∧ raw.content.Complete

instance {α : Type} {complete : α → Prop} [DecidablePred complete] (raw : Option α) :
    Decidable (MemberComplete complete raw) :=
  match raw with
  | none => inferInstanceAs (Decidable False)
  | some raw => inferInstanceAs (Decidable (complete raw))

instance : DecidablePred RefComplete :=
  fun _ => inferInstanceAs (Decidable (_ ≤ _))
instance : DecidablePred RawAddress.Complete
  | .inet .. | .inet6 .. => inferInstanceAs (Decidable (_ ≤ _))
  | .unspec | .proxy .. | .unix _ => inferInstanceAs (Decidable True)
instance : DecidablePred RawMulticast.Complete
  | .inet .. | .inet6 .. => inferInstanceAs (Decidable (_ ≤ _))

instance : DecidablePred (RawProperty.Complete (π := π))
  | .multicast _ value => inferInstanceAs (Decidable value.Complete)
  | .addrInfo address _ => inferInstanceAs (Decidable (MemberComplete RawAddress.Complete address))
  | .ifAddrInfo .. => inferInstanceAs (Decidable (_ ∧ _))
  | .fileInfo _ | .record .. | .option .. => inferInstanceAs (Decidable True)
instance (filled : Filled) : DecidablePred (RawProperty.Covered (π := π) filled)
  | .multicast _ (.inet ..) | .multicast _ (.inet6 ..) => inferInstanceAs (Decidable (_ = _))
  | .addrInfo .. | .ifAddrInfo .. | .fileInfo _ | .record .. | .option .. => inferInstanceAs (Decidable True)
instance decidableOptionsSettled : (filled : Filled) → (raws : List (RawProperty π)) →
    Decidable (OptionsSettled filled raws)
  | _, [] => inferInstanceAs (Decidable True)
  | filled, raw :: raws =>
    have := decidableOptionsSettled (raw.fill filled) raws
    inferInstanceAs (Decidable ((_ ∨ _) ∧ OptionsSettled (raw.fill filled) raws))
instance : DecidablePred (RawProps.Complete (π := π)) :=
  fun _ => inferInstanceAs (Decidable (_ ∧ _))
instance : DecidablePred (RawContent.Complete (π := π))
  | .none | .closeResponse _ | .poll _ | .getoptRequest _ => inferInstanceAs (Decidable True)
  | .data _ | .pingRequest _ => inferInstanceAs (Decidable (MemberComplete RawAddress.Complete _))
  | .pingResponse _ => inferInstanceAs (Decidable (_ ∧ _))
  | .linkRequest _ => inferInstanceAs (Decidable (MemberComplete RawProps.Complete _))
  | .linkResponse _ => inferInstanceAs (Decidable (_ ∧ _ ∧ _))
  | .openRequest _ => inferInstanceAs (Decidable (MemberComplete RefComplete _))
  | .setoptRequest _ | .getoptResponse _ => inferInstanceAs (Decidable (MemberComplete RawProperty.Complete _))

instance : DecidablePred (RawMessage.Complete (π := π)) :=
  fun _ => inferInstanceAs (Decidable (_ ∧ _ ∧ _ ∧ _))
def emptyStrings : π → Option Bytes :=
  fun _ => some [0]

variable {ρ : Type} {e : ρ} {n : ℕ}

lemma getElem_overlay (old : Vector UInt8 n) (d : Bytes) (i : ℕ) (hi : i < n) :
    (overlay old d)[i] = d[i]?.getD old[i] := by
  simp [overlay]
lemma overlay_eq_of_full {d} (h : n ≤ d.length) (old old' : Vector UInt8 n) : overlay old d = overlay old' d := by
  ext i hi
  rw [getElem_overlay,getElem_overlay,List.getElem?_eq_getElem (by omega)]
  rfl
lemma depends_overlay (d : Bytes) :
    DependsUnless e (fun _ (old : Vector UInt8 n) => some (overlay old d)) (n ≤ d.length) where
  same h _ old old' := congrArg some (overlay_eq_of_full h old old')
  defined := ⟨.replicate n 0,_,rfl⟩
  differ h := by
    refine ⟨.replicate n 0,.replicate n 1,_,_,rfl,rfl,fun heq => ?_⟩
    have hlast := congrArg (fun v : Vector UInt8 n => v[d.length]) heq
    simp only [getElem_overlay,List.getElem?_length,getElem_replicate] at hlast
    exact absurd hlast (by decide)
lemma fixedText_overlay_eq (old : Vector UInt8 n) (t : Terminated n) :
    fixedText (overlay old t.1) = some ⟨t.1.takeWhile (· ≠ 0),zero_notMem_takeWhile _,
      (length_takeWhile_lt t.2.1).trans_le t.2.2⟩ := by
  have hlist := toList_overlay old t.1 t.2.2
  have hmem : 0 ∈ (overlay old t.1).toList := by
    rw [hlist]
    exact List.mem_append_left _ t.2.1
  rw [fixedText,dif_pos hmem]
  congr 1
  apply Subtype.ext
  change (overlay old t.1).toList.takeWhile (· ≠ 0) = _
  rw [hlist,List.takeWhile_append,if_neg (length_takeWhile_lt t.2.1).ne]
lemma depends_fixedText (t : Terminated n) :
    DependsUnless e (fun _ (old : Vector UInt8 n) => fixedText (overlay old t.1)) True where
  same _ _ old old' := by rw [fixedText_overlay_eq,fixedText_overlay_eq]
  defined := ⟨.replicate n 0,_,fixedText_overlay_eq _ t⟩
  differ h := absurd trivial h

variable {α β τ : Type}

/-- A member that is null shows its previous content. -/
theorem depends_member (view : ρ → β → Option τ) {apply complete} (hnull : DependsUnless e view False)
    (hsome : ∀ raw, DependsUnless e (fun r old => view r (apply raw old)) (complete raw)) (raw : Option α) :
    DependsUnless e (fun r old => view r (applyMember apply raw old)) (MemberComplete complete raw) := by
  cases raw with
  | none => exact hnull
  | some raw => exact hsome raw

lemma depends_ref (d : Bytes) : DependsUnless e (fun _ (old : IoRef) => some (applyRef d old)) (RefComplete d) := by
  have hbytes := (depends_overlay (e := e) d).map IoRef.mk fun _ _ => by grind
  exact hbytes.part fun u8 => ⟨⟨u8⟩,rfl⟩
lemma depends_refMember (raw : Option Bytes) :
    DependsUnless e (fun _ (old : IoRef) => some (applyMember applyRef raw old)) (MemberComplete RefComplete raw) :=
  depends_member (fun _ old => some old) (.of_ne ⟨.replicate 16 0⟩ ⟨.replicate 16 1⟩ rfl rfl (by decide)) depends_ref
    raw

lemma depends_address (raw : RawAddress) : DependsUnless e (fun _ old => (raw.apply old).denote) raw.Complete := by
  cases raw with
  | unspec => exact .const (fun _ => some unspec) rfl
  | inet port addr =>
    have haddr := (depends_overlay (e := e) addr).map (inet port) fun _ _ => by grind
    refine haddr.part fun in4 => ?_
    exact ⟨{ (default : SocketAddress) with ip := { (default : SocketAddressInet) with in4 } },rfl⟩
  | inet6 port flow addr scopeId =>
    have haddr := (depends_overlay (e := e) addr).map (fun in6 => inet6 port flow in6 scopeId) fun _ _ => by grind
    refine haddr.part fun in6 => ?_
    exact ⟨{ (default : SocketAddress) with ip := { (default : SocketAddressInet) with in6 } },rfl⟩
  | proxy port flags itfIndex host =>
    have hhost := (depends_fixedText (e := e) host).map (proxy port flags itfIndex) fun _ _ => by grind
    refine (hhost.part fun host => ?_).of_eq fun _ old => SocketAddress.denote_proxy rfl
    exact ⟨{ (default : SocketAddress) with proxy := { (default : SocketAddressProxy) with host } },rfl⟩
  | unix path =>
    have hpath := (depends_fixedText (e := e) path).map unix fun _ _ => by grind
    refine (hpath.part fun path => ?_).of_eq fun _ old => SocketAddress.denote_unix rfl
    exact ⟨{ (default : SocketAddress) with ux := ⟨path⟩ },rfl⟩

def inetAddress (port : UInt16) : SocketAddress :=
  { (default : SocketAddress) with
    family := prxAddressFamilyInet
    ip := { (default : SocketAddressInet) with port } }
lemma depends_addressMember (raw : Option RawAddress) :
    DependsUnless e (fun _ old => (applyMember RawAddress.apply raw old).denote)
      (MemberComplete RawAddress.Complete raw) :=
  depends_member (fun _ old => old.denote)
    (.of_ne (inetAddress 0) (inetAddress 1) rfl rfl fun h => by cases h) depends_address raw
lemma depends_multicast {ρ : Type} {e : ρ} (raw : RawMulticast) :
    DependsUnless e (fun _ old => (raw.apply old).denote) raw.Complete := by
  cases raw with
  | inet itfIndex addr =>
    have haddr := (depends_overlay (e := e) addr).map (inet itfIndex) fun _ _ => by grind
    exact haddr.part fun in4 => ⟨{ (default : MulticastOption) with in4 },rfl⟩
  | inet6 itfIndex addr =>
    have haddr := (depends_overlay (e := e) addr).map
      (fun in6 => inet6 itfIndex in6 itfIndex.toUInt32) fun _ _ => by grind
    exact haddr.part fun in6 => ⟨{ (default : MulticastOption) with in6 },rfl⟩
lemma depends_pair_memory {σ τ τ' : Type} {view : (π → Option Bytes) → σ → Option τ} {settled : Prop}
    (h : DependsUnless emptyStrings view settled) (value : (π → Option Bytes) → Option τ') {v}
    (hv : value emptyStrings = some v) :
    DependsUnless emptyStrings (fun read old => (view read old).bind fun a => (value read).bind fun b => some (a,b))
      settled :=
  ((h.pair (.const value hv)).part (g := fun old => (old,())) fun old => ⟨old.1,rfl⟩).congr
    (and_true settled).symm.to_iff
lemma RawProperty.denote_option (type : { t : Int32 // IsPlainOption t }) (value : UInt64) (read : π → Option Bytes)
    (option : Property π) : ((RawProperty.option type value).apply option).denote read = some (.option type value) := by
  have htype : IsPlainOption ((RawProperty.option type value).apply option).type := type.2
  exact Property.denote_option htype
lemma RawProperty.denote_record (type : { t : Int32 // isRecordType t }) (bin : Option π) (read : π → Option Bytes)
    (option : Property π) :
    ((record type bin).apply option).denote read = (bufferValue read bin).map (.record type) := by
  have htype : isRecordType ((record type bin).apply option).type := type.2
  exact Property.denote_record htype
lemma RawProperty.denote_multicast (type : { t : Int32 // isMulticast t }) (value : RawMulticast)
    (read : π → Option Bytes) (option : Property π) : ((multicast type value).apply option).denote read =
      (value.apply option.mcast).denote.map (.multicast type) := by
  have htype : isMulticast ((multicast type value).apply option).type := type.2
  exact Property.denote_multicast htype

lemma bufferValue_emptyStrings (p : Option π) : ∃ d, bufferValue emptyStrings p = some d := by
  cases p with
  | none => exact ⟨[],rfl⟩
  | some => exact ⟨[0],rfl⟩
lemma depends_property (raw : RawProperty π) :
    DependsUnless emptyStrings (fun read old => (raw.apply old).denote read) raw.Complete := by
  have : Inhabited (Property π) := ⟨.zero⟩
  cases raw with
  | multicast type value =>
    have hvalue := (depends_multicast (e := (emptyStrings : π → Option Bytes)) value).map (multicast type)
      fun _ _ => by grind
    refine (hvalue.part fun mcast => ?_).of_eq fun read old => denote_multicast type value read old
    exact ⟨{ Property.zero with mcast },rfl⟩
  | addrInfo address name =>
    have hboth := (depends_pair_memory (depends_addressMember address) (fun read => nameValue read (some name))
      rfl).map (fun p => addrInfo p.1 p.2) fun _ _ => by grind
    refine (hboth.part (g := fun old : Property π => old.addrInfo.address) fun address => ?_).of_eq fun read old => ?_
    · exact ⟨{ Property.zero with addrInfo := ⟨address,0,none⟩ },rfl⟩
    · exact Property.denote_addrInfo rfl
  | ifAddrInfo address prefixLen flags name index broadcastAddr =>
    have hall := ((depends_addressMember (e := (emptyStrings : π → Option Bytes)) address).pair
      ((depends_fixedText name).pair (depends_addressMember broadcastAddr))).map
      (fun p => ifAddrInfo ⟨p.1,prefixLen,flags,p.2.1,index,p.2.2⟩) fun _ _ => by grind
    have hparts := hall.part
      (g := fun old : Property π => (old.itfInfo.address,old.itfInfo.name,old.itfInfo.broadcastAddr)) fun p => by
        refine ⟨{ Property.zero with itfInfo := ?_ },?_⟩
        · exact { (default : IfAddrInfo) with address := p.1,name := p.2.1,broadcastAddr := p.2.2 }
        · rfl
    refine (hparts.congr ?_).of_eq fun read old => ?_
    · simp [RawProperty.Complete]
    · rw [Property.denote_ifAddrInfo rfl]
      simp only [apply,IfAddrInfo.denote]
      cases (applyMember RawAddress.apply address old.itfInfo.address).denote <;>
        cases fixedText (overlay old.itfInfo.name name.1) <;>
        cases (applyMember RawAddress.apply broadcastAddr old.itfInfo.broadcastAddr).denote <;> rfl
  | fileInfo value => exact .const (fun _ => some (Value.fileInfo value)) rfl
  | record type bin =>
    obtain ⟨v,hv⟩ := bufferValue_emptyStrings bin
    refine (DependsUnless.const (fun read => (bufferValue read bin).map (.record type)) (by rw [hv]; rfl)).of_eq ?_
    exact fun read old => denote_record type bin read old
  | option type value =>
    refine (DependsUnless.const (fun _ => some (.option type value)) rfl).of_eq fun read old => ?_
    exact RawProperty.denote_option type value read old

lemma isSocketOption.slot {t} (h : isSocketOption t) : ∃ j : Fin prxSoMax, t = .ofNat j.1 := by
  have hlo : 0 < t.toInt := Int32.lt_iff_toInt_lt.1 h.1
  have hhi : t.toInt < 34 := Int32.lt_iff_toInt_lt.1 h.2
  refine ⟨⟨t.toInt.toNat,by unfold prxSoMax; omega⟩,?_⟩
  rw [← Int32.toInt_inj,toInt_slot]
  exact (Int.toNat_of_nonneg hlo.le).symm

lemma RawProperty.type_apply (raw : RawProperty π) (option : Property π) : (raw.apply option).type = raw.type := by
  cases raw <;> rfl
def RawProperty.InSlot (raw : RawProperty π) (i : Fin prxSoMax) : Prop :=
  isSocketOption raw.type ∧ raw.type = .ofNat i.1

lemma get_storeOption_apply (raw : RawProperty π) (option : Property π) (options : Vector (Property π) prxSoMax)
    (i : Fin prxSoMax) : (raw.InSlot i ∧ (storeOption options (raw.apply option)).get i = raw.apply option) ∨
      (¬raw.InSlot i ∧ (storeOption options (raw.apply option)).get i = options.get i) := by
  by_cases hsocket : isSocketOption raw.type
  · obtain ⟨j,hj⟩ := hsocket.slot
    have hget : (storeOption options (raw.apply option)).get i = if i = j then raw.apply option else options.get i :=
      get_storeOption options (by rwa [raw.type_apply]) (by rwa [raw.type_apply]) i
    by_cases hij : i = j
    · rw [if_pos hij] at hget
      exact .inl ⟨⟨hsocket,hij ▸ hj⟩,hget⟩
    · rw [if_neg hij] at hget
      refine .inr ⟨fun h => hij ?_,hget⟩
      have hslots := congrArg Int32.toInt (h.2.symm.trans hj)
      rw [toInt_slot,toInt_slot] at hslots
      exact Fin.ext (Int.ofNat_inj.1 hslots)
  · refine .inr ⟨fun h => hsocket h.1,?_⟩
    rw [storeOption,if_neg (by rwa [raw.type_apply])]

lemma get_applyOptions {i} (raws : List (RawProperty π)) (option : Property π) (options : Vector (Property π) prxSoMax)
    (h : ∀ raw ∈ raws, ¬raw.InSlot i) : (applyOptions raws option options).get i = options.get i := by
  induction raws generalizing option options with
  | nil => rfl
  | cons raw raws ih =>
    rw [List.forall_mem_cons] at h
    rw [applyOptions,ih _ _ h.2]
    rcases get_storeOption_apply raw option options i with ⟨hslot,-⟩ | ⟨-,hget⟩
    · exact absurd hslot h.1
    · exact hget

variable {raw : RawProperty π}

lemma RawProperty.socketOption_cases (h : isSocketOption raw.type) :
    (∃ type value, raw = .option type value) ∨ ∃ type value, raw = .multicast type value := by
  cases raw with
  | option type value => exact .inl ⟨type,value,rfl⟩
  | multicast type value => exact .inr ⟨type,value,rfl⟩
  | record type => exact absurd type.2 h.not_isRecordType
  | addrInfo => exact absurd (show isSocketOption prxPropertyTypeAddrinfo from h) (by decide)
  | ifAddrInfo => exact absurd (show isSocketOption prxPropertyTypeIfaddrinfo from h) (by decide)
  | fileInfo => exact absurd (show isSocketOption prxPropertyTypeFileInfo from h) (by decide)
lemma RawProperty.denote_apply_isSome (h : isSocketOption raw.type) (read : π → Option Bytes)
    (option : Property π) : ((raw.apply option).denote read).isSome := by
  rcases raw.socketOption_cases h with ⟨type,value,rfl⟩ | ⟨type,value,rfl⟩
  · rw [denote_option,Option.isSome_some]
  · rw [denote_multicast]
    cases value <;> rfl

/-- Every slot that holds a socket option holds one with a value. -/
theorem denotes_applyOptions (read : π → Option Bytes) (raws : List (RawProperty π)) (option : Property π)
    (options : Vector (Property π) prxSoMax)
    (h : ∀ i : Fin prxSoMax, isSocketOption (options.get i).type → ((options.get i).denote read).isSome)
    (i : Fin prxSoMax) (hi : isSocketOption ((applyOptions raws option options).get i).type) :
    (((applyOptions raws option options).get i).denote read).isSome := by
  induction raws generalizing option options with
  | nil => exact h i hi
  | cons raw raws ih =>
    refine ih _ _ (fun j hj => ?_) hi
    rcases get_storeOption_apply raw option options j with ⟨hslot,hget⟩ | ⟨-,hget⟩
    · rw [hget]
      exact raw.denote_apply_isSome hslot.1 read option
    · rw [hget] at hj ⊢
      exact h j hj

structure Agree (filled : Filled) (option option' : Property π) : Prop where
  inet : filled.inet → option.mcast.in4 = option'.mcast.in4
  inet6 : filled.inet6 → option.mcast.in6 = option'.mcast.in6

structure Apart (filled : Filled) (option option' : Property π) : Prop where
  inet : filled.inet = false → option.mcast.in4[3] ≠ option'.mcast.in4[3]
  inet6 : filled.inet6 = false → option.mcast.in6[15] ≠ option'.mcast.in6[15]

variable {filled : Filled} {option option' : Property π}

lemma overlay_agree {n} {v v' : Vector UInt8 n} {before d} (h : before = true → v = v')
    (hfilled : (before || decide (n ≤ d.length)) = true) : overlay v d = overlay v' d := by
  rcases Bool.or_eq_true_iff.1 hfilled with hbefore | hnow
  · rw [h hbefore]
  · exact overlay_eq_of_full (of_decide_eq_true hnow) _ _
lemma overlay_apart {n} {v v' : Vector UInt8 (n + 1)} {before d} (h : before = false → v[n] ≠ v'[n])
    (hfilled : (before || decide (n + 1 ≤ d.length)) = false) : (overlay v d)[n] ≠ (overlay v' d)[n] := by
  obtain ⟨hbefore,hnow⟩ := Bool.or_eq_false_iff.1 hfilled
  have hshort : d.length ≤ n := Nat.lt_succ_iff.1 (Nat.lt_of_not_le (of_decide_eq_false hnow))
  rw [getElem_overlay,getElem_overlay,List.getElem?_eq_none hshort]
  exact h hbefore
lemma Agree.apply (h : Agree filled option option') (raw : RawProperty π) :
    Agree (raw.fill filled) (raw.apply option) (raw.apply option') := by
  cases raw with
  | multicast type value =>
    cases value with
    | inet => exact ⟨overlay_agree h.inet,h.inet6⟩
    | inet6 => exact ⟨h.inet,overlay_agree h.inet6⟩
  | _ => exact ⟨h.inet,h.inet6⟩
lemma Apart.apply (h : Apart filled option option') (raw : RawProperty π) :
    Apart (raw.fill filled) (raw.apply option) (raw.apply option') := by
  cases raw with
  | multicast type value =>
    cases value with
    | inet => exact ⟨overlay_apart h.inet,h.inet6⟩
    | inet6 => exact ⟨h.inet,overlay_apart h.inet6⟩
  | _ => exact ⟨h.inet,h.inet6⟩
lemma Agree.denote_apply (h : Agree filled option option') (hsocket : isSocketOption raw.type)
    (hcovered : raw.Covered (raw.fill filled)) (read : π → Option Bytes) :
    (raw.apply option).denote read = (raw.apply option').denote read := by
  have hagree := h.apply raw
  rcases raw.socketOption_cases hsocket with ⟨type,value,rfl⟩ | ⟨type,value,rfl⟩
  · rw [RawProperty.denote_option,RawProperty.denote_option]
  · rw [denote_multicast,denote_multicast]
    cases value with
    | inet itfIndex =>
      exact congrArg (some <| Value.multicast type <| .inet itfIndex ·) (hagree.inet hcovered)
    | inet6 itfIndex =>
      exact congrArg (some <| multicast type <| .inet6 itfIndex · itfIndex.toUInt32) (hagree.inet6 hcovered)

lemma Apart.denote_apply_ne (h : Apart filled option option') (hcovered : ¬raw.Covered (raw.fill filled))
    (read : π → Option Bytes) : (raw.apply option).denote read ≠ (raw.apply option').denote read := by
  have hapart := h.apply raw
  cases raw with
  | multicast type value =>
    rw [denote_multicast,denote_multicast]
    intro heq
    cases value with
    | inet itfIndex =>
      have haddr := inet.inj (multicast.inj (Option.some.inj heq)).2
      exact hapart.inet (Bool.eq_false_of_not_eq_true hcovered) (congrArg (fun v : Vector UInt8 4 => v[3]) haddr.2)
    | inet6 =>
      have haddr := inet6.inj (multicast.inj (Option.some.inj heq)).2
      exact hapart.inet6 (Bool.eq_false_of_not_eq_true hcovered) (congrArg (fun v : Vector UInt8 16 => v[15]) haddr.2.1)
  | _ => exact absurd trivial hcovered

def SameSlot (p q : Property π) : Prop :=
  p.type = q.type ∧ ∀ read, p.denote read = q.denote read

lemma applyOptions_same (raws : List (RawProperty π)) (hsettled : OptionsSettled filled raws)
    (h : Agree filled option option') (options options' : Vector (Property π) prxSoMax)
    (hslots : ∀ i, SameSlot (options.get i) (options'.get i) ∨ ∃ raw ∈ raws, raw.InSlot i) (i : Fin prxSoMax) :
    SameSlot ((applyOptions raws option options).get i) ((applyOptions raws option' options').get i) := by
  induction raws generalizing filled option option' options options' with
  | nil => exact (hslots i).resolve_right fun ⟨_,hmem,_⟩ => absurd hmem List.not_mem_nil
  | cons raw raws ih =>
    refine ih hsettled.2 (h.apply raw) _ _ fun j => ?_
    rcases get_storeOption_apply raw option options j with ⟨hslot,hget⟩ | ⟨hslot,hget⟩
    · have hget' := ((get_storeOption_apply raw option' options' j).resolve_right fun h => h.1 hslot).2
      rw [hget,hget']
      rcases hsettled.1 with hcovered | ⟨later,hlater,htype⟩
      · exact .inl ⟨(raw.type_apply _).trans (raw.type_apply _).symm,h.denote_apply hslot.1 hcovered⟩
      · exact .inr ⟨later,hlater,by rwa [InSlot,htype]⟩
    · have hget' := ((get_storeOption_apply raw option' options' j).resolve_left fun h => hslot h.1).2
      rw [hget,hget']
      refine (hslots j).imp_right ?_
      rintro ⟨raw',hmem,hraw'⟩
      rcases List.mem_cons.1 hmem with rfl | hmem
      · exact absurd hraw' hslot
      · exact ⟨raw',hmem,hraw'⟩

lemma applyOptions_differ (raws : List (RawProperty π)) (hsettled : ¬OptionsSettled filled raws)
    (h : Apart filled option option') (options options' : Vector (Property π) prxSoMax) (read : π → Option Bytes) :
    ∃ i : Fin prxSoMax, isSocketOption ((applyOptions raws option options).get i).type ∧
      isSocketOption ((applyOptions raws option' options').get i).type ∧
      ((applyOptions raws option options).get i).denote read ≠
        ((applyOptions raws option' options').get i).denote read := by
  induction raws generalizing filled option option' options options' with
  | nil => exact absurd trivial hsettled
  | cons raw raws ih =>
    rw [OptionsSettled,not_and_or] at hsettled
    rcases hsettled with hhead | hrest
    · rw [not_or] at hhead
      obtain ⟨hcovered,hlater⟩ := hhead
      have hsocket : isSocketOption raw.type := by
        cases raw with
        | multicast type => exact type.2.isSocketOption
        | _ => exact absurd trivial hcovered
      obtain ⟨i,hi⟩ := hsocket.slot
      have hslot : raw.InSlot i := ⟨hsocket,hi⟩
      have hothers : ∀ later ∈ raws, ¬later.InSlot i := by
        intro later hmem hslot'
        exact hlater ⟨later,hmem,hslot'.2.trans hi.symm⟩
      have hget : ∀ (option : Property π) options, (applyOptions (raw :: raws) option options).get i =
          raw.apply option := by
        intro option options
        rw [applyOptions,get_applyOptions raws _ _ hothers]
        exact ((get_storeOption_apply raw option options i).resolve_right fun h => h.1 hslot).2
      refine ⟨i,?_,?_,?_⟩
      · rwa [hget,raw.type_apply]
      · rwa [hget,raw.type_apply]
      · rw [hget,hget]
        exact h.denote_apply_ne hcovered read
    · exact ih hrest (h.apply raw) _ _

def optionsValue (read : π → Option Bytes) (options : Vector (Property π) prxSoMax) : Options :=
  fun i => if isSocketOption (options.get i).type then (options.get i).denote read else none
lemma denoteOptions_applyOptions (read : π → Option Bytes) (raws : List (RawProperty π)) (stale : Property π) :
    denoteOptions read (applyOptions raws stale (.replicate prxSoMax .zero)) =
      some (optionsValue read (applyOptions raws stale (.replicate prxSoMax .zero))) := by
  refine if_pos fun i hi => denotes_applyOptions read raws stale _ (fun j hj => ?_) i hi
  have hget : (Vector.replicate prxSoMax (.zero : Property π)).get j = .zero := by simp [Vector.get]
  rw [hget] at hj
  exact absurd (show isSocketOption 0 from hj) (by decide)

def multicastBytes (b : UInt8) : Property π :=
  { (Property.zero : Property π) with mcast := ⟨0,0,.replicate 4 b,.replicate 16 b,0⟩ }
lemma apart_multicastBytes : Apart .none (multicastBytes 0 : Property π) (multicastBytes 1) where
  inet _ := show (replicate 4 (0 : UInt8))[3] ≠ (replicate 4 (1 : UInt8))[3] by decide
  inet6 _ := show (replicate 16 (0 : UInt8))[15] ≠ (replicate 16 (1 : UInt8))[15] by decide

lemma depends_options (raws : List (RawProperty π)) : DependsUnless emptyStrings
      (fun read stale => denoteOptions read (applyOptions raws stale (.replicate prxSoMax .zero)))
      (OptionsSettled .none raws) where
  same hsettled read stale stale' := by
    have hagree : Agree .none stale stale' :=
      ⟨fun h => absurd h Bool.false_ne_true,fun h => absurd h Bool.false_ne_true⟩
    have hsame := applyOptions_same raws hsettled hagree (.replicate prxSoMax .zero) (.replicate prxSoMax .zero)
      fun i => .inl ⟨rfl,fun _ => rfl⟩
    rw [denoteOptions_applyOptions,denoteOptions_applyOptions]
    congr 1
    funext i
    rw [optionsValue,optionsValue,(hsame i).1,(hsame i).2 read]
  defined := ⟨.zero,_,denoteOptions_applyOptions _ _ _⟩
  differ hsettled := by
    refine ⟨multicastBytes 0,multicastBytes 1,_,_,denoteOptions_applyOptions _ _ _,denoteOptions_applyOptions _ _ _,?_⟩
    intro heq
    obtain ⟨i,hi,hi',hne⟩ := applyOptions_differ raws hsettled apart_multicastBytes (.replicate prxSoMax .zero)
      (.replicate prxSoMax .zero) emptyStrings
    have hvalue := congrFun heq i
    rw [optionsValue,optionsValue,if_pos hi,if_pos hi'] at hvalue
    exact hne hvalue

end EdgeProxy.Codec
