import EdgeProxy.Buffer.Lease
import EdgeProxy.Lib.Shares

/-! # Messages and their payloads

The message factory of `io_proto.c`: a fixed pool of messages, and a dynamic pool of the buffers for their payloads.
-/
namespace EdgeProxy.Buffer
open Base Lib Function

/-- `io_message_factory_t`; `payload` is the field `buffer` of the messages in memory. -/
structure Factory where
  messages : Pool
  buffers : Pool
  payload : Address → Option Address

/-- The messages of `io_message_factory_create`; the pool has a maximum only if there is a callback. -/
def messagesConfig (poolSize lowWatermark highWatermark : UInt64) (cb : Bool) : PoolConfig :=
  { initialCount := poolSize.toNat
    maxCount := if cb then poolSize.toNat else 0
    lowWatermark := lowWatermark.toNat
    highWatermark := highWatermark.toNat
    cb }

/-- `io_message_factory_create` with the memory for both pools; `messageSize` is the size of a message. -/
def ioMessageFactoryCreate (config : PoolConfig) (messageSize : ℕ) (messages buffers : List (Option ℕ)) :
    Option Factory :=
  match poolCreate .fixed (some config) messageSize messages, poolCreate .dynamic none 0 buffers with
  | some messages, some buffers => some { messages, buffers, payload := fun _ => none }
  | _, _ => none

def Factory.ioMessageCreateEmpty (f : Factory) (memory : List (Option ℕ)) : Factory × Except PrxError Address :=
  match f.messages.allocBuffer memory with
  | (messages,none) => ({ f with messages },.error .outOfMemory)
  | (messages,some a) => ({ f with messages, payload := Function.update f.payload a none },.ok a)
def Factory.ioMessageClone (f : Factory) (a : Address) : Factory :=
  let f := { f with messages := f.messages.addRef a }
  match f.payload a with
  | none => f
  | some b => { f with buffers := f.buffers.addRef b }

/-- `io_message_allocate_buffer` for the message at `a`, with the position of the new memory in the payload. -/
def Factory.ioMessageAllocateBuffer (f : Factory) (a : Address) (size : ℕ) (memory : List (Option ℕ))
    (moved : Option ℕ) : Factory × Except PrxError ℕ :=
  if size = 0 then (f,.ok 0)
  else
    match f.payload a with
    | none =>
      match f.buffers.prxBufferNew size memory moved with
      | (buffers,none) => ({ f with buffers },.error .outOfMemory)
      | (buffers,some b) => ({ f with buffers, payload := Function.update f.payload a (some b) },.ok 0)
    | some b =>
      let currentSize := f.buffers.length b
      match f.buffers.setSize b ((currentSize + size) % 2 ^ 64) moved with
      | (buffers,.error e) => ({ f with buffers },.error e)
      | (buffers,.ok b) => ({ f with buffers, payload := Function.update f.payload a (some b) },.ok currentSize)

def Factory.ioMessageRelease (f : Factory) (a : Address) : Factory :=
  let f :=
    match f.payload a with
    | none => f
    | some b => { f with buffers := f.buffers.freeBuffer b }
  { f with messages := f.messages.freeBuffer a }

inductive MessageCall where
  | create (memory : List (Option ℕ))
  | clone (a : Address)
  | allocate (a : Address) (size : ℕ) (memory : List (Option ℕ)) (moved : Option ℕ)
  | release (a : Address)

def Factory.freshMemory (f : Factory) (a : Address) (memory : List (Option ℕ)) (moved : Option ℕ) : Bool :=
  match f.payload a with
  | some b => freshMove f.buffers.buffers b moved
  | none => f.buffers.freshNew memory moved
def Factory.step (f : Factory) : MessageCall → Option Factory
  | .create memory => if freshFor f.messages.buffers memory then some (f.ioMessageCreateEmpty memory).1 else none
  | .clone a => if a ∈ f.messages.checkedOut then some (f.ioMessageClone a) else none
  | .allocate a size memory moved =>
    if a ∈ f.messages.checkedOut ∧ f.freshMemory a memory moved then
      some (f.ioMessageAllocateBuffer a size memory moved).1
    else none
  | .release a => if a ∈ f.messages.checkedOut then some (f.ioMessageRelease a) else none

variable {f f' : Factory} {a : Address} {size : ℕ} {memory : List (Option ℕ)} {moved : Option ℕ}

structure Factory.Valid (f : Factory) : Prop where
  messages : f.messages.Valid
  buffers : f.buffers.Valid
  shares : Shares f.messages.refs f.buffers.refs f.payload

open Factory

lemma create_valid (hf : f.Valid) (fresh : freshFor f.messages.buffers memory) :
    (f.ioMessageCreateEmpty memory).1.Valid := by
  unfold ioMessageCreateEmpty
  rcases allocBuffer_spec hf.messages fresh with halloc | ⟨messages,out,halloc,hvalid,hzero,hrefs⟩
  · rw [halloc]
    exact hf
  · rw [halloc]
    refine ⟨hvalid,hf.buffers,?_⟩
    have hbare := (hf.shares.refer_dead hzero none).count_bare (update_self _ _ _) 1
    rwa [hrefs]

lemma clone_valid (hf : f.Valid) (live : a ∈ f.messages.checkedOut) : (f.ioMessageClone a).Valid := by
  have hlive := (hf.messages.refs a).1 live
  have hmessages := addRef_valid hf.messages live
  unfold ioMessageClone
  dsimp only
  cases hpayload : f.payload a with
  | none => exact ⟨hmessages,hf.buffers,hf.shares.count_bare hpayload _⟩
  | some b =>
    have heq := hf.shares.owned_eq hlive hpayload
    have hbuffers := addRef_valid hf.buffers ((hf.buffers.refs b).2 (heq ▸ hlive))
    refine ⟨hmessages,hbuffers,?_⟩
    have hboth := hf.shares.count_both hlive hpayload (f.messages.refs a + 1)
    change Shares (update _ a (f.messages.refs a + 1)) (update _ b (f.buffers.refs b + 1)) _
    rwa [heq]

lemma release_valid (hf : f.Valid) (live : a ∈ f.messages.checkedOut) : (f.ioMessageRelease a).Valid := by
  have hlive := (hf.messages.refs a).1 live
  obtain ⟨hmessages,hrefs⟩ := freeBuffer_spec hf.messages hlive
  unfold ioMessageRelease
  cases hpayload : f.payload a with
  | none =>
    refine ⟨hmessages,hf.buffers,?_⟩
    have hbare := hf.shares.count_bare hpayload (f.messages.refs a - 1)
    rwa [hrefs]
  | some =>
    have heq := hf.shares.owned_eq hlive hpayload
    obtain ⟨hbuffers,hrefs'⟩ := freeBuffer_spec hf.buffers (heq ▸ hlive)
    refine ⟨hmessages,hbuffers,?_⟩
    have hboth := hf.shares.count_both hlive hpayload (f.messages.refs a - 1)
    rwa [hrefs,hrefs',heq]

/-- The call does not allocate the first payload of a message with several references. -/
def Factory.allocatesSole (f : Factory) : MessageCall → Bool
  | .allocate a size _ _ => size ≠ 0 → f.payload a = none → f.messages.refs a = 1
  | _ => true

lemma allocate_valid (hf : f.Valid) (live : a ∈ f.messages.checkedOut) (fresh : f.freshMemory a memory moved)
    (sole : size ≠ 0 → f.payload a = none → f.messages.refs a = 1) :
    (f.ioMessageAllocateBuffer a size memory moved).1.Valid := by
  have hlive := (hf.messages.refs a).1 live
  unfold ioMessageAllocateBuffer
  by_cases hsize : size = 0
  · rw [if_pos hsize]
    exact hf
  rw [if_neg hsize]
  cases hpayload : f.payload a with
  | none =>
    simp only [freshMemory,hpayload] at fresh
    rcases prxBufferNew_spec size hf.buffers fresh with ⟨p',hnew,hvalid,hrefs⟩ | ⟨p',b,hnew,hvalid,hzero,hrefs⟩
    · rw [hnew]
      refine ⟨hf.messages,hvalid,?_⟩
      rw [hrefs]
      exact hf.shares
    · rw [hnew]
      refine ⟨hf.messages,hvalid,?_⟩
      have hattach := hf.shares.attach hlive hpayload hzero
      rwa [hrefs,← sole hsize hpayload]
  | some b =>
    simp only [freshMemory,hpayload] at fresh
    have heq := hf.shares.owned_eq hlive hpayload
    dsimp only
    rcases setSize_spec ((f.buffers.length b + size) % 2 ^ 64) hf.buffers (heq ▸ hlive) fresh with
      ⟨p',e,hset,hvalid,hrefs⟩ | ⟨p',buf,hset,hvalid,hbuf,hrefs⟩
    · rw [hset]
      refine ⟨hf.messages,hvalid,?_⟩
      rw [hrefs]
      exact hf.shares
    · rw [hset]
      refine ⟨hf.messages,hvalid,?_⟩
      have hreplace := hf.shares.replace hlive hpayload hbuf
      rwa [hrefs]

lemma step_factoryValid {call} (hf : f.Valid) (sole : f.allocatesSole call) (h : f.step call = some f') : f'.Valid := by
  cases call with
  | create =>
    obtain ⟨fresh,⟨⟩⟩ := Option.ite_none_right_eq_some.1 h
    exact create_valid hf fresh
  | clone =>
    obtain ⟨live,⟨⟩⟩ := Option.ite_none_right_eq_some.1 h
    exact clone_valid hf live
  | allocate =>
    obtain ⟨⟨live,fresh⟩,⟨⟩⟩ := Option.ite_none_right_eq_some.1 h
    simp only [allocatesSole,decide_eq_true_eq] at sole
    exact allocate_valid hf live fresh sole
  | release =>
    obtain ⟨live,⟨⟩⟩ := Option.ite_none_right_eq_some.1 h
    exact release_valid hf live

lemma factoryCreate_valid {config messageSize messages buffers}
    (freshMessages : freshFor [] messages) (freshBuffers : freshFor [] buffers)
    (created : ioMessageFactoryCreate config messageSize messages buffers = some f) : f.Valid := by
  unfold ioMessageFactoryCreate at created
  split at created
  · next hp hq =>
    cases created
    obtain ⟨hmessages,_,_,_,hrefs⟩ := poolCreate_eq freshMessages hp
    obtain ⟨hbuffers,_,_,_,hrefs'⟩ := poolCreate_eq freshBuffers hq
    refine ⟨hmessages,hbuffers,nofun,fun {b} used => ?_,nofun⟩
    have hzero := hrefs' b
    dsimp only at used
    omega
  · cases created

def Factory.PayloadsKept (f : Factory) : Prop :=
  f.buffers.Valid ∧ ∀ b, b ∈ f.buffers.checkedOut ↔ ∃ a ∈ f.messages.checkedOut, f.payload a = some b

/-- A release returns the payload to its pool exactly if it releases the last reference to the message. -/
def Factory.returnsWithLast (f : Factory) : MessageCall → Prop
  | .release a => a ∈ f.messages.checkedOut → ∀ b, f.payload a = some b →
      (b ∈ (f.ioMessageRelease a).buffers.freeList ↔ f.messages.refs a = 1)
  | _ => True

lemma Factory.Valid.payloadsKept (hf : f.Valid) : f.PayloadsKept := by
  refine ⟨hf.buffers,fun b => ?_⟩
  rw [hf.buffers.refs,hf.shares.owned_iff]
  simp [hf.messages.refs]

lemma Factory.Valid.returnsWithLast (hf : f.Valid) (call : MessageCall) : f.returnsWithLast call := by
  cases call with
  | release a =>
    intro live b hpayload
    have hlive := (hf.messages.refs a).1 live
    have heq := hf.shares.owned_eq hlive hpayload
    simp only [ioMessageRelease,hpayload]
    by_cases last : f.messages.refs a = 1
    · rw [freeBuffer_last (heq.trans last)]
      exact iff_of_true (List.mem_append_right _ List.mem_cons_self) last
    · rw [freeBuffer_more (by omega)]
      have hout := (hf.buffers.refs b).2 (heq ▸ hlive)
      exact iff_of_false (fun hfree => hf.buffers.not_checkedOut hfree hout) last
  | _ => trivial

/-- If the first payload of a message is allocated while the message has one reference, then payloads are in use
exactly while a live message refers to them. -/
theorem payloadsKept_of_allocatesSole (config : PoolConfig) (messageSize : ℕ) (messages buffers : List (Option ℕ))
    (freshMessages : freshFor [] messages) (freshBuffers : freshFor [] buffers)
    (created : ioMessageFactoryCreate config messageSize messages buffers = some f) {calls : List MessageCall}
    (sole : Along Factory.step (fun f call => f.allocatesSole call) f calls) :
    Always Factory.step Factory.PayloadsKept f calls ∧ Along Factory.step Factory.returnsWithLast f calls := by
  have hf := factoryCreate_valid freshMessages freshBuffers created
  constructor
  · exact always_of_along step_factoryValid Valid.payloadsKept hf sole
  · exact .of_invariant step_factoryValid (fun hf _ => hf.returnsWithLast _) hf sole

def fourMessages : Option Factory :=
  ioMessageFactoryCreate (messagesConfig 4 1 3 true) 64 [some 0] [some 0]

/-- A message gets a payload, is cloned, grows its payload, and is released twice. -/
theorem clonedAfter_payloadsKept : ∃ f, fourMessages = some f ∧
    let calls := [.create [],.allocate ⟨0,0⟩ 8 [] (some 0),.clone ⟨0,0⟩,.allocate ⟨0,0⟩ 8 [] (some 7),.release ⟨0,0⟩,
      .release ⟨0,0⟩]
    (run Factory.step f calls).map (fun f => (f.messages.checkedOut,f.buffers.freeList)) = some ([],[⟨7,0⟩]) ∧
    Always Factory.step Factory.PayloadsKept f calls ∧ Along Factory.step Factory.returnsWithLast f calls :=
  ⟨_,rfl,by decide,payloadsKept_of_allocatesSole (messagesConfig 4 1 3 true) 64 [some 0] [some 0] (by decide)
    (by decide) rfl (by decide)⟩

/-- A payload that is allocated after the message was cloned is returned by the first release. -/
theorem clonedBefore_not_payloadsKept : ∃ f₀ f, fourMessages = some f₀ ∧
    Runs Factory.step f₀ [.create [],.clone ⟨0,0⟩,.allocate ⟨0,0⟩ 8 [] (some 0),.release ⟨0,0⟩] f ∧
    f.messages.checkedOut = [⟨0,0⟩] ∧ f.payload ⟨0,0⟩ = some ⟨0,0⟩ ∧ f.buffers.freeList = [⟨0,0⟩] ∧
    f.buffers.checkedOut = [] ∧ ¬f.PayloadsKept := by
  refine ⟨_,_,rfl,runs_of_run rfl,rfl,rfl,rfl,rfl,fun kept => ?_⟩
  cases (kept.2 ⟨0,0⟩).2 ⟨⟨0,0⟩,List.mem_cons_self,rfl⟩

end EdgeProxy.Buffer
