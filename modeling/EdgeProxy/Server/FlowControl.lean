import EdgeProxy.Buffer.Message
import EdgeProxy.Buffer.Capacity
import EdgeProxy.Server.Budget
import EdgeProxy.Server.Queues

/-! # Buffers of the receiver

The message for received data comes from one pool and its payload from another; a message without a payload is not
returned. The pool of the messages signals when it runs out, and the receiver pauses until it signals again.
-/
namespace EdgeProxy.Server
open Buffer List

/-- `prx_server_socket_on_begin_receive` with the memory for the two pools: the buffer, its size and the context of the
operation. -/
def onBeginReceive (f : Factory) (bufferSize : ℕ) (messages buffers : List (Option ℕ)) (moved : Option ℕ) :
    Factory × Option Address × ℕ × Option Address :=
  match f.ioMessageCreateEmpty messages with
  | (f,.error _) => (f,none,0,none)
  | (f,.ok message) =>
    match f.ioMessageAllocateBuffer message bufferSize buffers moved with
    | (f,.error _) => (f,none,0,none)
    | (f,.ok _) => (f,if bufferSize = 0 then none else f.payload message,bufferSize,some message)

def SameFree (f f' : Factory) : Prop :=
  f'.messages.freeList.length = f.messages.freeList.length ∧ f'.buffers.freeList.length = f.buffers.freeList.length

/-- The buffers that there is memory for when a pool grows. -/
def newBuffers (p : Pool) (memory : List (Option ℕ)) : ℕ :=
  match p.kind with
  | .dynamic => min p.growItems (memory.takeWhile Option.isSome).length
  | .fixed => if memory.head?.any Option.isSome then p.growItems else 0

/-- The buffers that a pool adds for an allocation, if that takes its last free one. -/
def grownBy (p : Pool) (memory : List (Option ℕ)) : ℕ :=
  if p.freeList.length = 1 then newBuffers p memory else 0

/-- There is a message, and memory for a payload in a buffer of its pool. -/
def Supplies (f : Factory) (bufferSize : ℕ) (moved : Option ℕ) : Prop :=
  f.messages.freeList ≠ [] ∧ bufferSize ≠ 0 ∧ f.buffers.freeList ≠ [] ∧ f.buffers.kind ≠ .fixed ∧ moved ≠ none

variable {p p' : Pool} {f : Factory} {bufferSize : ℕ} {memory messages buffers : List (Option ℕ)} {moved : Option ℕ}

lemma count_growDynamic (items : ℕ) (memory : List (Option ℕ)) (p : Pool) :
    (growDynamic items memory p).count = p.count + min items (memory.takeWhile Option.isSome).length := by
  induction items generalizing memory p with
  | zero => simp [growDynamic]
  | succ items ih =>
    rcases memory with _ | ⟨_ | block,memory⟩
    · simp [growDynamic]
    · simp [growDynamic]
    · rw [growDynamic,ih]
      simp [Pool.addBuffer]
      omega
lemma count_grow (p : Pool) (memory : List (Option ℕ)) : (p.grow memory).count = p.count + newBuffers p memory := by
  unfold Pool.grow newBuffers
  cases p.kind with
  | dynamic => exact count_growDynamic ..
  | fixed =>
    match memory with
    | [] | none :: _ => rfl
    | some block :: _ =>
      dsimp only
      rw [growFixed_eq,count_addBuffers]
      simp
lemma count_checkOut (p : Pool) (out : Address) : (p.checkOut out).count = p.count := by
  unfold Pool.checkOut
  dsimp only
  split <;> rfl
lemma count_allocBuffer (memory : List (Option ℕ)) {out rest} (hp : p.Valid) (hfree : p.freeList = out :: rest) :
    (p.allocBuffer memory).1.count = p.count + grownBy p memory := by
  have hcount : sizeSub p.freeCount 1 = rest.length := by
    rw [hp.freeCount,hfree]
    simp [sizeSub]
  rw [Pool.allocBuffer,hfree,grownBy,hfree]
  rw [count_checkOut,hcount,length_cons]
  simp only [Nat.add_eq_right]
  split
  · exact count_grow ..
  · rfl
lemma count_freeBuffer (p : Pool) (a : Address) : (p.freeBuffer a).count = p.count := by
  unfold Pool.freeBuffer
  dsimp only
  split
  · rfl
  · split <;> rfl

/-- A payload comes from a dynamic pool that is not empty, if it can be moved. -/
lemma prxBufferNew_cases (bufferSize : ℕ) (moved : Option ℕ) (hp : p.Valid) (fresh : freshFor p.buffers memory) :
    (p.prxBufferNew bufferSize memory moved).1.count = p.count + grownBy p memory ∧
      ((p.prxBufferNew bufferSize memory moved).2 = none ↔ p.freeList = [] ∨ p.kind = .fixed ∨ moved = none) := by
  cases hfree : p.freeList with
  | nil => simp [Pool.prxBufferNew,Pool.allocBuffer,hfree,grownBy]
  | cons out rest =>
    obtain ⟨added,halloc,-⟩ := allocBuffer_eq hp fresh hfree
    have hcount := count_allocBuffer memory hp hfree
    rw [← hcount,Pool.prxBufferNew,halloc]
    unfold Pool.setSize
    cases hkind : p.kind with
    | fixed => simp [Pool.handsOut,hkind,count_freeBuffer]
    | dynamic => cases moved <;> simp [Pool.handsOut,hkind,count_freeBuffer]
lemma checkedOut_length (hp : p.Valid) (hp' : p'.Valid) (h : p'.refs = p.refs) :
    p'.checkedOut.length = p.checkedOut.length := by
  have hperm : p'.checkedOut.Perm p.checkedOut := by
    rw [perm_ext_iff_of_nodup (nodup_append.1 hp'.nodup).2.1 (nodup_append.1 hp.nodup).2.1]
    intro a
    rw [hp'.refs,h,hp.refs]
  exact hperm.length_eq

lemma free_prxBufferNew (hp : p.Valid) (fresh : p.freshNew memory moved)
    (h : (p.prxBufferNew bufferSize memory moved).2 = none) :
    (p.prxBufferNew bufferSize memory moved).1.freeList.length = p.freeList.length + grownBy p memory := by
  have hfresh := (Bool.and_eq_true_iff.1 fresh).1
  have hcount := (prxBufferNew_cases bufferSize moved hp hfresh).1
  rcases prxBufferNew_spec bufferSize hp fresh with ⟨q,hnew,hq,hrefs⟩ | ⟨q,b,hnew,-⟩
  · simp only [hnew] at hcount ⊢
    have hout := checkedOut_length hp hq hrefs
    have hfree := hp.count
    have hfree' := hq.count
    omega
  · rw [hnew] at h
    cases h

/-- With a message, what is taken and whether a buffer is supplied. -/
theorem onBeginReceive_eq {out rest} (hm : f.messages.Valid) (fresh : freshFor f.messages.buffers messages)
    (hfree : f.messages.freeList = out :: rest) {f' buffer size context}
    (h : onBeginReceive f bufferSize messages buffers moved = (f',buffer,size,context)) :
    f'.messages.freeList.length = rest.length + grownBy f.messages messages ∧
      (bufferSize = 0 ∧ buffer = none ∧ f'.buffers = f.buffers ∨ bufferSize ≠ 0 ∧
        f'.buffers = (f.buffers.prxBufferNew bufferSize buffers moved).1 ∧
        (buffer = none ↔ (f.buffers.prxBufferNew bufferSize buffers moved).2 = none)) := by
  obtain ⟨added,halloc,-⟩ := allocBuffer_eq hm fresh hfree
  have hcount := count_allocBuffer messages hm hfree
  rw [halloc] at hcount
  have hadded : (rest ++ added).length = rest.length + grownBy f.messages messages := by
    simp only [Pool.handsOut] at hcount
    rw [length_append]
    omega
  simp only [onBeginReceive,Factory.ioMessageCreateEmpty,halloc,Factory.ioMessageAllocateBuffer,
    Function.update_self] at h
  by_cases hzero : bufferSize = 0
  · simp only [hzero] at h
    obtain ⟨rfl,rfl,-⟩ := h
    exact ⟨hadded,.inl ⟨hzero,rfl,rfl⟩⟩
  · rcases hnew : f.buffers.prxBufferNew bufferSize buffers moved with ⟨q,b⟩
    cases b <;> simp [hzero,hnew] at h
    all_goals
      obtain ⟨rfl,rfl,-⟩ := h
      exact ⟨hadded,.inr ⟨hzero,rfl,by simp⟩⟩

lemma onBeginReceive_nil (h : f.messages.freeList = []) :
    onBeginReceive f bufferSize messages buffers moved = (f,none,0,none) := by
  simp [onBeginReceive,Factory.ioMessageCreateEmpty,Pool.allocBuffer,h]

lemma payload_allocated {f' : Factory} {a n} (hsize : bufferSize ≠ 0)
    (h : f.ioMessageAllocateBuffer a bufferSize buffers moved = (f',.ok n)) : (f'.payload a).isSome := by
  rw [Factory.ioMessageAllocateBuffer,if_neg hsize] at h
  dsimp only at h
  split at h <;> split at h <;> cases h
  all_goals simp

/-- If the calls succeed when the pools do, the socket hands out a message exactly if there is a buffer. -/
lemma onBeginReceive_cell (c : Cell) (calls : Calls) (pool : c.socket.messagePool) :
    let r := onBeginReceive f c.socket.bufferSize.toNat messages buffers moved
    (calls.create = Base.erOk ∧ calls.allocate = Base.erOk ↔ r.2.2.2.isSome) →
      ((c.prxServerSocketOnBeginReceive calls).2.isSome ↔ r.2.1.isSome) := by
  intro r
  have hzero : c.socket.bufferSize = 0 ↔ c.socket.bufferSize.toNat = 0 := UInt64.toNat_inj.symm
  have hcell : (c.prxServerSocketOnBeginReceive calls).2.isSome ↔
      (calls.create = Base.erOk ∧ calls.allocate = Base.erOk) ∧ c.socket.bufferSize.toNat ≠ 0 := by
    unfold Cell.prxServerSocketOnBeginReceive
    dsimp only
    split_ifs <;> simp_all
    tauto
  intro supplied
  rw [hcell,supplied]
  simp only [r,onBeginReceive]
  split
  · simp
  · split
    · simp
    · next h =>
      by_cases hsize : c.socket.bufferSize.toNat = 0
      · simp [hsize]
      · simp [hsize,payload_allocated hsize h]

/-- Without a buffer for the receive, the pools are as before exactly if there was no message, or the pool of messages
grows by one and that of the payloads does not. -/
theorem sameFree_iff (hm : f.messages.Valid) (hb : f.buffers.Valid) (bufferSize : ℕ)
    (fresh : freshFor f.messages.buffers messages) (freshNew : f.buffers.freshNew buffers moved) :
    let r := onBeginReceive f bufferSize messages buffers moved
    (r.2.1 = none → SameFree f r.1) ↔ Supplies f bufferSize moved ∨ f.messages.freeList = [] ∨
      grownBy f.messages messages = 1 ∧ (bufferSize = 0 ∨ grownBy f.buffers buffers = 0) := by
  intro r
  cases hfree : f.messages.freeList with
  | nil =>
    have hr : r = (f,none,0,none) := onBeginReceive_nil hfree
    simp [hr,SameFree]
  | cons out rest =>
    have hfresh := (Bool.and_eq_true_iff.1 freshNew).1
    have hnone := (prxBufferNew_cases bufferSize moved hb hfresh).2
    rcases hr : r with ⟨f',buffer,size,context⟩
    obtain ⟨hmessages,⟨rfl,rfl,hbuffers⟩ | ⟨hzero,hbuffers,hbuffer⟩⟩ := onBeginReceive_eq hm fresh hfree hr
    · simp [SameFree,Supplies,hmessages,hbuffers,hfree]
    · cases buffer with
      | some =>
        refine iff_of_true nofun (.inl ?_)
        have hsupplied := mt hnone.2 (mt hbuffer.2 nofun)
        simpa [Supplies,hfree,hzero] using hsupplied
      | none =>
        have hrest := free_prxBufferNew hb freshNew (hbuffer.1 rfl)
        have hsupplied : ¬Supplies f bufferSize moved := by
          rintro ⟨-,-,hfree,hkind,hmoved⟩
          rcases hnone.1 (hbuffer.1 rfl) with hfree' | hkind' | hmoved'
          · exact hfree hfree'
          · exact hkind hkind'
          · exact hmoved hmoved'
        simp only [SameFree,hmessages,hbuffers,hrest,hfree,hsupplied,hzero,length_cons,forall_const,false_or,
          reduceCtorEq]
        omega

theorem firstReceive_sameFree : ∃ f, fourMessages = some f ∧ Supplies f 64 (some 0) ∧
    let r := onBeginReceive f 64 [] [] (some 0)
    r.2.1 = some ⟨0,0⟩ ∧ (r.2.1 = none → SameFree f r.1) := by
  have valid (f : Factory) (h : fourMessages = some f) : f.Valid := factoryCreate_valid (by decide) (by decide) h
  have hsupplies (f : Factory) (h : fourMessages = some f) : Supplies f 64 (some 0) := by
    cases h
    exact ⟨nofun,nofun,nofun,nofun,nofun⟩
  refine ⟨_,rfl,hsupplies _ rfl,rfl,?_⟩
  have h := valid _ rfl
  exact (sameFree_iff h.messages h.buffers 64 (by decide) (by decide)).2 (.inl (hsupplies _ rfl))

/-- The message is taken for a payload that cannot be allocated. -/
theorem noPayload_not_sameFree : ∃ f, fourMessages = some f ∧ let r := onBeginReceive f 65536 [] [] none
    r.2.1 = none ∧ ¬SameFree f r.1 := by
  unfold SameFree
  decide

open Lib

def recvPoolLwm : UInt64 := 1
def recvPoolHwm : UInt64 := 1

/-- The pools of the program: the messages that a socket receives, for the pool size that the handler of the open
request asserts, and all others, which have no callback. -/
inductive ProxyPool where
  | received (poolSize : UInt64) (set : recvPoolMin ≤ poolSize)
  | other (kind : PoolKind) (config : Option PoolConfig) (silent : (PoolConfig.init config).cb = false)

/-- The response to a link request sets such a size. -/
lemma min_le_poolSizeFor (n : UInt64) : recvPoolMin ≤ poolSizeFor n := by
  unfold poolSizeFor
  split_ifs with h
  · decide
  · exact UInt64.not_lt.1 h

def ProxyPool.kind : ProxyPool → PoolKind
  | .received _ _ => .fixed
  | .other kind _ _ => kind
def ProxyPool.config : ProxyPool → Option PoolConfig
  | .received poolSize _ => some (messagesConfig poolSize recvPoolLwm (poolSize - recvPoolHwm) true)
  | .other _ config _ => config

lemma init_received {poolSize} (set : recvPoolMin ≤ poolSize) :
    PoolConfig.init (ProxyPool.received poolSize set).config =
      ⟨poolSize.toNat,poolSize.toNat,1,poolSize.toNat - 1,true⟩ ∧ 4 ≤ poolSize.toNat := by
  have hmin : 4 ≤ poolSize.toNat := UInt64.le_iff_toNat_le.1 set
  have hhigh : (poolSize - recvPoolHwm).toNat = poolSize.toNat - 1 :=
    UInt64.toNat_sub_of_le _ _ (UInt64.le_iff_toNat_le.2 (Nat.le_trans (by decide) hmin))
  refine ⟨?_,hmin⟩
  have hinitial : poolSize.toNat ≠ 0 := by omega
  have hlow : ¬recvPoolLwm.toNat > poolSize.toNat - 1 := by
    change ¬1 > poolSize.toNat - 1
    omega
  have hmax : ¬(poolSize.toNat ≠ 0 ∧ poolSize.toNat - 1 > poolSize.toNat) := by omega
  simp only [PoolConfig.init,ProxyPool.config,messagesConfig,Option.getD_some,hhigh,hinitial,hlow,hmax,↓reduceIte]
  rfl

/-- `prx_server_socket_flow_control`: whether the socket may receive after a signal of its pool. -/
def prxServerSocketFlowControl (state : SocketState) (lowMem receives : Bool) : Bool :=
  if state = .opened then !lowMem else receives

def receivesAfter (signals : List Bool) : Bool :=
  signals.foldl (fun receives lowMem => prxServerSocketFlowControl .opened lowMem receives) true
lemma receivesAfter_iff (signals : List Bool) : receivesAfter signals ↔ signals.getLast? ≠ some true := by
  induction signals using List.reverseRecOn with
  | nil => decide
  | append_singleton signals low =>
    rw [receivesAfter,List.foldl_append,List.getLast?_concat]
    change (!low) ↔ some low ≠ some true
    cases low <;> decide

/-- The signals of the pool alternate, starting with low memory. The receiver is paused exactly after one of low memory,
and when all buffers are back, the last one is not. -/
def Resumed (s : Lease) : Prop :=
  Alternates s.pool.signals ∧ (receivesAfter s.pool.signals ↔ s.pool.signals.getLast? ≠ some true) ∧
    (s.pool.checkedOut = [] → s.pool.signals.getLast? ≠ some true ∧ receivesAfter s.pool.signals)

structure Flowing (s : Lease) : Prop where
  valid : s.Valid
  signals : s.pool.Signals
  full : s.pool.config.cb → s.pool.Full

variable {s t : Lease}

lemma Flowing.resumed (hs : Flowing s) : Resumed s := by
  refine ⟨hs.signals.alternates,receivesAfter_iff _,fun back => ?_⟩
  have hlast : s.pool.signals.getLast? ≠ some true := by
    cases hcb : s.pool.config.cb with
    | false =>
      rw [hs.signals.silent hcb]
      nofun
    | true =>
      rw [ne_eq,hs.signals.last hcb,(hs.full hcb).not_empty hs.valid.pool back]
      nofun
  exact ⟨hlast,(receivesAfter_iff _).2 hlast⟩
lemma step_flowing {call} (hs : Flowing s) (h : s.step call = some t) : Flowing t := by
  have hdoes := does_of_step hs.valid h
  refine ⟨hdoes.valid hs.valid,hdoes.signals hs.signals,fun hcb => ?_⟩
  rw [hdoes.config] at hcb
  exact hdoes.full (hs.full hcb) hs.valid

lemma flowing_of_create {pool : ProxyPool} {itemSize memory p} (fresh : freshFor [] memory)
    (created : poolCreate pool.kind pool.config itemSize memory = some p) : Flowing ⟨p,[]⟩ := by
  obtain ⟨hp,hconfig,hempty,hsignals,hrefs⟩ := poolCreate_eq fresh created
  refine ⟨⟨hp,fun a => (hrefs a).trans List.count_nil.symm⟩,⟨?_,fun _ => ?_,fun _ => hsignals⟩,fun hcb => ?_⟩
  · rw [hsignals]
    exact alternates_nil
  · simp [hsignals,hempty]
  · cases pool with
    | other kind config silent =>
      rw [hconfig] at hcb
      cases silent.symm.trans hcb
    | received poolSize set =>
      obtain ⟨hinit,hmin⟩ := init_received set
      have hcount := count_poolCreate_fixed created
      rw [hinit] at hconfig hcount
      have hmax : poolSize.toNat ≠ 0 := by omega
      have hcount : p.count = poolSize.toNat := (hcount hmax).trans (Nat.min_self _)
      refine ⟨?_,?_,?_,?_,fun h => absurd (hempty.symm.trans h) nofun⟩
      all_goals
        rw [hconfig]
        dsimp only
        omega

/-- Every pool of the program signals low and high memory in turn, and a receiver that was paused is resumed. -/
theorem signals_resumed (pool : ProxyPool) (itemSize : ℕ) (memory : List (Option ℕ)) {p : Pool}
    (fresh : freshFor [] memory) (created : poolCreate pool.kind pool.config itemSize memory = some p)
    (calls : List PoolCall) : Always Lease.step Resumed ⟨p,[]⟩ calls :=
  always_of_along (fun hs _ ht => step_flowing hs ht) Flowing.resumed (flowing_of_create fresh created) along_true

/-- Four messages are received and sent, with both signals. -/
theorem fourMessages_resumed : ∃ p, poolCreate .fixed (ProxyPool.received 4 (by decide)).config 16 [some 0] = some p ∧
    let calls := [.alloc [],.alloc [],.alloc [],.alloc [],.release ⟨0,1⟩,.release ⟨0,0⟩,.release ⟨0,3⟩,.release ⟨0,2⟩]
    (run Lease.step ⟨p,[]⟩ calls).map (fun s => (s.pool.signals,s.pool.checkedOut)) = some ([true,false],[]) ∧
    Always Lease.step Resumed ⟨p,[]⟩ calls :=
  ⟨_,rfl,by decide,signals_resumed (.received 4 (by decide)) 16 [some 0] (by decide) rfl _⟩

end EdgeProxy.Server
