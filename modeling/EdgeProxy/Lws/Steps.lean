import EdgeProxy.Lib.Transition
import EdgeProxy.Lws.Client

/-! # What a step of the client over libwebsockets can do -/
namespace EdgeProxy.Lws
open Base Option Lws.Client
open Ws (BufferType)

variable {c d : Client} {label : Label}

structure ReceiveSide where
  recvBuffer : List UInt8
  recvFlags : WriteFlags
  handed : List (List UInt8 × BufferType)
  received : List Delivery

def Client.receiveSide (c : Client) : ReceiveSide :=
  ⟨c.recvBuffer,c.recvFlags,c.handed,c.received⟩

structure SendSide where
  sendBuffer : List UInt8
  sendBufferSize : ℕ
  sendBufferOffset : ℕ
  sendFlags : WriteFlags
  origin : Option ℕ
  supplied : List ℕ
  ended : List (ℕ × Option PrxError)
  written : List Written

def Client.sendSide (c : Client) : SendSide :=
  ⟨c.sendBuffer,c.sendBufferSize,c.sendBufferOffset,c.sendFlags,c.origin,c.supplied,c.ended,c.written⟩

structure Client.KeepsSending (c d : Client) : Prop where
  sendSide : d.sendSide = c.sendSide
  established : d.established → c.established ∧ d.connections = c.connections
  connections : c.connections ≤ d.connections

lemma Client.KeepsSending.same (hsend : d.sendSide = c.sendSide) (hestablished : d.established = c.established)
    (hconnections : d.connections = c.connections) : c.KeepsSending d :=
  ⟨hsend,fun h => ⟨hestablished.symm.trans h,hconnections⟩,Nat.le_of_eq hconnections.symm⟩

structure Client.Attends (c d : Client) : Prop extends c.KeepsSending d where
  receiveSide : d.receiveSide = c.receiveSide

lemma Client.Attends.refl (c : Client) : c.Attends c :=
  ⟨.same rfl rfl rfl,rfl⟩
lemma Client.Attends.ends (hreceive : d.receiveSide = c.receiveSide) (hsend : d.sendSide = c.sendSide)
    (hestablished : d.established = false) (hconnections : c.connections ≤ d.connections) : c.Attends d :=
  ⟨⟨hsend,fun h => Bool.noConfusion (hestablished.symm.trans h),hconnections⟩,hreceive⟩

lemma requestClose_attends (writable : Bool) : c.Attends (c.requestClose writable) := by
  unfold requestClose
  split
  · exact .ends rfl rfl rfl (Nat.le_refl _)
  · exact .refl c

lemma settle_attends (writable : Bool) : c.Attends (c.settle writable) := by
  have h := requestClose_attends (c := c) writable
  unfold settle
  dsimp only
  split
  · split
    · exact ⟨⟨h.sendSide,h.established,h.connections⟩,h.receiveSide⟩
    · exact h
  split
  · split
    · exact ⟨⟨h.sendSide,h.established,h.connections⟩,h.receiveSide⟩
    · exact h
  · exact .refl c

lemma service_attends (connects writable : Bool) : c.Attends (c.service connects writable) := by
  unfold service
  split
  · exact .ends rfl rfl rfl (Nat.le_succ _)
  split
  · have h := settle_attends (c := { c with
      connecting := false, disconnecting := true, lastError := some .connecting }) writable
    exact ⟨⟨h.sendSide,h.established,h.connections⟩,h.receiveSide⟩
  · exact settle_attends writable

inductive Client.Does (c : Client) : Label → Client → Prop
  | attends {label : Label} {d : Client} : (∀ delivery answers, label ≠ .receive delivery answers) → c.Attends d →
      c.Does label d
  | establishes {d : Client} : c.established = false → d.receiveSide = c.receiveSide → d.sendSide = c.sendSide →
      d.connections = c.connections → c.Does .established d
  | sends {supply : Option Supply} {memory resumed : Bool} {result : Option ℕ} : c.established →
      c.Does (.writable supply memory resumed result) (Client.orClose (c.onSend supply memory resumed result))
  | receives {delivery : Delivery} {answers : List Answer} {r : Client × Bool} :
      { c with received := c.received ++ [delivery] }.onReceive delivery answers = some r →
      c.Does (.receive delivery answers) (Client.orClose r)

lemma onConnect_eq : ∃ established connected disconnectReason reports,
    orClose { c with established := true }.onConnect =
      { c with established, connected, disconnectReason, reports } := by
  unfold onConnect
  split <;> exact ⟨_,_,_,_,rfl⟩

lemma does_of_step (h : c.step label = some d) : c.Does label d := by
  obtain ⟨-,h⟩ := ite_none_left_eq_some.1 h
  cases label with
  | connect =>
    cases h
    refine .attends nofun ?_
    unfold connect
    repeat' split
    all_goals exact ⟨.same rfl rfl rfl,rfl⟩
  | canSend | canRecv =>
    cases h
    exact .attends nofun ⟨.same rfl rfl rfl,rfl⟩
  | disconnect =>
    cases h
    refine .attends nofun ?_
    unfold disconnect
    split <;> exact ⟨.same rfl rfl rfl,rfl⟩
  | close =>
    cases h
    refine .attends nofun ?_
    unfold close
    split <;> exact ⟨.same rfl rfl rfl,rfl⟩
  | service connects writable =>
    obtain ⟨-,⟨⟩⟩ := ite_none_right_eq_some.1 h
    exact .attends nofun (service_attends connects writable)
  | established =>
    obtain ⟨⟨-,hnot⟩,⟨⟩⟩ := ite_none_right_eq_some.1 h
    obtain ⟨_,_,_,_,heq⟩ := onConnect_eq
    rw [heq]
    exact .establishes (by simpa using hnot) rfl rfl rfl
  | closed | destroyed =>
    obtain ⟨-,⟨⟩⟩ := ite_none_right_eq_some.1 h
    exact .attends nofun (.ends rfl rfl rfl (Nat.le_refl _))
  | writable =>
    obtain ⟨hestablished,⟨⟩⟩ := ite_none_right_eq_some.1 h
    exact .sends hestablished
  | receive =>
    obtain ⟨-,h⟩ := ite_none_right_eq_some.1 h
    obtain ⟨r,hreceive,rfl⟩ := map_eq_some_iff.1 h
    exact .receives hreceive

variable {r : Client × Bool} {answers : List Answer}

lemma orClose_keepsSending (h : c.KeepsSending r.1) : c.KeepsSending (orClose r) := by
  unfold orClose
  split
  · exact h
  · exact ⟨h.sendSide,nofun,h.connections⟩
lemma copyOut_eq {flags rest data} (h : c.copyOut flags answers data = some (d,rest)) :
    ∃ recvBuffer recvFlags canRecv handed, d = { c with recvBuffer, recvFlags, canRecv, handed } := by
  obtain ⟨copied,-,heq⟩ := map_eq_some_iff.1 h
  split at heq <;> cases heq <;> exact ⟨_,_,_,_,rfl⟩

lemma onReceive_eq {delivery} (h : c.onReceive delivery answers = some r) :
    ∃ recvBuffer recvFlags canRecv handed disconnectReason,
      r.1 = { c with recvBuffer, recvFlags, canRecv, handed, disconnectReason } := by
  unfold onReceive at h
  split at h
  · obtain ⟨-,⟨⟩⟩ := ite_none_right_eq_some.1 h
    exact ⟨_,_,_,_,_,rfl⟩
  obtain ⟨⟨d,rest⟩,hleft,h⟩ := bind_eq_some_iff.1 h
  obtain ⟨_,_,_,_,rfl⟩ : ∃ recvBuffer recvFlags canRecv handed,
      d = { c with recvBuffer, recvFlags, canRecv, handed } := by
    split at hleft
    · cases hleft
      exact ⟨_,_,_,_,rfl⟩
    · exact copyOut_eq (c := c.takeKept) hleft
  dsimp only at h
  split at h
  · obtain ⟨-,⟨⟩⟩ := ite_none_right_eq_some.1 h
    exact ⟨_,_,_,_,_,rfl⟩
  · obtain ⟨⟨e,rest⟩,hcopy,h⟩ := bind_eq_some_iff.1 h
    obtain ⟨-,⟨⟩⟩ := ite_none_right_eq_some.1 h
    obtain ⟨_,_,_,_,rfl⟩ := copyOut_eq hcopy
    exact ⟨_,_,_,_,_,rfl⟩

lemma receives_keepsSending {delivery}
    (h : { c with received := c.received ++ [delivery] }.onReceive delivery answers = some r) :
    c.KeepsSending (orClose r) := by
  obtain ⟨_,_,_,_,_,heq⟩ := onReceive_eq h
  apply orClose_keepsSending
  rw [heq]
  exact .same rfl rfl rfl
def connected : List Label :=
  [.connect .attached,.service true true,.established]

end EdgeProxy.Lws
