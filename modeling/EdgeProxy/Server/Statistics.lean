import Mathlib.Algebra.Group.Nat.Defs
import Mathlib.Algebra.Group.Int.Defs
import EdgeProxy.Server.Steps

/-! # The statistics of a close response

A close response reports how many bytes the socket received and sent. No function updates the count of sent bytes.
-/
namespace EdgeProxy.Server
open Base Codec Lib Cell Option

def validTransfer (os : Pal.OsResult) : Bool :=
  -1 ≤ os.ret.toInt ∧ os.ret.toInt < 2 ^ 31 ∧ (os.ret.toInt = -1 → os.error ≠ erOk)

/-- The number of bytes that a receive got from the operating system: the event was readiness, and neither the system
call nor the conversion of the source address failed. -/
def receivedCount (result : Int32) (os : Pal.OsResult) (converted : Int32) : ℕ :=
  if result = erOk ∧ converted = erOk then os.ret.toInt.toNat else 0

def Cell.receivedNow (c : Cell) (event : Event) : ℕ :=
  match event, c.portThread with
  | .endReceive os converted _ _, .receiving _ result => receivedCount result os converted
  | _, _ => 0
def Cell.sentNow (c : Cell) (event : Event) : ℕ :=
  match event, c.portThread with
  | .endSend prepared os, .sending message => (acceptedBytes prepared os message.payload).length
  | _, _ => 0

structure Counted where
  cell : Cell
  received : ℕ
  sent : ℕ

def Counted.step (s : Counted) (label : Label) : Option Counted :=
  (s.cell.step label).map fun c => ⟨c,s.received + s.cell.receivedNow label.1,s.sent + s.cell.sentNow label.1⟩

variable {os : Pal.OsResult}

lemma toInt_toInt32 (valid : validTransfer os) : os.ret.toInt32.toInt = os.ret.toInt := by
  simp only [validTransfer,decide_eq_true_eq] at valid
  rw [Int64.toInt_toInt32]
  exact Int.bmod_eq_of_le (by omega) (by omega)
lemma toNat_toUInt64 {x : Int32} (h : 0 ≤ x.toInt) : x.toInt64.toUInt64.toNat = x.toInt.toNat := by
  have hwide : x.toInt64.toBitVec.toInt = x.toInt := Int32.toInt_toInt64 x
  change x.toInt64.toBitVec.toNat = x.toInt.toNat
  rw [BitVec.toInt_eq_toNat_cond] at hwide
  omega

lemma recvFinish_spec (result converted : Int32) (bufLen : UInt64) (valid : validTransfer os) :
    (Pal.palSocketOnRecvFinish result bufLen os converted).2.toNat = receivedCount result os converted ∧
      ((Pal.palSocketOnRecvFinish result bufLen os converted).1 ≠ erOk → receivedCount result os converted = 0) := by
  have hret := toInt_toInt32 valid
  simp only [validTransfer,decide_eq_true_eq] at valid
  unfold Pal.palSocketOnRecvFinish Pal.transferResult receivedCount
  by_cases ready : result = erOk
  · rw [if_neg (not_not_intro ready)]
    by_cases failed : os.ret.toInt32 < 0
    · have hneg : os.ret.toInt = -1 := by
        have hlt : os.ret.toInt32.toInt < 0 := Int32.lt_iff_toInt_lt.1 failed
        omega
      rw [if_pos failed,if_neg (valid.2.2 hneg),hneg]
      simp
    · rw [if_neg failed]
      by_cases conv : converted = erOk
      · rw [if_neg (not_not_intro conv),if_pos ⟨ready,conv⟩]
        refine ⟨?_,fun h => absurd rfl h⟩
        have hpos : 0 ≤ os.ret.toInt32.toInt := Int32.le_iff_toInt_le.1 (Int32.not_lt.1 failed)
        rw [toNat_toUInt64 hpos,hret]
      · rw [if_pos conv,if_neg fun h => conv h.2]
        exact ⟨rfl,fun _ => rfl⟩
  · rw [if_pos ready,if_neg fun h => ready h.1]
    exact ⟨rfl,fun _ => rfl⟩

variable {c c' : Cell} {event : Event} {calls : Calls}

lemma bytesRecvd_endReceive {os converted data addr}
    (valid : validTransfer os) (h : c.endReceive os converted data addr calls = some c') :
    c'.socket.bytesRecvd = c.socket.bytesRecvd + .ofNat (c.receivedNow (.endReceive os converted data addr)) := by
  unfold endReceive at h
  split at h
  · next result receiving =>
    dsimp only at h
    obtain ⟨hdata,h⟩ := ite_none_right_eq_some.1 h
    obtain ⟨hsize,hfailed⟩ := recvFinish_spec result converted c.socket.bufferSize valid
    have hnow : c.receivedNow (.endReceive os converted data addr) = receivedCount result os converted := by
      simp [receivedNow,receiving]
    rw [← some.inj h,hnow]
    unfold prxServerSocketOnEndReceive
    split
    · next dropped =>
      have hnone := hfailed (by rcases dropped with h | h <;> rw [h] <;> decide)
      rw [hnone]
      exact (UInt64.add_zero _).symm
    · change c.socket.bytesRecvd + .ofNat data.length = _
      rw [hdata,hsize]
  · cases h

lemma responses_close {message} (type : messageType message.type = some .close)
    (h : c.step (.received false message,calls) = some c') :
    ∃ response : Message, c'.history.responses = c.history.responses ++ [response] ∧
      response.content.closeResponse.bytesReceived = c.socket.bytesRecvd ∧
      response.content.closeResponse.bytesSent = c.socket.bytesSent := by
  rw [handled_of_step h]
  simp only [Bool.false_eq_true,↓reduceIte,prxServerSocketControlHandler,type]
  unfold prxServerSocketHandleCloserequest
  dsimp only
  split <;> exact ⟨_,rfl,rfl,rfl⟩

structure Counted.Counts (s : Counted) : Prop where
  received : s.cell.socket.bytesRecvd = .ofNat s.received
  sent : s.cell.socket.bytesSent = 0

def validLabel (label : Label) : Bool :=
  match label.1 with
  | .endReceive os _ _ _ => validTransfer os
  | _ => true
lemma Counted.step_counts {s t : Counted} {label} (hs : s.Counts) (valid : validLabel label)
    (h : s.step label = some t) : t.Counts := by
  obtain ⟨event,calls⟩ := label
  obtain ⟨c,hstep,rfl⟩ := map_eq_some_iff.1 h
  obtain ⟨live,takes⟩ := takes_of_step hstep
  refine ⟨?_,takes.frame.bytesSent.trans hs.sent⟩
  cases event with
  | endReceive =>
    obtain ⟨_,hstep⟩ := ite_none_left_eq_some.1 hstep
    rw [bytesRecvd_endReceive valid hstep,hs.received,UInt64.ofNat_add]
  | _ => exact (takes.frame.bytesRecvd.resolve_right nofun).trans hs.received

/-- A close request is answered with the numbers of bytes received and sent so far. -/
def Counted.Reports (s : Counted) (label : Label) : Prop :=
  ∀ message t, label.1 = .received false message → messageType message.type = some .close → s.step label = some t →
    ∃ response : Message, t.cell.history.responses = s.cell.history.responses ++ [response] ∧
      response.content.closeResponse.bytesReceived.toNat = s.received ∧
      response.content.closeResponse.bytesSent.toNat = s.sent

/-- When a close request arrives, nothing was sent, and the received bytes can be counted in 64 bits. -/
def Counted.sentNone (s : Counted) (label : Label) : Bool :=
  match label.1 with
  | .received false message =>
    messageType message.type = some .close → (s.step label).isSome → s.sent = 0 ∧ s.received < 2 ^ 64
  | _ => true

lemma Counted.Counts.reports_iff {s : Counted} {label} (hs : s.Counts) : s.Reports label ↔ s.sentNone label := by
  obtain ⟨event,calls⟩ := label
  have hcounts {message : Message} {t : Counted} (type : messageType message.type = some .close)
      (h : s.step (.received false message,calls) = some t) :
      ∃ response : Message, t.cell.history.responses = s.cell.history.responses ++ [response] ∧
        response.content.closeResponse.bytesReceived.toNat = s.received % 2 ^ 64 ∧
        response.content.closeResponse.bytesSent.toNat = 0 := by
    obtain ⟨c,hstep,rfl⟩ := map_eq_some_iff.1 h
    obtain ⟨response,happend,hreceived,hsent⟩ := responses_close type hstep
    refine ⟨response,happend,?_,?_⟩
    · rw [hreceived,hs.received,UInt64.toNat_ofNat']
    · rw [hsent,hs.sent]
      rfl
  constructor
  · intro reports
    unfold Counted.sentNone
    split
    · next message hevent =>
      subst hevent
      simp only [decide_eq_true_eq]
      intro type possible
      obtain ⟨t,h⟩ := isSome_iff_exists.1 possible
      obtain ⟨response,happend,hreceived,hsent⟩ := hcounts type h
      obtain ⟨response',happend',hreceived',hsent'⟩ := reports message t rfl type h
      have hsame : response' = response := by simpa using happend'.symm.trans happend
      rw [hsame] at hreceived' hsent'
      omega
    · rfl
  · rintro none message t rfl type h
    obtain ⟨response,happend,hreceived,hsent⟩ := hcounts type h
    simp only [Counted.sentNone,type,h,isSome_some,decide_eq_true_eq,forall_const] at none
    exact ⟨response,happend,by omega,by omega⟩

lemma Born.counts {c} (h : Born c) : Counted.Counts ⟨c,0,0⟩ :=
  ⟨h.initial.bytesRecvd,h.initial.bytesSent⟩

/-- Close responses report the bytes received and sent exactly if no close request comes after bytes were sent, or
after 2⁶⁴ bytes were received. -/
theorem reports_iff_sentNone {c₀ : Cell} {labels : List Label} (born : Born c₀)
    (valid : Along Counted.step (fun _ label => validLabel label) ⟨c₀,0,0⟩ labels) :
    Along Counted.step Counted.Reports ⟨c₀,0,0⟩ labels ↔
      Along Counted.step (fun s label => s.sentNone label) ⟨c₀,0,0⟩ labels := by
  constructor
  · intro reports
    exact .of_invariant (fun hs hc => Counted.step_counts hs hc.1)
      (fun hs hc => hs.reports_iff.1 hc.2) born.counts (valid.and reports)
  · intro none
    exact .of_invariant (fun hs hc => Counted.step_counts hs hc.1)
      (fun hs hc => hs.reports_iff.2 hc.2) born.counts (valid.and none)

def receivesTwo : List Label :=
  linkDone ++ [(.received false openPolled,.succeed 1),(.beginReceive erOk,.succeed 2),
    (.endReceive ⟨2,erOk⟩ erOk [7,8] none,.succeed 2),(.received false (.request .close),.succeed 3)]
theorem receivesTwo_reports :
    (∃ s, run Counted.step ⟨linkedStream,0,0⟩ receivesTwo = some s ∧ s.received = 2) ∧
      Along Counted.step Counted.Reports ⟨linkedStream,0,0⟩ receivesTwo :=
  ⟨⟨_,rfl,rfl⟩,(reports_iff_sentNone born_linkedStream (by decide)).2 (by decide)⟩
def sendsThree : List Label :=
  linkDone ++ [(.received false openPolled,.succeed 1),
    (.received false { Message.request .data with content.dataMessage.buffer := some [1,2,3] },.succeed 2),
    (.beginSend,.succeed 3),(.endSend erOk ⟨3,erOk⟩,.succeed 3)]

/-- The close response reports that nothing was sent. -/
theorem sendsThree_not_reported :
    ∃ s t response, Runs Counted.step ⟨linkedStream,0,0⟩ sendsThree s ∧
      s.step (.received false (.request .close),.succeed 4) = some t ∧ s.sent = 3 ∧
      t.cell.history.responses = s.cell.history.responses ++ [response] ∧
      response.content.closeResponse.bytesSent = 0 ∧ ¬s.Reports (.received false (.request .close),.succeed 4) := by
  refine ⟨_,_,_,runs_of_run rfl,rfl,rfl,rfl,rfl,?_⟩
  intro reports
  obtain ⟨response,⟨⟩,_,hsent⟩ := reports _ _ rfl rfl rfl
  exact absurd hsent (by decide)

end EdgeProxy.Server
