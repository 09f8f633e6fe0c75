import EdgeProxy.Server.Queues

/-! # The bytes of a stream

The bytes that the operating system accepts from a stream socket, against the payloads that were queued on it. The end
callback of a send does not look at the number of accepted bytes, so the stream is intact when every call that accepts
something accepts the whole payload.
-/
namespace EdgeProxy.Server
open Base Codec Lib List PortThread

variable {c c' : Cell} {calls : Calls} {event : Event}

structure SendEnd where
  payload : Bytes
  prepared : Int32
  os : Pal.OsResult

def Cell.sendEnd (c : Cell) (event : Event) : Option SendEnd :=
  match c.portThread, event with
  | .sending message, .endSend prepared os => some ⟨message.payload,prepared,os⟩
  | _, _ => none

/-- The results of the system call on a stream socket: it would block, or it accepts at least one and at
most all of the bytes offered. -/
def StreamResults (c : Cell) (label : Label) : Prop :=
  ∀ send ∈ c.sendEnd label.1, send.prepared = erOk ∧
    (send.os = ⟨-1,erRetry⟩ ∨ 1 ≤ send.os.ret.toInt ∧ send.os.ret.toInt ≤ send.payload.length)

/-- A call that accepts something accepts the whole payload, and its count stays positive when it is
stored in 32 bits. -/
def WholeWrite (c : Cell) (label : Label) : Prop :=
  ∀ send ∈ c.sendEnd label.1, 1 ≤ send.os.ret.toInt →
    send.os.ret.toInt = send.payload.length ∧ 0 ≤ send.os.ret.toInt32

instance (c : Cell) (label : Label) : Decidable (StreamResults c label) :=
  inferInstanceAs (Decidable (∀ send ∈ c.sendEnd label.1, _))
instance (c : Cell) (label : Label) : Decidable (WholeWrite c label) :=
  inferInstanceAs (Decidable (∀ send ∈ c.sendEnd label.1, _))

variable {os : Pal.OsResult} {gone : List Message}

lemma sendEnd_eq {message prepared} (sending : c.portThread = .sending message) :
    c.sendEnd (.endSend prepared os) = some ⟨message.payload,prepared,os⟩ := by
  simp [Cell.sendEnd,sending]
lemma finish_blocked (bufLen : UInt64) : (Pal.palSocketOnSendFinish erOk bufLen ⟨-1,erRetry⟩).1 = erRetry := by
  rfl
lemma finish_accepted {bufLen} (h : 0 ≤ os.ret.toInt32) : (Pal.palSocketOnSendFinish erOk bufLen os).1 = erOk := by
  simp [Pal.palSocketOnSendFinish,Pal.transferResult,Int32.not_lt.2 h]

structure Numbered (c : Cell) : Prop where
  ascending : c.history.accepted.Pairwise fun m n => m.object < n.object
  below : ∀ message ∈ c.history.accepted, message.object < c.history.objects

lemma step_numbered {label} (hc : Numbered c) (h : c.step label = some c') : Numbered c' := by
  rcases (takes_of_step h).2.frame.accepted with ⟨hacc,hobj⟩ | ⟨message,hacc,hnew,hobj⟩
  · constructor
    · rw [hacc]
      exact hc.ascending
    · intro message hmem
      rw [hacc] at hmem
      exact Nat.lt_of_lt_of_le (hc.below message hmem) hobj
  · constructor
    · rw [hacc,pairwise_append]
      refine ⟨hc.ascending,pairwise_singleton _ _,?_⟩
      intro m hm n hn
      rw [mem_singleton.1 hn,hnew]
      exact hc.below m hm
    · intro m hm
      rw [hacc] at hm
      rcases mem_append.1 hm with hold | hlast
      · have := hc.below m hold
        omega
      · rw [mem_singleton.1 hlast]
        omega

/-- What left the send queue, `gone`, is what the operating system got; with what is in hand and queued it
is an initial part of what was queued, and all of it while the socket is open. -/
structure Sent (c : Cell) (gone : List Message) : Prop where
  order : gone ++ (c.portThread.hand.toList ++ c.socket.sendQueue) <+: c.history.accepted
  all : c.isOpen → c.history.accepted = gone ++ (c.portThread.hand.toList ++ c.socket.sendQueue)
  bytes : c.history.osBytes = gone.flatMap Message.payload
  completed : ∀ entry ∈ c.history.completed, entry.1 ∈ gone

structure SendFrame (c c' : Cell) : Prop where
  accepted : c'.history.accepted = c.history.accepted
  hand : c'.portThread.hand = c.portThread.hand
  bytes : c'.history.osBytes = c.history.osBytes
  completed : c'.history.completed = c.history.completed
  queue : c'.socket.sendQueue = c.socket.sendQueue ∨ c'.socket.sendQueue = [] ∧ c'.isOpen = false

lemma SendFrame.sent (h : SendFrame c c') (still : c'.isOpen → c.isOpen) (hc : Sent c gone) : Sent c' gone := by
  obtain ⟨order,all,bytes,completed⟩ := hc
  rw [← h.hand,← h.accepted] at order all
  have hbytes := h.bytes.trans bytes
  rw [← h.completed] at completed
  rcases h.queue with hq | ⟨hq,closed⟩
  · rw [← hq] at order all
    exact ⟨order,fun open' => all (still open'),hbytes,completed⟩
  · rw [← append_assoc] at order
    have hpre : gone ++ c'.portThread.hand.toList <+: c'.history.accepted := (prefix_append _ _).trans order
    refine ⟨?_,fun open' => ?_,hbytes,completed⟩
    · rw [hq,append_nil]
      exact hpre
    · simp [closed] at open'

lemma Collects.sendFrame (h : Collects c calls c') : SendFrame c c' := by
  have same := h.unchanged
  exact ⟨same.accepted,congrArg _ same.portThread,same.osBytes,same.completed,.inl same.sendQueue⟩
lemma Collects.sendFrame_dropped (h : Collects c.dropped calls c') : SendFrame c c' := by
  have same := h.unchanged
  have closed : c'.isOpen = false := h.isOpen rfl
  exact ⟨same.accepted,congrArg _ same.portThread,same.osBytes,same.completed,.inr ⟨same.sendQueue,closed⟩⟩

/-- A step with a message in hand, under the conditions: it goes back to the queue, or all of it is sent. -/
theorem sent_endSend {message prepared} (hc : Sent c gone) (sending : c.portThread = .sending message)
    (takes : Takes c (.endSend prepared os) calls c') (results : StreamResults c (.endSend prepared os,calls))
    (whole : WholeWrite c (.endSend prepared os,calls)) : Sent c' gone ∨ Sent c' (gone ++ [message]) := by
  obtain ⟨order,all,bytes,completed⟩ := hc
  rw [sending] at order all
  obtain ⟨rfl,rfl | ⟨hone,_⟩⟩ := results _ (sendEnd_eq sending)
  · left
    cases takes with
    | sendRetried sending' =>
      cases sending.symm.trans sending'
      refine ⟨order,all,?_,completed⟩
      simp [acceptedBytes,bytes]
    | sendEnded sending' bound hresult => exact absurd (finish_blocked _) hresult
  · right
    obtain ⟨hall,hpos⟩ := whole _ (sendEnd_eq sending) hone
    have hnext : gone ++ (message :: c.socket.sendQueue) = gone ++ [message] ++ c.socket.sendQueue := by simp
    cases takes with
    | sendRetried sending' bound hresult =>
      rw [finish_accepted hpos] at hresult
      exact absurd hresult (by decide)
    | sendEnded sending' =>
      cases sending.symm.trans sending'
      refine ⟨hnext ▸ order,fun open' => hnext ▸ all open',?_,?_⟩
      · simp [acceptedBytes,hall,bytes]
      · intro entry hmem
        rcases mem_append.1 hmem with hold | hlast
        · exact mem_append_left _ (completed entry hold)
        · simp [mem_singleton.1 hlast]

lemma Takes.sent (h : Takes c event calls c') (hfree : FreeClosed c) (hc : Sent c gone)
    (other : ∀ prepared os, event ≠ .endSend prepared os) : ∃ gone', Sent c' gone' := by
  have still : c'.isOpen → c.isOpen := by
    intro open'
    by_contra closed
    simp [h.isOpen (by simpa using closed)] at open'
  have frame : SendFrame c c' → ∃ gone', Sent c' gone' := fun hf => ⟨gone,hf.sent still hc⟩
  cases h with
  | received idle table receives =>
    cases receives with
    | data type state =>
      have hopen : c.isOpen := by simp [Cell.isOpen,state]
      have hall := hc.all hopen
      refine ⟨gone,?_,fun _ => ?_,hc.bytes,hc.completed⟩
      · simp [hall]
      · simp [hall]
    | _ => exact frame ⟨rfl,rfl,rfl,rfl,.inl rfl⟩
  | worker idle table works =>
    cases works with
    | reverted state due collects | drops state due collects =>
      obtain ⟨haccepted,hhand,hbytes,hcompleted,hqueue⟩ := collects.sendFrame_dropped
      exact frame ⟨haccepted,hhand,hbytes,hcompleted,hqueue⟩
    | collects state collects => exact frame collects.sendFrame
    | _ => exact frame ⟨rfl,rfl,rfl,rfl,.inl rfl⟩
  | openComplete _ _ step | deliver step => cases step <;> exact frame ⟨rfl,rfl,rfl,rfl,.inl rfl⟩
  | free idle queued => exact frame ⟨rfl,rfl,rfl,rfl,.inr ⟨rfl,hfree queued⟩⟩
  | receiveBegun _ port | receiveDropped port | receiveEnded port =>
    exact frame ⟨rfl,by rw [port]; rfl,rfl,rfl,.inl rfl⟩
  | @sendLost calls message rest queue idle null =>
    obtain ⟨order,all,bytes,completed⟩ := hc
    rw [idle,queue] at order all
    have hnext : gone ++ (message :: rest) = gone ++ [message] ++ rest := by simp
    refine ⟨gone ++ [message],?_,?_,?_,?_⟩
    · simpa [idle] using hnext ▸ order
    · intro open'
      simpa [idle,hand] using all (still open')
    · simp [bytes,Message.payload,null]
    · exact fun entry hmem => mem_append_left _ (completed entry hmem)
  | sendBegun queue idle =>
    obtain ⟨order,all,bytes,completed⟩ := hc
    rw [idle,queue] at order all
    exact ⟨gone,order,fun open' => all (still open'),bytes,completed⟩
  | sendRetried | sendEnded => exact absurd rfl (other _ _)
  | _ => exact frame ⟨rfl,rfl,rfl,rfl,.inl rfl⟩

/-- The stream is intact: the operating system got an initial part of the payloads that were queued, and
all of them once every message is complete without an error. -/
def StreamIntact (c : Cell) : Prop :=
  c.history.osBytes <+: c.history.accepted.flatMap Message.payload ∧
  ((∀ message ∈ c.history.accepted, (message,erOk) ∈ c.history.completed) →
    c.history.osBytes = c.history.accepted.flatMap Message.payload)

structure Sending (c : Cell) : Prop where
  free : FreeClosed c
  numbered : Numbered c
  sent : ∃ gone, Sent c gone

lemma step_sending {label} (hc : Sending c) (conditions : StreamResults c label ∧ WholeWrite c label)
    (h : c.step label = some c') : Sending c' := by
  obtain ⟨gone,hsent⟩ := hc.sent
  refine ⟨step_freeClosed hc.free h,step_numbered hc.numbered h,?_⟩
  obtain ⟨event,calls⟩ := label
  have takes := (takes_of_step h).2
  by_cases ends : ∃ prepared os, event = .endSend prepared os
  · obtain ⟨prepared,os,rfl⟩ := ends
    obtain ⟨message,sending⟩ : ∃ message, c.portThread = .sending message := by
      cases takes with
      | sendRetried sending | sendEnded sending => exact ⟨_,sending⟩
    rcases sent_endSend hsent sending takes conditions.1 conditions.2 with hsent' | hsent'
    · exact ⟨gone,hsent'⟩
    · exact ⟨gone ++ [message],hsent'⟩
  · exact takes.sent hc.free hsent fun prepared os heq => ends ⟨prepared,os,heq⟩

lemma Initial.sending (h : Initial c) : Sending c where
  free queued := absurd (h.tasks _ queued) nofun
  numbered := ⟨by simp [h.accepted],by simp [h.accepted]⟩
  sent := ⟨[],by simp [h.portThread,h.sendQueue,hand],
    by simp [h.accepted,h.portThread,h.sendQueue,hand],by simp [h.osBytes],by simp [h.completed]⟩
lemma eq_of_prefix_of_subset {all} (distinct : all.Pairwise fun m n => m.object < n.object)
    (order : gone <+: all) (complete : ∀ message ∈ all, message ∈ gone) : gone = all := by
  obtain ⟨rest,rfl⟩ := order
  cases rest with
  | nil => simp
  | cons message =>
    have hmem : message ∈ gone := complete message (by simp)
    have hlt := (pairwise_append.1 distinct).2.2 message hmem message (by simp)
    omega
lemma Sending.streamIntact (hc : Sending c) : StreamIntact c := by
  obtain ⟨gone,hsent⟩ := hc.sent
  have order : gone <+: c.history.accepted := (prefix_append _ _).trans hsent.order
  constructor
  · obtain ⟨rest,hrest⟩ := order
    rw [hsent.bytes,← hrest,flatMap_append]
    exact prefix_append _ _
  · intro complete
    have hall := eq_of_prefix_of_subset hc.numbered.ascending order
      fun message hmem => hsent.completed _ (complete message hmem)
    rw [hsent.bytes,hall]

/-- In every run in which each accepting system call accepts the whole payload, the stream is intact. -/
theorem streamIntact_of_wholeWrites {c₀ c : Cell} {labels : List Label} (born : Born c₀)
    (runs : Runs Cell.step c₀ labels c) (results : Along Cell.step StreamResults c₀ labels)
    (whole : Along Cell.step WholeWrite c₀ labels) : StreamIntact c := by
  have hc := Runs.invariant step_sending runs (results.and whole) born.initial.sending
  exact hc.streamIntact

def sendTwo : List Label :=
  linkDone ++ [(.received false openPolled,.succeed 1),(.received false (dataMessage (some [1,2])),.succeed 2),
    (.received false (dataMessage (some [3])),.succeed 2),(.beginSend,.succeed 3),
    (.endSend erOk ⟨-1,erRetry⟩,.succeed 3),(.beginSend,.succeed 4),(.endSend erOk ⟨2,erOk⟩,.succeed 4),
    (.beginSend,.succeed 5),(.endSend erOk ⟨1,erOk⟩,.succeed 5)]
theorem sendTwo_streamIntact :
    ∃ c, run Cell.step linkedStream sendTwo = some c ∧ c.history.osBytes = [1,2,3] ∧ StreamIntact c := by
  have runs : Runs Cell.step linkedStream sendTwo _ := runs_of_run rfl
  exact ⟨_,rfl,rfl,streamIntact_of_wholeWrites born_linkedStream runs (by decide) (by decide)⟩
def sendShort : List Label :=
  linkDone ++ [(.received false openPolled,.succeed 1),(.received false (dataMessage (some [1,2])),.succeed 2),
    (.beginSend,.succeed 3),(.endSend erOk ⟨1,erOk⟩,.succeed 3)]
theorem sendShort_not_streamIntact :
    Along Cell.step StreamResults linkedStream sendShort ∧
    ∃ c, Runs Cell.step linkedStream sendShort c ∧ c.history.accepted.flatMap Message.payload = [1,2] ∧
      c.history.osBytes = [1] ∧ c.socket.sendQueue = [] ∧ ¬StreamIntact c := by
  refine ⟨by decide,_,runs_of_run rfl,rfl,rfl,rfl,?_⟩
  intro intact
  refine absurd (intact.2 ?_) (by decide)
  intro message hmem
  cases mem_singleton.1 hmem
  exact mem_cons_self

end EdgeProxy.Server
