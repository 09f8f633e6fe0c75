import EdgeProxy.Mqtt.Publish

/-! # Packet ids and acknowledgements

A packet id is the number of ids taken before it, modulo the number of ids there are. The ids of the messages that wait
are distinct as long as no message is published when another one waits for which a multiple of that many ids ago was
taken.
-/
namespace EdgeProxy.Mqtt
open Base Lib List Message Connection

variable {K R : Type} {c d : Connection K R} {now : ℤ}

lemma nextId_toNat (counter : UInt16) : (nextId counter).toNat = counter.toNat % 65535 + 1 := by
  have hlt := counter.toNat_lt
  unfold nextId
  split
  · rename_i hne
    have hsum : counter.toNat + 1 ≠ 65536 := by
      intro heq
      apply hne
      apply UInt16.toNat_inj.1
      change (counter.toNat + 1) % 65536 = 0
      omega
    change (counter.toNat + 1) % 65536 = counter.toNat % 65535 + 1
    omega
  · rename_i heq
    have hzero : (counter.toNat + 1) % 65536 = 0 := by
      have := congrArg UInt16.toNat (not_not.1 heq)
      rwa [UInt16.toNat_add] at this
    change ((counter.toNat + 1) % 65536 + 1) % 65536 = counter.toNat % 65535 + 1
    omega

def idOf (serial : ℕ) : ℕ :=
  (serial - 1) % 65535 + 1
lemma idOf_eq_iff {m n} (hm : 0 < m) (hle : m ≤ n) : idOf m = idOf n ↔ (n - m) % 65535 = 0 := by
  unfold idOf
  omega

structure Connection.Numbered (c : Connection K R) : Prop where
  counter : c.pktCounter.toNat = if c.draws = 0 then 0 else idOf c.draws
  waiting : ∀ message ∈ c.waiting, 0 < message.serial ∧ message.serial ≤ c.draws ∧
    message.pktId.toNat = idOf message.serial

lemma Connection.Numbered.nextId (hc : c.Numbered) : (nextId c.pktCounter).toNat = idOf (c.draws + 1) := by
  rw [nextId_toNat,hc.counter]
  unfold idOf
  split <;> omega

lemma Connection.Numbered.of_counter (hc : c.Numbered) (hwaiting : d.waiting.Sublist c.waiting)
    (hcounter : d.pktCounter = c.pktCounter ∧ d.draws = c.draws ∨
      d.pktCounter = Mqtt.nextId c.pktCounter ∧ d.draws = c.draws + 1) : d.Numbered := by
  rcases hcounter with ⟨hcounter,hdraws⟩ | ⟨hcounter,hdraws⟩
  · refine ⟨?_,fun message hmessage => ?_⟩
    · rw [hcounter,hdraws]
      exact hc.counter
    · rw [hdraws]
      exact hc.waiting message (hwaiting.subset hmessage)
  · refine ⟨?_,fun message hmessage => ?_⟩
    · rw [hcounter,hdraws,hc.nextId,if_neg (Nat.succ_ne_zero _)]
    · obtain ⟨hpos,hle,hid⟩ := hc.waiting message (hwaiting.subset hmessage)
      exact ⟨hpos,hdraws ▸ Nat.le_succ_of_le hle,hid⟩

lemma waiting_sublist (h : d.waiting = c.waiting) : d.waiting.Sublist c.waiting := by
  rw [h]

variable {message : Message K} {queue : List (Message K)}

lemma Connection.Acks.waiting {packetId} (h : c.Acks now packetId message d) : d.waiting.Sublist c.waiting := by
  rw [Connection.waiting,h.sendQueue]
  exact eraseP_sublist.map reset

lemma Connection.Does.numbered {label} (h : c.Does now label d) (hc : c.Numbered) : d.Numbered := by
  cases h with
  | idles => exact hc
  | drops | refuses => exact ⟨hc.counter,hc.waiting⟩
  | runs _ _ hmoves | moves _ hmoves => exact hc.of_counter (waiting_sublist hmoves.waiting) hmoves.counter
  | acks _ hacks => exact hc.of_counter hacks.waiting (.inl hacks.counter)
  | prepares _ _ hd =>
    exact hc.of_counter (waiting_sublist (congrArg (List.map reset) hd.sendQueue)) (.inl hd.counter)
  | fails => exact hc.of_counter (.refl _) (.inr ⟨rfl,rfl⟩)
  | enqueues message _ _ hid hserial =>
    refine ⟨hc.nextId,fun waiting hwaiting => ?_⟩
    obtain ⟨source,hsource,rfl⟩ := mem_map.1 hwaiting
    rcases mem_append.1 hsource with hsource | hsource
    · obtain ⟨hpos,hle,hwid⟩ := hc.waiting _ (mem_map_of_mem hsource)
      exact ⟨hpos,Nat.le_succ_of_le hle,hwid⟩
    · cases mem_singleton.1 hsource
      refine ⟨hserial ▸ Nat.succ_pos _,Nat.le_of_eq hserial,?_⟩
      change message.pktId.toNat = idOf message.serial
      rw [hid,hserial,hc.nextId]
  | closes =>
    refine hc.of_counter ?_ (.inl ?_)
    · rw [waiting,(close_eq c).1]
      exact nil_sublist _
    · unfold close
      dsimp only
      split <;> exact ⟨rfl,rfl⟩

def Connection.Distinct (c : Connection K R) : Prop :=
  (c.sendQueue.map Message.pktId).Nodup

/-- When a message is published, no message waits that was given its id a multiple of all ids ago. -/
def Connection.idFree (c : Connection K R) : Label K R → Prop
  | .publish (some _) _ (some _) _ memory => memory.message → memory.topicName →
      memory.msgHandle → ∀ message ∈ c.sendQueue, (c.draws + 1 - message.serial) % 65535 ≠ 0
  | _ => True

variable {label : Label K R}

instance : Decidable (c.idFree label) :=
  match label with
  | .publish (some _) _ (some _) _ _ => inferInstanceAs (Decidable (_ → _ → _ → ∀ message ∈ c.sendQueue,_))
  | .publish none _ _ _ _ => isTrue trivial
  | .publish (some _) _ none _ _ => isTrue trivial
  | .advance .. | .subscribe .. | .release .. | .connect .. | .close .. => isTrue trivial
  | .run .. | .drop .. | .event .. => isTrue trivial
lemma map_pktId (c : Connection K R) : c.waiting.map pktId = c.sendQueue.map pktId := by
  rw [waiting,map_map]
  rfl
lemma Connection.Distinct.of_sublist (hc : c.Distinct) (h : d.waiting.Sublist c.waiting) : d.Distinct := by
  unfold Distinct
  rw [← map_pktId]
  refine .sublist (h.map pktId) ?_
  rw [map_pktId]
  exact hc
lemma Connection.Numbered.nextId_eq_iff (hc : c.Numbered) {message} (h : message ∈ c.sendQueue) :
    message.pktId = Mqtt.nextId c.pktCounter ↔ (c.draws + 1 - message.serial) % 65535 = 0 := by
  obtain ⟨hpos,hle,hid⟩ := hc.waiting _ (mem_map_of_mem h)
  rw [← UInt16.toNat_inj,hc.nextId]
  change message.pktId.toNat = idOf message.serial at hid
  rw [hid]
  exact idOf_eq_iff hpos (Nat.le_succ_of_le hle)

lemma Connection.Does.distinct_iff (h : c.Does now label d) (hnumbered : c.Numbered) (hc : c.Distinct) :
    d.Distinct ↔ c.idFree label := by
  cases h with
  | idles | drops => exact iff_of_true hc trivial
  | runs _ _ hmoves | moves _ hmoves => exact iff_of_true (hc.of_sublist (waiting_sublist hmoves.waiting)) trivial
  | acks _ hacks => exact iff_of_true (hc.of_sublist hacks.waiting) trivial
  | prepares hprepares _ hd =>
    refine iff_of_true ?_ ?_
    · unfold Distinct
      rw [hd.sendQueue]
      exact hc
    · cases label <;> trivial
  | refuses cb e _ hnone =>
    refine iff_of_true hc ?_
    unfold idFree
    split
    · rename_i heq
      cases heq
      intro hmemory
      rcases hnone with hnone | hnone | hnone
      · cases hnone
      · cases hnone
      · cases hnone.symm.trans hmemory
    · trivial
  | fails message _ _ _ hfails =>
    refine iff_of_true hc fun _ htopic hhandle => ?_
    rcases hfails with hfails | hfails
    · cases hfails.symm.trans htopic
    · cases hfails.symm.trans hhandle
  | enqueues message _ _ hid _ hmemory htopic hhandle =>
    have hnodup : ((c.sendQueue ++ [message]).map pktId).Nodup ↔
        ∀ waiting ∈ c.sendQueue, waiting.pktId ≠ Mqtt.nextId c.pktCounter := by
      have hold : (c.sendQueue.map pktId).Nodup := hc
      rw [map_append,nodup_append]
      simp [hold,hid]
    refine hnodup.trans ⟨fun hne _ _ _ waiting hwaiting hzero => ?_,fun hfree waiting hwaiting heq => ?_⟩
    · exact hne waiting hwaiting ((hnumbered.nextId_eq_iff hwaiting).2 hzero)
    · exact hfree hmemory htopic hhandle waiting hwaiting ((hnumbered.nextId_eq_iff hwaiting).1 heq)
  | closes =>
    refine iff_of_true ?_ trivial
    rw [Distinct,(close_eq c).1]
    exact nodup_nil

def Connection.hasSent (c : Connection K R) (message : Message K) : Bool :=
  .publish message.ticket message.msgHandle ∈ c.sent

/-- The acknowledgement completes the messages that were sent with the id, and no others. -/
def Connection.AcksExactly (c : Connection K R) (packetId : UInt16) (d : Connection K R) : Prop :=
  d.sendQueue = c.sendQueue.filter (fun message => !(message.pktId = packetId && c.hasSent message)) ∧
  d.invoked = c.invoked ++ (c.sendQueue.filter fun message =>
    message.pktId = packetId && c.hasSent message).flatMap (Message.completion (.ok ()))

lemma filter_pktId (h : (queue.map pktId).Nodup) (packetId : UInt16) :
    queue.filter (·.pktId = packetId) = (queue.find? (·.pktId = packetId)).toList ∧
      queue.filter (fun message => !decide (message.pktId = packetId)) = queue.eraseP (·.pktId = packetId) := by
  induction queue with
  | nil => exact ⟨rfl,rfl⟩
  | cons next queue ih =>
    obtain ⟨hnext,hqueue⟩ := nodup_cons.1 h
    obtain ⟨hfind,herase⟩ := ih hqueue
    by_cases hid : next.pktId = packetId
    · have hother (message : Message K) (hmessage : message ∈ queue) : message.pktId ≠ packetId := by
        intro heq
        exact hnext (mem_map.2 ⟨message,hmessage,heq.trans hid.symm⟩)
      constructor <;> simpa [hid] using hother
    · simp [hid,hfind,herase]

lemma publishAck_eq (now : ℤ) (packetId : UInt16) :
    (operated now (c.handlePublishAck now (some packetId))).sendQueue = c.sendQueue.eraseP (·.pktId = packetId) ∧
      (operated now (c.handlePublishAck now (some packetId))).invoked =
        c.invoked ++ (c.sendQueue.find? (·.pktId = packetId)).toList.flatMap (completion (.ok ())) := by
  unfold handlePublishAck
  dsimp only
  split
  · rename_i hnone
    rw [hnone]
    exact ⟨(eraseP_of_forall_not (List.find?_eq_none.1 hnone)).symm,(append_nil _).symm⟩
  · rename_i message hfound
    rw [hfound,Option.toList_some,flatMap_singleton]
    split <;> exact ⟨rfl,rfl⟩

lemma acksExactly_iff {packetId} (hc : c.Distinct) (h : c.handleEvent now (.publishAck (some packetId)) = .ok d) :
    c.AcksExactly packetId d ↔ ∀ message ∈ c.sendQueue, message.pktId = packetId → c.hasSent message := by
  cases h
  obtain ⟨hqueue,hinvoked⟩ := publishAck_eq now packetId
  obtain ⟨hfind,herase⟩ := filter_pktId hc packetId
  unfold AcksExactly
  rw [hqueue,hinvoked,← hfind,← herase]
  constructor
  · rintro ⟨hstay,_⟩ message hmessage hid
    by_contra hsent
    have hkept : message ∈ c.sendQueue.filter fun message => !(message.pktId = packetId && c.hasSent message) :=
      mem_filter.2 ⟨hmessage,by simp [hsent]⟩
    rw [← hstay] at hkept
    simpa [hid] using (mem_filter.1 hkept).2
  · intro hsent
    have hsame {message : Message K} (hmessage : message ∈ c.sendQueue) :
        (message.pktId = packetId && c.hasSent message) = decide (message.pktId = packetId) := by
      by_cases hid : message.pktId = packetId
      · simp [hsent message hmessage hid]
      · simp [hid]
    constructor
    · exact filter_congr fun message hmessage => by simp [hsame hmessage]
    · rw [filter_congr fun message hmessage => hsame hmessage]

variable {s t : System K R} {address : Address} {clientId : String} {memory clientIdMemory : Bool}
  {clone scheduler : Except PrxError Unit}

lemma step_numbered (hs : s.connection.Numbered) (h : s.step label = some t) : t.connection.Numbered :=
  (System.does_of_step h).numbered hs
lemma create_numbered (created : create address clientId memory clientIdMemory clone scheduler = .ok c) :
    c.Numbered := by
  obtain ⟨_,hqueue,_,hcounter,hdraws,_,_,_⟩ := create_eq created
  constructor
  · rw [hcounter,hdraws]
    rfl
  · rw [waiting,hqueue]
    exact forall_mem_nil _
lemma runs_numbered (created : create address clientId memory clientIdMemory clone scheduler = .ok c)
    {clock labels} (hruns : Runs System.step ⟨c,clock⟩ labels s) : s.connection.Numbered :=
  hruns.invariant (I := fun s => s.connection.Numbered) (fun hs _ h => step_numbered hs h) along_true
    (create_numbered created)

/-- Packet ids are never 0. Those of the messages that wait are distinct exactly if none is published while one waits
that was given its id a multiple of all ids ago; then an acknowledgement completes the message that was sent with its
id. -/
theorem acks_match (address : Address) (clientId : String) (memory clientIdMemory : Bool)
    (clone scheduler : Except PrxError Unit) {c : Connection K R}
    (created : Connection.create address clientId memory clientIdMemory clone scheduler = .ok c) (clock : ℤ)
    {labels : List (Label K R)} {s : System K R} (hruns : Runs System.step ⟨c,clock⟩ labels s) :
    (∀ message ∈ s.connection.sendQueue, message.pktId ≠ 0) ∧
    (Always System.step (fun u => u.connection.Distinct) ⟨c,clock⟩ labels ↔
      Along System.step (fun u label => u.connection.idFree label) ⟨c,clock⟩ labels) ∧
    ∀ packetId t, s.connection.Distinct → s.step (.event (.publishAck (some packetId))) = some t →
      (s.connection.AcksExactly packetId t.connection ↔
        ∀ message ∈ s.connection.sendQueue, message.pktId = packetId → s.connection.hasSent message) := by
  have hs := runs_numbered created hruns
  refine ⟨fun message hmessage hzero => ?_,?_,fun packetId t hdistinct hstep => ?_⟩
  · obtain ⟨_,_,hid⟩ := hs.waiting _ (mem_map_of_mem hmessage)
    change message.pktId.toNat = idOf message.serial at hid
    rw [hzero] at hid
    exact Nat.succ_ne_zero _ hid.symm
  · refine hruns.always_iff (I := fun s => s.connection.Numbered) (fun hs hdistinct h => ?_)
      (create_numbered created) ?_
    · exact ⟨step_numbered hs h,(System.does_of_step h).distinct_iff hs hdistinct⟩
    · obtain ⟨_,hqueue,_⟩ := create_eq created
      change (c.sendQueue.map pktId).Nodup
      rw [hqueue]
      exact nodup_nil
  · obtain ⟨connection,hevent,rfl⟩ := Option.map_eq_some_iff.1 hstep
    exact acksExactly_iff hdistinct (event_of_step hevent).2

def twoSent : List (Label ℕ ℕ) :=
  opened ++ [.publish (some ['a']) none (some [1]) (some 7) {},.publish (some ['b']) none (some [2]) (some 8) {},
    .run 1 {},.run 1 {}]

/-- The second of two messages is acknowledged first. -/
theorem twoSent_acks_match : ∃ s t, Runs System.step ⟨edge,0⟩ twoSent s ∧
    s.connection.sendQueue.map Message.pktId = [1,2] ∧
    Always System.step (fun u => u.connection.Distinct) ⟨edge,0⟩ twoSent ∧
    s.step (.event (.publishAck (some 2))) = some t ∧ s.connection.AcksExactly 2 t.connection := by
  obtain ⟨s,hs,hids,hsent,t,ht,-⟩ : ∃ s, Runs System.step ⟨edge,0⟩ twoSent s ∧
      s.connection.sendQueue.map pktId = [1,2] ∧
      (∀ message ∈ s.connection.sendQueue, message.pktId = 2 → s.connection.hasSent message) ∧
      ∃ t, s.step (.event (.publishAck (some 2))) = some t ∧ True := by decide +kernel
  obtain ⟨_,hdistinct,hexact⟩ := acks_match hub "edge" true true (.ok ()) (.ok ()) edge_created 0 hs
  have halways := hdistinct.2 (by decide +kernel)
  exact ⟨s,t,hs,hids,halways,ht,(hexact 2 t (halways.last hs) ht).2 hsent⟩

def sendOne : List (Label ℕ ℕ) :=
  [.publish (some ['a']) none (some [1]) none {},.run 1 {}]
lemma find?_unpublished (h : ∀ message ∈ queue, message.published) (hmessage : message.published = false) :
    (queue ++ [message]).find? (!·.published) = some message := by
  rw [List.find?_append,List.find?_eq_none.2 fun next hnext => by simp [h next hnext]]
  simp [hmessage]
lemma attemptFirst_append (h : ∀ message ∈ queue, message.published)
    (hmessage : message.published = false) (published : Bool) :
    attemptFirst now published (queue ++ [message]) = queue ++ [{ message with published, attempted := now }] := by
  induction queue with
  | nil => simp [attemptFirst,hmessage]
  | cons next queue ih =>
    obtain ⟨hnext,hqueue⟩ := forall_mem_cons.1 h
    simp [attemptFirst,hnext,ih hqueue]
lemma publishMessage_last (hstatus : c.status = .connected)
    (hqueue : c.sendQueue = queue ++ [message]) (hold : ∀ message ∈ queue, message.published)
    (hnew : message.published = false) : c.publishMessage now {} = { c with
      sendQueue := queue ++ [{ message with published := true, attempted := now }]
      sent := c.sent ++ [.publish message.ticket message.msgHandle] } := by
  unfold publishMessage
  rw [if_neg (not_not.2 hstatus),hqueue,find?_unpublished hold hnew]
  dsimp only
  rw [if_pos rfl,attemptFirst_append hold hnew]

structure Connection.SentUpTo (c : Connection K R) (n : ℕ) : Prop where
  frees : c.frees = 0
  status : c.status = .connected
  tasks : c.tasks = [⟨.monitor,10000⟩]
  draws : c.draws = n
  published : ∀ message ∈ c.sendQueue, message.published
  sent : ∀ serial, 0 < serial → serial ≤ n → ∃ message ∈ c.sendQueue, message.serial = serial ∧ c.hasSent message

lemma runs_sendOne {s n} (hs : s.connection.SentUpTo n) :
    ∃ t, Runs System.step s sendOne t ∧ t.connection.SentUpTo (n + 1) := by
  have hpublish : s.step (.publish (some ['a']) none (some [1]) none {}) =
      some { s with connection := (s.connection.publish (some ['a']) none (some [1]) none {}).1 } := by
    simp [System.step,step,hs.frees]
  generalize hc : (s.connection.publish (some ['a']) none (some [1]) none {}).1 = c at hpublish
  obtain ⟨message,hqueue,hnew,hserial⟩ : ∃ message : Message ℕ, c.sendQueue = s.connection.sendQueue ++ [message] ∧
      message.published = false ∧ message.serial = n + 1 := by
    rw [← hc]
    exact ⟨_,rfl,rfl,congrArg (· + 1) hs.draws⟩
  have htasks : c.tasks = [⟨.monitor,10000⟩,⟨.publishMessage,0⟩] := by
    rw [← hc]
    exact congrArg (· ++ [⟨.publishMessage,0⟩]) hs.tasks
  have hrun : System.step { s with connection := c } (.run 1 {}) = some { s with
      connection := publishMessage s.clock {} { c with tasks := [⟨.monitor,10000⟩] } } := by
    simp [System.step,step,takeTask,Label.isCall,htasks,runTask]
  have hstatus : c.status = .connected := by
    rw [← hc]
    exact hs.status
  rw [publishMessage_last (c := { c with tasks := [⟨.monitor,10000⟩] }) hstatus hqueue hs.published hnew] at hrun
  refine ⟨_,.step hpublish (.step hrun (.refl _)),?_,hstatus,rfl,?_,?_,?_⟩
  · rw [← hc]
    exact hs.frees
  · rw [← hc]
    exact congrArg (· + 1) hs.draws
  · intro waiting hwaiting
    rcases mem_append.1 hwaiting with hwaiting | hwaiting
    · exact hs.published waiting hwaiting
    · cases mem_singleton.1 hwaiting
      rfl
  · intro serial hpos hle
    have hsent : c.sent = s.connection.sent := by
      rw [← hc]
      rfl
    rcases Nat.lt_or_eq_of_le hle with hlt | rfl
    · obtain ⟨waiting,hwaiting,hserial,hsent'⟩ := hs.sent serial hpos (Nat.le_of_lt_succ hlt)
      refine ⟨waiting,mem_append_left _ hwaiting,hserial,decide_eq_true (mem_append_left _ ?_)⟩
      rw [hsent]
      exact of_decide_eq_true hsent'
    · exact ⟨_,mem_append_right _ mem_cons_self,hserial,decide_eq_true (mem_append_right _ mem_cons_self)⟩

lemma runs_sendMany (n : ℕ) :
    ∃ s, Runs System.step ⟨edge,0⟩ (opened ++ (List.replicate n sendOne).flatten) s ∧ s.connection.SentUpTo n := by
  induction n with
  | zero =>
    obtain ⟨s,hs,hfrees,hstatus,htasks,hdraws,hqueue⟩ : ∃ s, Runs System.step ⟨edge,0⟩ opened s ∧
        s.connection.frees = 0 ∧ s.connection.status = .connected ∧ s.connection.tasks = [⟨.monitor,10000⟩] ∧
        s.connection.draws = 0 ∧ s.connection.sendQueue = [] := by decide +kernel
    refine ⟨s,hs,hfrees,hstatus,htasks,hdraws,?_,fun serial hpos hle => ?_⟩
    · rw [hqueue]
      exact forall_mem_nil _
    · exact absurd hpos (Nat.not_lt_of_le hle)
  | succ n ih =>
    obtain ⟨s,hruns,hs⟩ := ih
    obtain ⟨t,hruns',ht⟩ := runs_sendOne hs
    have happend := hruns.append hruns'
    rw [append_assoc,← flatten_concat,← replicate_succ'] at happend
    exact ⟨t,happend,ht⟩

/-- When more messages are sent than there are ids, two of those that wait have the same id. -/
theorem sendMany_not_distinct : ∃ s, Runs System.step ⟨edge,0⟩ (opened ++ (List.replicate 65536 sendOne).flatten) s ∧
    ¬s.connection.Distinct ∧ ∃ first ∈ s.connection.sendQueue, ∃ last ∈ s.connection.sendQueue,
      first.pktId = last.pktId ∧ first.serial ≠ last.serial ∧ s.connection.hasSent first ∧
      s.connection.hasSent last := by
  obtain ⟨s,hruns,hsent⟩ := runs_sendMany 65536
  have hs := runs_numbered edge_created hruns
  obtain ⟨first,hfirst,hserial,hsentFirst⟩ := hsent.sent 1 (by decide) (by decide)
  obtain ⟨last,hlast,hserial',hsentLast⟩ := hsent.sent 65536 (by decide) (by decide)
  have hid : first.pktId.toNat = idOf first.serial := (hs.waiting _ (mem_map_of_mem hfirst)).2.2
  have hid' : last.pktId.toNat = idOf last.serial := (hs.waiting _ (mem_map_of_mem hlast)).2.2
  have hsame : first.pktId = last.pktId := by
    apply UInt16.toNat_inj.1
    rw [hid,hid',hserial,hserial']
    decide
  have hne : first.serial ≠ last.serial := by
    rw [hserial,hserial']
    decide
  refine ⟨s,hruns,fun hdistinct => ?_,first,hfirst,last,hlast,hsame,hne,hsentFirst,hsentLast⟩
  exact hne (congrArg serial (inj_on_of_nodup_map hdistinct hfirst hlast hsame))

end EdgeProxy.Mqtt
