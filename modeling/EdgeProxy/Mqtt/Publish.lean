import Mathlib.Data.List.Perm.Lattice
import Mathlib.Data.List.Nodup
import EdgeProxy.Mqtt.Closing

/-! # Publish calls and their callbacks

Every call that succeeds has its message in the send queue until the callback is invoked, when the message is
acknowledged or the connection is closed. A call that fails with a message invokes it as well; a message that is
published after the close is left behind.
-/
namespace EdgeProxy.Mqtt
open Base Lib List Message Connection Option

variable {K R : Type} {c d : Connection K R} {now : ℤ}

/-- Calls are numbered in order. A message waits or its callback was invoked, each once, and for a call. -/
structure Connection.Accounted (c : Connection K R) : Prop where
  tickets : c.calls.map PublishCall.ticket = List.range c.calls.length
  nodup : (c.waiting.map Message.ticket ++ c.invoked.map Completion.ticket).Nodup
  waiting : ∀ message ∈ c.waiting, ⟨message.ticket,message.cb,.ok ()⟩ ∈ c.calls
  invoked : ∀ completion ∈ c.invoked, ∃ call ∈ c.calls, call.ticket = completion.ticket
  due : ∀ call ∈ c.calls, call.result = .ok () → ∀ cb, call.cb = some cb →
    (∃ message ∈ c.waiting, message.ticket = call.ticket ∧ message.cb = some cb) ∨
      ∃ completion ∈ c.invoked, completion.ticket = call.ticket ∧ completion.cb = cb

lemma Connection.Accounted.ticket_lt (hc : c.Accounted) {call} (hcall : call ∈ c.calls) :
    call.ticket < c.calls.length := by
  have hmem := mem_map_of_mem (f := PublishCall.ticket) hcall
  rw [hc.tickets] at hmem
  exact mem_range.1 hmem
lemma Connection.Accounted.fresh (hc : c.Accounted) :
    c.calls.length ∉ c.waiting.map ticket ++ c.invoked.map Completion.ticket := by
  intro hmem
  rcases mem_append.1 hmem with hmem | hmem
  · obtain ⟨message,hmessage,hticket⟩ := mem_map.1 hmem
    exact Nat.ne_of_lt (hc.ticket_lt (hc.waiting message hmessage)) hticket
  · obtain ⟨completion,hcompletion,hticket⟩ := mem_map.1 hmem
    obtain ⟨call,hcall,heq⟩ := hc.invoked completion hcompletion
    exact Nat.ne_of_lt (hc.ticket_lt hcall) (heq.trans hticket)
lemma Connection.Accounted.of_eq (hc : c.Accounted) (hwaiting : d.waiting = c.waiting) (hcalls : d.calls = c.calls)
    (hinvoked : d.invoked = c.invoked) : d.Accounted := by
  constructor <;> simp only [hwaiting,hcalls,hinvoked]
  exacts [hc.tickets,hc.nodup,hc.waiting,hc.invoked,hc.due]

/-- A call returns, with its message where it succeeds or with its callback where it fails. -/
theorem Connection.Accounted.called (hc : c.Accounted) {cb result} (messages : List (Message K))
    (completions : List (Completion K)) (hcalls : d.calls = c.calls ++ [⟨c.calls.length,cb,result⟩])
    (hwaiting : d.waiting = c.waiting ++ messages) (hinvoked : d.invoked = c.invoked ++ completions)
    (hnew : messages.map ticket ++ completions.map Completion.ticket ⊆ [c.calls.length])
    (honce : (messages.map ticket ++ completions.map Completion.ticket).Nodup)
    (hmessages : ∀ message ∈ messages, message.cb = cb ∧ result = .ok ()) (hresult : result = .ok () → messages ≠ []) :
    d.Accounted := by
  have hmessage {message : Message K} (hmem : message ∈ messages) : message.ticket = c.calls.length :=
    mem_singleton.1 (hnew (mem_append_left _ (mem_map_of_mem hmem)))
  have hcompletion {completion : Completion K} (hmem : completion ∈ completions) : completion.ticket = c.calls.length :=
    mem_singleton.1 (hnew (mem_append_right _ (mem_map_of_mem hmem)))
  have hold {call : PublishCall K} (hcall : call ∈ c.calls) : call ∈ d.calls := by
    rw [hcalls]
    exact mem_append_left _ hcall
  have hlast : ⟨c.calls.length,cb,result⟩ ∈ d.calls := by
    rw [hcalls]
    exact mem_append_right _ mem_cons_self
  constructor
  · rw [hcalls,map_append,hc.tickets,length_append,length_singleton,range_succ]
    rfl
  · have hperm : (d.waiting.map ticket ++ d.invoked.map Completion.ticket).Perm
        (messages.map ticket ++ completions.map Completion.ticket ++
          (c.waiting.map ticket ++ c.invoked.map Completion.ticket)) := by
      rw [hwaiting,hinvoked,map_append,map_append,perm_iff_count]
      simp only [count_append]
      omega
    rw [hperm.nodup_iff]
    refine nodup_append.2 ⟨honce,hc.nodup,fun ticket hmem ticket' hmem' heq => ?_⟩
    exact hc.fresh (mem_singleton.1 (hnew hmem) ▸ heq ▸ hmem')
  · intro message hmem
    rw [hwaiting] at hmem
    rcases mem_append.1 hmem with hmem | hmem
    · exact hold (hc.waiting message hmem)
    · obtain ⟨hcb,hok⟩ := hmessages message hmem
      rw [hmessage hmem,hcb,← hok]
      exact hlast
  · intro completion hmem
    rw [hinvoked] at hmem
    rcases mem_append.1 hmem with hmem | hmem
    · obtain ⟨call,hcall,hticket⟩ := hc.invoked completion hmem
      exact ⟨call,hold hcall,hticket⟩
    · exact ⟨_,hlast,(hcompletion hmem).symm⟩
  · intro call hcall hok k hk
    rw [hcalls] at hcall
    rw [hwaiting,hinvoked]
    rcases mem_append.1 hcall with hcall | hcall
    · rcases hc.due call hcall hok k hk with ⟨message,hmem,hticket⟩ | ⟨completion,hmem,hticket⟩
      · exact .inl ⟨message,mem_append_left _ hmem,hticket⟩
      · exact .inr ⟨completion,mem_append_left _ hmem,hticket⟩
    · cases mem_singleton.1 hcall
      obtain ⟨message,hmem⟩ := exists_mem_of_ne_nil messages (hresult hok)
      exact .inl ⟨message,mem_append_right _ hmem,hmessage hmem,(hmessages message hmem).1.trans hk⟩

lemma Connection.Accounted.settled (hc : c.Accounted) (messages : List (Message K)) (result : Except PrxError Unit)
    (hwaiting : c.waiting.Perm (messages ++ d.waiting)) (hcalls : d.calls = c.calls)
    (hinvoked : d.invoked = c.invoked ++ messages.flatMap (Message.completion result)) : d.Accounted := by
  have hmem {completion : Completion K} (h : completion ∈ messages.flatMap (Message.completion result)) :
      ∃ message ∈ messages, message.ticket = completion.ticket ∧ message.cb = some completion.cb := by
    obtain ⟨message,hmessage,hcompletion⟩ := mem_flatMap.1 h
    obtain ⟨cb,hcb,heq⟩ := map_eq_some_iff.1 (mem_toList.1 hcompletion)
    exact ⟨message,hmessage,by rw [← heq],by rw [hcb,← heq]⟩
  have hsublist : ((messages.flatMap (completion result)).map Completion.ticket).Sublist
      (messages.map ticket) := by
    clear hwaiting hinvoked hmem
    induction messages with
    | nil => exact .slnil
    | cons message messages ih =>
      cases hcb : message.cb with
      | none => simpa [completion,hcb] using ih.cons _
      | some => simpa [completion,hcb] using ih
  constructor
  · rw [hcalls]
    exact hc.tickets
  · have hperm : (c.waiting.map ticket ++ c.invoked.map Completion.ticket).Perm
        (d.waiting.map ticket ++ (c.invoked.map Completion.ticket ++ messages.map ticket)) := by
      have hmap := hwaiting.map ticket
      rw [map_append] at hmap
      refine (hmap.append_right _).trans ?_
      rw [perm_iff_count]
      simp only [count_append]
      omega
    have hnodup := hperm.nodup_iff.1 hc.nodup
    rw [hinvoked,map_append]
    exact hnodup.sublist ((List.Sublist.refl _).append ((List.Sublist.refl _).append hsublist))
  · intro message hmessage
    rw [hcalls]
    exact hc.waiting message (hwaiting.mem_iff.2 (mem_append_right _ hmessage))
  · intro completion hcompletion
    rw [hinvoked] at hcompletion
    rw [hcalls]
    rcases mem_append.1 hcompletion with hcompletion | hcompletion
    · exact hc.invoked completion hcompletion
    · obtain ⟨message,hmessage,hticket,_⟩ := hmem hcompletion
      exact ⟨_,hc.waiting message (hwaiting.mem_iff.2 (mem_append_left _ hmessage)),hticket⟩
  · intro call hcall hok cb hcb
    rw [hcalls] at hcall
    rw [hinvoked]
    rcases hc.due call hcall hok cb hcb with ⟨message,hmessage,hticket,hmcb⟩ | ⟨completion,hcompletion,hticket⟩
    · rcases mem_append.1 (hwaiting.mem_iff.1 hmessage) with hmessage | hmessage
      · have hcompletion : ⟨message.ticket,cb,result⟩ ∈ messages.flatMap (completion result) :=
          mem_flatMap.2 ⟨message,hmessage,by simp [completion,hmcb]⟩
        exact .inr ⟨_,mem_append_right _ hcompletion,hticket,rfl⟩
      · exact .inl ⟨message,hmessage,hticket,hmcb⟩
    · exact .inr ⟨completion,mem_append_left _ hcompletion,hticket⟩

lemma perm_cons_eraseP {α : Type} {p a} {l : List α} (h : l.find? p = some a) : l.Perm (a :: l.eraseP p) := by
  induction l with
  | nil => cases h
  | cons b l ih =>
    by_cases hb : p b
    · rw [List.find?_cons_of_pos hb] at h
      rw [eraseP_cons_of_pos hb,some.inj h]
    · rw [List.find?_cons_of_neg hb] at h
      rw [eraseP_cons_of_neg hb]
      exact ((ih h).cons b).trans (.swap a b _)
lemma Connection.Acks.accounted {packetId message} (h : c.Acks now packetId message d)
    (hc : c.Accounted) : d.Accounted := by
  refine hc.settled [message.reset] (.ok ()) ?_ h.calls ?_
  · have hperm := (perm_cons_eraseP h.found).map reset
    rw [← h.sendQueue] at hperm
    exact hperm
  · rw [h.invoked]
    simp [completion,reset]
lemma close_eq (c : Connection K R) : c.close.sendQueue = [] ∧ c.close.calls = c.calls ∧
    c.close.invoked = c.invoked ++ c.sendQueue.flatMap (completion (.error .aborted)) := by
  unfold close
  dsimp only
  split <;> exact ⟨rfl,rfl,rfl⟩
lemma close_accounted (hc : c.Accounted) : c.close.Accounted := by
  obtain ⟨hqueue,hcalls,hinvoked⟩ := close_eq c
  refine hc.settled c.waiting (.error .aborted) ?_ hcalls ?_
  · rw [show c.close.waiting = [] from congrArg (map _) hqueue,append_nil]
  · rw [hinvoked,waiting,flatMap_map]
    rfl

lemma Connection.Does.accounted {label} (h : c.Does now label d) (hc : c.Accounted) : d.Accounted := by
  cases h with
  | idles => exact hc
  | drops => exact hc.of_eq rfl rfl rfl
  | runs _ _ hmoves | moves _ hmoves => exact hc.of_eq hmoves.waiting hmoves.calls hmoves.invoked
  | acks _ hacks => exact hacks.accounted hc
  | prepares _ _ hprepares =>
    exact hc.of_eq (congrArg (List.map reset) hprepares.sendQueue) hprepares.calls hprepares.invoked
  | refuses =>
    exact hc.called [] [] rfl (append_nil _).symm (append_nil _).symm (nil_subset _) nodup_nil
      nofun nofun
  | fails message _ hticket =>
    refine hc.called [] _ rfl (append_nil _).symm rfl ?_ ?_ nofun nofun
    · cases hcb : message.cb <;> simp [completion,hcb,hticket]
    · cases hcb : message.cb <;> simp [completion,hcb]
  | enqueues message _ hticket =>
    refine hc.called [message.reset] [] rfl ?_ (append_nil _).symm ?_ ?_ ?_ nofun
    · exact map_append
    · simp [reset,hticket]
    · simp
    · simp [reset]
  | closes => exact close_accounted hc

/-- No callback was invoked for a call that returned an error. -/
def Connection.Silent (c : Connection K R) : Prop :=
  ∀ call ∈ c.calls, call.result ≠ .ok () → ∀ completion ∈ c.invoked, completion.ticket ≠ call.ticket

/-- Every call that succeeded with a callback has had it invoked, once. -/
def Connection.Completed (c : Connection K R) : Prop :=
  ∀ call ∈ c.calls, call.result = .ok () → ∀ cb, call.cb = some cb →
    ∃ result, c.invoked.filter (·.ticket = call.ticket) = [⟨call.ticket,cb,result⟩]

/-- A publish call with a callback does not run out of memory once it has a message. -/
def Label.hasMemory : Label K R → Prop
  | .publish uri _ buffer cb memory => uri = none ∨ buffer = none ∨ memory.message = false ∨ cb = none ∨
      memory.topicName ∧ memory.msgHandle
  | _ => True

/-- A message is published only before the connection is closed. -/
def Connection.publishesOpen (c : Connection K R) : Label K R → Prop
  | .publish (some _) _ (some _) _ memory => memory.message → memory.topicName →
      memory.msgHandle → c.closed = false
  | _ => True

variable {label : Label K R}

instance : Decidable label.hasMemory := by
  cases label <;> unfold Label.hasMemory <;> infer_instance
instance : Decidable (c.publishesOpen label) := by
  unfold Connection.publishesOpen
  split <;> infer_instance

lemma Connection.Silent.settled (hs : c.Silent) (hc : c.Accounted) (messages : List (Message K))
    (result : Except PrxError Unit) (hwaiting : messages.map reset ⊆ c.waiting) (hcalls : d.calls = c.calls)
    (hinvoked : d.invoked = c.invoked ++ messages.flatMap (completion result)) : d.Silent := by
  intro call hcall herror completion hcompletion
  rw [hcalls] at hcall
  rw [hinvoked] at hcompletion
  rcases mem_append.1 hcompletion with hcompletion | hcompletion
  · exact hs call hcall herror completion hcompletion
  · obtain ⟨message,hmessage,hcompletion⟩ := mem_flatMap.1 hcompletion
    obtain ⟨cb,_,rfl⟩ := map_eq_some_iff.1 (mem_toList.1 hcompletion)
    -- The message is that of a call that succeeded.
    have hok := hc.waiting _ (hwaiting (mem_map_of_mem hmessage))
    intro heq
    exact herror (inj_on_of_nodup_map (hc.tickets ▸ nodup_range) hok hcall heq ▸ rfl)

lemma Connection.Silent.called (hs : c.Silent) (hc : c.Accounted) {cb result}
    (hcalls : d.calls = c.calls ++ [⟨c.calls.length,cb,result⟩]) (hinvoked : d.invoked = c.invoked) : d.Silent := by
  intro call hcall herror completion hcompletion heq
  rw [hcalls] at hcall
  rw [hinvoked] at hcompletion
  rcases mem_append.1 hcall with hcall | hcall
  · exact hs call hcall herror completion hcompletion heq
  · cases mem_singleton.1 hcall
    exact hc.fresh (mem_append_right _ (mem_map.2 ⟨completion,hcompletion,heq⟩))
lemma Connection.Silent.of_eq (hs : c.Silent) (hcalls : d.calls = c.calls) (hinvoked : d.invoked = c.invoked) :
    d.Silent := by
  unfold Silent
  rw [hcalls,hinvoked]
  exact hs
lemma close_silent (hs : c.Silent) (hc : c.Accounted) : c.close.Silent := by
  obtain ⟨-,hcalls,hinvoked⟩ := close_eq c
  exact hs.settled hc c.sendQueue (.error .aborted) (.refl _) hcalls hinvoked

lemma Connection.Does.silent_iff (h : c.Does now label d) (hc : c.Accounted) (hs : c.Silent) :
    d.Silent ↔ label.hasMemory := by
  cases h with
  | idles | drops => exact iff_of_true hs trivial
  | runs _ _ hmoves | moves _ hmoves => exact iff_of_true (hs.of_eq hmoves.calls hmoves.invoked) trivial
  | @acks _ message _ _ hacks =>
    refine iff_of_true (hs.settled hc [message] (.ok ()) ?_ hacks.calls ?_) trivial
    · intro waiting hwaiting
      cases mem_singleton.1 hwaiting
      exact mem_map_of_mem (mem_of_find?_eq_some hacks.found)
    · rw [hacks.invoked,flatMap_singleton]
  | prepares hprepares _ hd =>
    refine iff_of_true (hs.of_eq hd.calls hd.invoked) ?_
    cases label <;> trivial
  | refuses cb e _ hnone =>
    exact iff_of_true (hs.called hc rfl rfl) (hnone.imp_right (.imp_right .inl))
  | fails message _ hticket hmemory hfails =>
    constructor
    · intro hd
      refine .inr (.inr (.inr (.inl ?_)))
      cases hcb : message.cb with
      | none => rfl
      | some cb =>
        refine absurd ?_ (hd ⟨c.calls.length,message.cb,.error .outOfMemory⟩
          (mem_append_right _ mem_cons_self) nofun ⟨message.ticket,cb,.error .outOfMemory⟩ ?_)
        · exact hticket
        · refine mem_append_right _ ?_
          simp [completion,hcb]
    · rintro (hnone | hnone | hnone | hnone | ⟨htopic,hhandle⟩)
      · cases hnone
      · cases hnone
      · cases hmemory.symm.trans hnone
      · refine hs.called hc rfl ?_
        simp [published,completion,hnone]
      · rcases hfails with hfails | hfails
        · cases hfails.symm.trans htopic
        · cases hfails.symm.trans hhandle
  | enqueues message _ _ _ _ _ htopic hhandle =>
    exact iff_of_true (hs.called hc rfl rfl) (.inr (.inr (.inr (.inr ⟨htopic,hhandle⟩))))
  | closes => exact iff_of_true (close_silent hs hc) trivial

def Connection.Drained (c : Connection K R) : Prop :=
  c.closed → c.sendQueue = []
lemma Connection.Moves.drained {cause} (h : c.Moves now cause d) (hc : c.Drained) : d.Drained := by
  intro hclosed
  have hwaiting := h.waiting
  unfold Connection.waiting at hwaiting
  rw [hc (h.closed ▸ hclosed)] at hwaiting
  exact map_eq_nil_iff.1 hwaiting

lemma Connection.Does.drained (h : c.Does now label d) (hlabel : c.publishesOpen label) (hc : c.Drained) :
    d.Drained := by
  cases h with
  | runs _ _ hmoves | moves _ hmoves => exact hmoves.drained hc
  | acks _ hacks =>
    intro hclosed
    rw [hacks.sendQueue,hc (hacks.closed ▸ hclosed)]
    rfl
  | prepares _ _ hd => exact fun hclosed => hd.sendQueue.trans (hc (hd.closed ▸ hclosed))
  | enqueues message _ _ _ _ hmemory htopic hhandle =>
    intro hclosed
    cases (hlabel hmemory htopic hhandle).symm.trans hclosed
  | closes => exact fun _ => (close_eq c).1
  | _ => exact hc

lemma filter_ticket_length_le (hc : c.Accounted) (ticket : ℕ) : (c.invoked.filter (·.ticket = ticket)).length ≤ 1 := by
  have hnodup := hc.nodup.of_append_right
  have hcount := nodup_iff_count_le_one.1 hnodup ticket
  rw [count_eq_countP,countP_map,countP_eq_length_filter] at hcount
  exact hcount
lemma completed_of_drained (hc : c.Accounted) (hempty : c.sendQueue = []) : c.Completed := by
  intro call hcall hok cb hcb
  rcases hc.due call hcall hok cb hcb with ⟨message,hmessage,_⟩ | ⟨completion,hmem,hticket,rfl⟩
  · rw [waiting,hempty] at hmessage
    cases hmessage
  · have hfilter : completion ∈ c.invoked.filter (·.ticket = call.ticket) := by
      exact mem_filter.2 ⟨hmem,decide_eq_true hticket⟩
    have hle := filter_ticket_length_le hc call.ticket
    obtain ⟨first,hfirst⟩ := length_eq_one_iff.1 (Nat.le_antisymm hle (length_pos_of_mem hfilter))
    rw [hfirst] at hfilter
    rw [hfirst,← mem_singleton.1 hfilter]
    exact ⟨completion.result,by rw [← hticket]⟩

variable {s t : System K R} {address : Address} {clientId : String} {memory clientIdMemory : Bool}
  {clone scheduler : Except PrxError Unit}

lemma step_accounted (hs : s.connection.Accounted) (h : s.step label = some t) : t.connection.Accounted :=
  (System.does_of_step h).accounted hs
lemma create_accounted (created : create address clientId memory clientIdMemory clone scheduler = .ok c) :
    c.Accounted := by
  obtain ⟨_,hqueue,_,_,_,hcalls,hinvoked,_⟩ := create_eq created
  constructor <;> simp [waiting,hqueue,hcalls,hinvoked]

/-- A callback is invoked at most once, and not for a call that returns an error exactly if no call with a callback
runs out of memory once it has a message. Callbacks of calls before the close have been invoked when the connection is
freed. -/
theorem publishes_completed (address : Address) (clientId : String) (memory clientIdMemory : Bool)
    (clone scheduler : Except PrxError Unit) {c : Connection K R}
    (created : Connection.create address clientId memory clientIdMemory clone scheduler = .ok c) (clock : ℤ)
    {labels : List (Label K R)} {s : System K R} (hruns : Runs System.step ⟨c,clock⟩ labels s) :
    (∀ ticket, (s.connection.invoked.filter (·.ticket = ticket)).length ≤ 1) ∧
    (Always System.step (fun u => u.connection.Silent) ⟨c,clock⟩ labels ↔
      Along System.step (fun _ label => label.hasMemory) ⟨c,clock⟩ labels) ∧
    (Along System.step (fun u label => u.connection.publishesOpen label) ⟨c,clock⟩ labels →
      s.connection.frees ≠ 0 → s.connection.Completed) := by
  obtain ⟨_,hqueue,_,_,_,hcalls,_,_⟩ := create_eq created
  have hs : s.connection.Accounted :=
    hruns.invariant (I := fun s => s.connection.Accounted) (fun hs _ h => step_accounted hs h) along_true
      (create_accounted created)
  refine ⟨filter_ticket_length_le hs,?_,fun hopen hfrees => ?_⟩
  · refine hruns.always_iff (I := fun s => s.connection.Accounted) (fun hs hsilent h => ?_)
      (create_accounted created) ?_
    · exact ⟨step_accounted hs h,(System.does_of_step h).silent_iff hs hsilent⟩
    · intro call hcall
      rw [hcalls] at hcall
      cases hcall
  · have hstep {s t : System K R} {label : Label K R} (hs : s.connection.Owned ∧ s.connection.Drained)
        hlabel (h : s.step label = some t) :
        t.connection.Owned ∧ t.connection.Drained :=
      ⟨step_owned hs.1 h,(System.does_of_step h).drained hlabel hs.2⟩
    obtain ⟨howned,hdrained⟩ := hruns.invariant hstep hopen ⟨create_owned created,fun _ => hqueue⟩
    rcases howned.frees with hzero | ⟨_,hclosed,_⟩
    · exact absurd hzero hfrees
    · exact completed_of_drained hs (hdrained hclosed)

def twoMessages : List (Label ℕ ℕ) :=
  opened ++ [.publish (some ['a']) none (some [1]) (some 7) {},.run 1 {},
    .publish (some ['b']) none (some [2]) (some 8) {},.event (.publishAck (some 1)),.close,.run 3 {},
    .event .disconnected,.run 4 {}]
theorem twoMessages_completed : ∃ s, Runs System.step ⟨edge,0⟩ twoMessages s ∧ s.connection.frees = 1 ∧
    s.connection.calls.length = 2 ∧ Always System.step (fun u => u.connection.Silent) ⟨edge,0⟩ twoMessages ∧
    s.connection.Completed := by
  obtain ⟨s,hs,hfrees,hcalls⟩ : ∃ s, Runs System.step ⟨edge,0⟩ twoMessages s ∧ s.connection.frees = 1 ∧
      s.connection.calls.length = 2 := by decide +kernel
  obtain ⟨_,hsilent,hcompleted⟩ := publishes_completed hub "edge" true true (.ok ()) (.ok ()) edge_created 0 hs
  exact ⟨s,hs,hfrees,hcalls,hsilent.2 (by decide +kernel),hcompleted (by decide +kernel) (hfrees ▸ Nat.one_ne_zero)⟩

/-- A call that runs out of memory for the topic invokes its callback; that of a message that is published after the
close is not invoked. -/
theorem lateCalls_not_completed :
    (∃ s, Runs System.step ⟨edge,0⟩ [.publish (some ['a']) none (some [1]) (some 7) { topicName := false }] s ∧
      ¬s.connection.Silent) ∧
    ∃ s, Runs System.step ⟨edge,0⟩ [.close,.publish (some ['a']) none (some [1]) (some 7) {},.run 0 {}] s ∧
      s.connection.frees = 1 ∧ ¬s.connection.Completed := by
  constructor
  · refine ⟨_,.step rfl (.refl _),fun hsilent => ?_⟩
    exact hsilent ⟨0,some 7,.error .outOfMemory⟩ mem_cons_self nofun ⟨0,7,.error .outOfMemory⟩
      mem_cons_self rfl
  · refine ⟨_,.step rfl (.step rfl (.step rfl (.refl _))),rfl,fun hcompleted => ?_⟩
    obtain ⟨result,⟨⟩⟩ := hcompleted ⟨0,some 7,.ok ()⟩ mem_cons_self rfl 7 rfl

end EdgeProxy.Mqtt
