import EdgeProxy.Mqtt.Exchange

/-! # The state of subscriptions

A subscription is subscribed on the word of an acknowledgement, which is truthful unless an id is taken again while a
subscription waits for it.
-/
namespace EdgeProxy.Mqtt
open Base Lib List Subscription Mqtt.System Option

variable {K R : Type} {c : Connection K R}

variable {g : Prop} {x y : Exchange R} {label : Label K R}

def Packet.Requests (uri : List Char) (subscribed : Bool) : Packet → Prop
  | .subscribe _ topics => subscribed ∧ uri ∈ topics
  | .unsubscribe .. => subscribed = false
  | _ => False

/-- Without a socket nothing is subscribed. The packet that a subscription waits for was sent on the current
connection, and no later one has its id. -/
structure Exchange.Recorded (x : Exchange R) : Prop where
  clean : x.socketIo = none → ∀ s ∈ x.subscriptions, s.Clean
  waiting : ∀ s ∈ x.subscriptions, s.pktid ≠ 0 →
    ∃ packet, packetOf x.sent s.pktid = some packet ∧ packet.Requests s.uri s.subscribed
  ids : ∀ packet ∈ recent x.sent, packet.ackId ≠ some 0

lemma nextId_ne_zero (counter : UInt16) : nextId counter ≠ 0 := by
  intro hzero
  have hid := nextId_toNat counter
  rw [hzero] at hid
  exact Nat.succ_ne_zero _ hid.symm

variable {s : Subscription R}

lemma isSubscribed_iff : s.isSubscribed ↔ s.pktid = 0 ∧ s.subscribed := by
  simp [isSubscribed]
lemma isUnsubscribed_iff : s.isUnsubscribed ↔ s.Clean := by
  simp [isUnsubscribed,Clean]
lemma Subscription.Clean.not_subscribed (h : s.Clean) : ¬s.isSubscribed := by
  simp [isSubscribed,h.2]

variable {packetId : UInt16} {packet : Packet}

lemma packetOf_eq_some {sent}
    (h : packetOf sent packetId = some packet) : packet ∈ recent sent ∧ packet.ackId = some packetId :=
  ⟨mem_of_find?_eq_some h,by simpa using List.find?_some h⟩
lemma Exchange.Recorded.ne_zero (hx : x.Recorded) {p} (h : (packetOf x.sent packetId).any p) : packetId ≠ 0 := by
  obtain ⟨packet,hpacket,_⟩ := (any_eq_true _ _).1 h
  obtain ⟨hmem,hack⟩ := packetOf_eq_some hpacket
  rintro rfl
  exact hx.ids packet hmem hack
lemma mem_map_ite {α : Type} {p : α → Prop} [DecidablePred p] {f : α → α} {l : List α} {a}
    (h : a ∈ l.map fun b => if p b then f b else b) : (∃ b ∈ l, p b ∧ a = f b) ∨ a ∈ l ∧ ¬p a := by
  obtain ⟨b,hb,rfl⟩ := mem_map.1 h
  by_cases hp : p b
  · exact .inl ⟨b,hb,hp,if_pos hp⟩
  · rw [if_neg hp]
    exact .inr ⟨hb,hp⟩

/-- A packet with a new id is waited for only by what it requests. -/
lemma Exchange.Recorded.sends (hx : x.Recorded) (hfree : x.IdFree) (hconnect : packet.isConnect = false)
    (hack : packet.ackId = some (nextId x.pktCounter)) (hsent : y.sent = x.sent ++ [packet])
    (hclean : y.socketIo = none → ∀ s ∈ y.subscriptions, s.Clean)
    (hsubs : ∀ s ∈ y.subscriptions, s ∈ x.subscriptions ∨
      s.pktid = nextId x.pktCounter ∧ packet.Requests s.uri s.subscribed) : y.Recorded := by
  refine ⟨hclean,fun s hs hne => ?_,?_⟩
  · rw [hsent]
    rcases hsubs s hs with hold | ⟨hid,hrequests⟩
    · rw [packetOf_append x.sent hconnect (by simpa [hack] using (hfree s hold).symm)]
      exact hx.waiting s hold hne
    · rw [hid]
      exact ⟨packet,packetOf_append_self x.sent hconnect hack,hrequests⟩
  · rw [hsent,recent_append x.sent hconnect]
    exact forall_mem_cons.2 ⟨fun h => nextId_ne_zero _ (some.inj (hack.symm.trans h)),hx.ids⟩
lemma Exchange.Recorded.answered (hx : x.Recorded) {g : Subscription R → Subscription R}
    (hg : ∀ r, (g r).pktid = 0) (hzero : packetId ≠ 0) (hsocket : y.socketIo = x.socketIo) (hsent : y.sent = x.sent)
    (hsubs : y.subscriptions = x.subscriptions.map fun r => if r.pktid = packetId then g r else r) : y.Recorded := by
  refine ⟨fun hnone s hs => ?_,fun s hs hne => ?_,hsent ▸ hx.ids⟩
  · rcases mem_map_ite (hsubs ▸ hs) with ⟨r,hr,rfl,-⟩ | ⟨hs,-⟩
    · exact absurd (hx.clean (hsocket ▸ hnone) r hr).1 hzero
    · exact hx.clean (hsocket ▸ hnone) s hs
  · rw [hsent]
    rcases mem_map_ite (hsubs ▸ hs) with ⟨r,-,-,rfl⟩ | ⟨hs,-⟩
    · exact absurd (hg r) hne
    · exact hx.waiting s hs hne

lemma Exchange.Effect.recorded (h : x.Effect g y label) (hg : g) (hx : x.Recorded) : y.Recorded := by
  cases h with
  | keeps hsubs hsent hsocket =>
    have hpacket (packetId : UInt16) : packetOf y.sent packetId = packetOf x.sent packetId := by
      rcases hsent with hsent | ⟨packet,hsent,hack,hconnect⟩
      · rw [hsent]
      · rw [hsent,packetOf_append x.sent hconnect (by simp [hack])]
    constructor
    · intro hnone s hs
      rcases hsubs s hs with hclean | ⟨r,hr,-,-,hpktid,hsubscribed⟩
      · exact hclean
      · have hclean := hx.clean (hsocket hnone) r hr
        exact ⟨hpktid ▸ hclean.1,hsubscribed ▸ hclean.2⟩
    · intro s hs hne
      rcases hsubs s hs with hclean | ⟨r,hr,-,huri,hpktid,hsubscribed⟩
      · exact absurd hclean.1 hne
      · rw [hpacket,← huri,← hpktid,← hsubscribed]
        exact hx.waiting r hr (hpktid ▸ hne)
    · rcases hsent with hsent | ⟨packet,hsent,hack,hconnect⟩
      · rw [hsent]
        exact hx.ids
      · rw [hsent,recent_append x.sent hconnect]
        exact forall_mem_cons.2 ⟨by simp [hack],hx.ids⟩
  | begins hnone hsome hsubs hsent =>
    constructor
    · intro hnone'
      exact absurd hnone' hsome
    · intro s hs hne
      exact absurd (hx.clean hnone s (hsubs ▸ hs)).1 hne
    · rw [hsent,recent_append_connect x.sent rfl]
      exact forall_mem_nil _
  | cleans hclean hsent =>
    constructor
    · intro _
      exact hclean
    · intro s hs hne
      exact absurd (hclean s hs).1 hne
    · rw [hsent]
      exact hx.ids
  | subscribes hsome hfree hsubs hsent =>
    refine hx.sends (hfree hg) rfl rfl hsent (fun hnone => absurd hnone (hsome hg)) fun s hs => ?_
    rcases mem_map_ite (hsubs ▸ hs) with ⟨r,hr,hun,rfl⟩ | ⟨hs,-⟩
    · exact .inr ⟨rfl,rfl,mem_map.2 ⟨r,mem_filter.2 ⟨hr,hun⟩,rfl⟩⟩
    · exact .inl hs
  | unsubscribes hsocket hfree hsubs hsent =>
    refine hx.sends (hfree hg) rfl rfl hsent (fun hnone s hs => ?_) fun s hs => ?_
    · rcases mem_map_ite (hsubs ▸ hs) with ⟨r,hr,hsub,-⟩ | ⟨hs,-⟩
      · exact absurd hsub (hx.clean (hsocket ▸ hnone) r hr).not_subscribed
      · exact hx.clean (hsocket ▸ hnone) s hs
    · rcases mem_map_ite (hsubs ▸ hs) with ⟨r,-,-,rfl⟩ | ⟨hs,-⟩
      · exact .inr ⟨rfl,rfl⟩
      · exact .inl hs
  | releases hsocket hfree hsubs hsent =>
    exact hx.sends (hfree hg) rfl rfl hsent (fun hnone s hs => hx.clean (hsocket ▸ hnone) s (hsubs hs)) fun s hs =>
      .inl (hsubs hs)
  | acks hsocket hsent _ hpacket hsubs | unacks hsocket hsent hpacket hsubs =>
    exact hx.answered (fun _ => rfl) (hx.ne_zero (hpacket hg)) hsocket hsent hsubs

lemma connects_of_sent {packet} (hconnect : packet.isConnect = false) (h : y.sent = x.sent ++ [packet]) :
    connects y.sent = connects x.sent := by
  rw [h,connects_append x.sent hconnect]
def Exchange.Acknowledges (x : Exchange R) (uri : List Char) (packetId : UInt16) (granted : List Bool) : Prop :=
  ∃ topics, .subscribe packetId topics ∈ recent x.sent ∧ uri ∈ topics ∧ granted = List.replicate topics.length true

lemma Exchange.Recorded.acknowledges (hx : x.Recorded) {granted} (hgranted : ∀ g ∈ granted, g = true)
    (hs : s ∈ x.subscriptions) (hne : s.pktid ≠ 0)
    (hpacket : (packetOf x.sent s.pktid).any (·.subscribes granted.length) = true) :
    x.Acknowledges s.uri s.pktid granted := by
  obtain ⟨packet,hfound,hrequests⟩ := hx.waiting s hs hne
  obtain ⟨hmem,hack⟩ := packetOf_eq_some hfound
  rw [hfound] at hpacket
  cases packet with
  | subscribe packetId topics =>
    cases hack
    have hlength : topics.length = granted.length := of_decide_eq_true hpacket
    exact ⟨topics,hmem,hrequests.2,eq_replicate_iff.2 ⟨hlength.symm,hgranted⟩⟩
  | _ => cases hpacket

/-- A subscription is subscribed as it was before on the same connection, or as it is acknowledged. -/
theorem Exchange.Effect.marks (h : x.Effect g y label) (hg : g) (hx : x.Recorded) (hs : s ∈ y.subscriptions)
    (hmarked : s.isSubscribed = true) : connects y.sent = connects x.sent ∧
      ((∃ r ∈ x.subscriptions, r.isSubscribed = true ∧ r.uri = s.uri) ∨
        ∃ packetId granted, label = .event (.subscribeAck (some (packetId,granted))) ∧
          x.Acknowledges s.uri packetId granted) := by
  cases h with
  | keeps hsubs hsent =>
    refine ⟨?_,.inl ?_⟩
    · rcases hsent with hsent | ⟨packet,hsent,-,hconnect⟩
      · rw [hsent]
      · exact connects_of_sent hconnect hsent
    · rcases hsubs s hs with hclean | ⟨r,hr,-,huri,hpktid,hsubscribed⟩
      · exact absurd hmarked hclean.not_subscribed
      · rw [isSubscribed_iff,← hpktid,← hsubscribed,← isSubscribed_iff] at hmarked
        exact ⟨r,hr,hmarked,huri⟩
  | begins hnone _ hsubs => exact absurd hmarked (hx.clean hnone s (hsubs ▸ hs)).not_subscribed
  | cleans hclean => exact absurd hmarked (hclean s hs).not_subscribed
  | subscribes _ _ hsubs hsent =>
    refine ⟨connects_of_sent rfl hsent,.inl ?_⟩
    rcases mem_map_ite (hsubs ▸ hs) with ⟨r,-,-,rfl⟩ | ⟨hs,-⟩
    · exact absurd (isSubscribed_iff.1 hmarked).1 (nextId_ne_zero x.pktCounter)
    · exact ⟨s,hs,hmarked,rfl⟩
  | unsubscribes _ _ hsubs =>
    rcases mem_map_ite (hsubs ▸ hs) with ⟨r,-,-,rfl⟩ | ⟨-,hsub⟩
    · exact absurd (isSubscribed_iff.1 hmarked).2 nofun
    · exact absurd hmarked hsub
  | releases _ _ hsubs hsent => exact ⟨connects_of_sent rfl hsent,.inl ⟨s,hsubs hs,hmarked,rfl⟩⟩
  | @acks packetId granted _ hsent hgranted hpacket hsubs =>
    refine ⟨by rw [hsent],?_⟩
    rcases mem_map_ite (hsubs ▸ hs) with ⟨r,hr,rfl,rfl⟩ | ⟨hs,-⟩
    · exact .inr ⟨r.pktid,granted,rfl,hx.acknowledges hgranted hr (hx.ne_zero (hpacket hg)) (hpacket hg)⟩
    · exact .inl ⟨s,hs,hmarked,rfl⟩
  | @unacks packetId _ hsent hpacket hsubs =>
    refine ⟨by rw [hsent],.inl ?_⟩
    rcases mem_map_ite (hsubs ▸ hs) with ⟨r,hr,rfl,rfl⟩ | ⟨hs,-⟩
    · -- What waits for an unsubscribe packet does not have the flag.
      obtain ⟨packet,hfound,hrequests⟩ := hx.waiting r hr (hx.ne_zero (hpacket hg))
      have hanswer := hpacket hg
      rw [hfound] at hanswer
      cases packet with
      | unsubscribe => cases hrequests.symm.trans (isSubscribed_iff.1 hmarked).2
      | _ => cases hanswer
    · exact ⟨s,hs,hmarked,rfl⟩

/-- What is not unsubscribed any more is in a subscribe packet. -/
theorem Exchange.Effect.leaves (h : x.Effect g y label) (hg : g) (hx : x.Recorded) (hs : s ∈ y.subscriptions)
    (hleft : ¬s.isUnsubscribed) : (∃ r ∈ x.subscriptions, r.key = s.key ∧ r.uri = s.uri ∧ ¬r.isUnsubscribed) ∨
      ∃ packetId topics, y.sent = x.sent ++ [.subscribe packetId topics] ∧ s.uri ∈ topics := by
  cases h with
  | keeps hsubs =>
    rcases hsubs s hs with hclean | ⟨r,hr,hkey,huri,hpktid,hsubscribed⟩
    · exact absurd (isUnsubscribed_iff.2 hclean) hleft
    · refine .inl ⟨r,hr,hkey,huri,fun hun => hleft ?_⟩
      obtain ⟨hzero,hflag⟩ := isUnsubscribed_iff.1 hun
      exact isUnsubscribed_iff.2 ⟨hpktid ▸ hzero,hsubscribed ▸ hflag⟩
  | begins _ _ hsubs => exact .inl ⟨s,hsubs ▸ hs,rfl,rfl,hleft⟩
  | cleans hclean => exact absurd (isUnsubscribed_iff.2 (hclean s hs)) hleft
  | subscribes _ _ hsubs hsent =>
    rcases mem_map_ite (hsubs ▸ hs) with ⟨r,hr,hun,rfl⟩ | ⟨hs,-⟩
    · exact .inr ⟨_,_,hsent,mem_map.2 ⟨r,mem_filter.2 ⟨hr,hun⟩,rfl⟩⟩
    · exact .inl ⟨s,hs,rfl,rfl,hleft⟩
  | unsubscribes _ _ hsubs =>
    left
    rcases mem_map_ite (hsubs ▸ hs) with ⟨r,hr,hsub,rfl⟩ | ⟨hs,-⟩
    · exact ⟨r,hr,rfl,rfl,fun hun => (isUnsubscribed_iff.1 hun).not_subscribed hsub⟩
    · exact ⟨s,hs,rfl,rfl,hleft⟩
  | releases _ _ hsubs => exact .inl ⟨s,hsubs hs,rfl,rfl,hleft⟩
  | acks _ _ _ hpacket hsubs | unacks _ _ hpacket hsubs =>
    left
    rcases mem_map_ite (hsubs ▸ hs) with ⟨r,hr,rfl,rfl⟩ | ⟨hs,-⟩
    · exact ⟨r,hr,rfl,rfl,fun hun => hx.ne_zero (hpacket hg) (isUnsubscribed_iff.1 hun).1⟩
    · exact ⟨s,hs,rfl,rfl,hleft⟩

lemma Exchange.Effect.includes (h : x.Effect g y label) {packetId topics}
    (hsent : y.sent = x.sent ++ [.subscribe packetId topics]) (hs : s ∈ x.subscriptions)
    (hun : s.isUnsubscribed) : s.uri ∈ topics := by
  have hlast {packet : Packet} (h : y.sent = x.sent ++ [packet]) : packet = .subscribe packetId topics :=
    singleton_inj.1 (append_cancel_left (h.symm.trans hsent))
  have hgrows : y.sent ≠ x.sent := by
    rw [hsent]
    simp
  cases h with
  | keeps _ hkept =>
    rcases hkept with hkept | ⟨packet,hkept,hack,-⟩
    · exact absurd hkept hgrows
    · cases hlast hkept
      cases hack
  | begins _ _ _ hconnect => cases hlast hconnect
  | cleans _ hkept | acks _ hkept | unacks _ hkept => exact absurd hkept hgrows
  | subscribes _ _ _ hsubscribe =>
    cases hlast hsubscribe
    exact mem_map.2 ⟨s,mem_filter.2 ⟨hs,hun⟩,rfl⟩
  | unsubscribes _ _ _ hunsubscribe | releases _ _ _ hunsubscribe => cases hlast hunsubscribe

variable {start s t : System K R} {labels : List (Label K R)} {address : Address}
  {clientId : String} {memory clientIdMemory : Bool} {clone scheduler : Except PrxError Unit}

/-- In a run there was a successful acknowledgement of a subscribe packet with the topic, when the connection was the
one that the packets of `sent` end with. -/
def AckedIn (start : System K R) (labels : List (Label K R)) (sent : List Packet) (uri : List Char) : Prop :=
  ∃ before after u packetId granted, labels = before ++ .event (.subscribeAck (some (packetId,granted))) :: after ∧
    Runs System.step start before u ∧ u.connection.exchange.Acknowledges uri packetId granted ∧
    connects u.connection.sent = connects sent

structure Truthful (start : System K R) (labels : List (Label K R)) (s : System K R) : Prop where
  idle : s.connection.Idle
  recorded : s.connection.exchange.Recorded
  marked : ∀ sub ∈ s.connection.subscriptions, sub.isSubscribed →
    AckedIn start labels s.connection.sent sub.uri

lemma System.effect_of_step (h : s.step label = some t) :
    s.connection.exchange.Effect (s.connection.Trusted label) t.connection.exchange label := by
  obtain ⟨connection,hstep,rfl⟩ := map_eq_some_iff.1 h
  exact (step_exchanges hstep).1

lemma step_truthful (hruns : Runs step start labels s) (hs : Truthful start labels s)
    (hgenuine : s.connection.genuine label) (h : s.step label = some t) : Truthful start (labels ++ [label]) t := by
  have htrusted : s.connection.Trusted label := ⟨hs.idle,hgenuine⟩
  have heffect := effect_of_step h
  refine ⟨?_,heffect.recorded htrusted hs.recorded,fun sub hsub hmarked => ?_⟩
  · obtain ⟨connection,hstep,rfl⟩ := map_eq_some_iff.1 h
    exact (step_exchanges hstep).2 htrusted
  · obtain ⟨hconnects,⟨r,hr,hold,huri⟩ | ⟨packetId,granted,rfl,hacks⟩⟩ :=
      heffect.marks htrusted hs.recorded hsub hmarked
    · obtain ⟨before,after,u,packetId,granted,hsplit,hbefore,hacks,hsame⟩ := hs.marked r hr hold
      refine ⟨before,after ++ [label],u,packetId,granted,?_,hbefore,huri ▸ hacks,hsame.trans hconnects.symm⟩
      rw [hsplit,append_assoc]
      rfl
    · exact ⟨labels,[],s,packetId,granted,rfl,hruns,hacks,hconnects.symm⟩

lemma create_truthful (created : Connection.create address clientId memory clientIdMemory clone scheduler = .ok c)
    (clock : ℤ) : Truthful ⟨c,clock⟩ [] ⟨c,clock⟩ := by
  have hempty : c.subscriptions = [] ∧ c.sent = [] := by
    cases memory <;> cases clientIdMemory <;> cases clone <;> cases scheduler <;> cases created
    exact ⟨rfl,rfl⟩
  obtain ⟨hsubs,hsent⟩ := hempty
  obtain ⟨htasks,_,hstatus,_⟩ := create_eq created
  refine ⟨fun _ => ⟨?_,fun _ hconnected => ?_⟩,⟨fun _ => ?_,?_,?_⟩,?_⟩
  · rw [htasks]
    exact forall_mem_nil _
  · cases hstatus.symm.trans hconnected
  · change ∀ sub ∈ c.subscriptions, sub.Clean
    rw [hsubs]
    exact forall_mem_nil _
  · intro sub hsub
    change sub ∈ c.subscriptions at hsub
    rw [hsubs] at hsub
    cases hsub
  · change ∀ packet ∈ recent c.sent, packet.ackId ≠ some 0
    rw [hsent]
    exact forall_mem_nil _
  · exact hsubs ▸ forall_mem_nil _

/-- Along genuine runs what is subscribed was acknowledged on the current connection, what has only the flag waits for
an acknowledgement, and a subscription is unsubscribed until it is in a subscribe packet, which has all such topics. -/
theorem subscriptions_truthful (address : Address) (clientId : String) (memory clientIdMemory : Bool)
    (clone scheduler : Except PrxError Unit) {c : Connection K R}
    (created : Connection.create address clientId memory clientIdMemory clone scheduler = .ok c) (clock : ℤ)
    {labels : List (Label K R)} {s : System K R} (hruns : Runs System.step ⟨c,clock⟩ labels s) :
    (Along System.step (fun u label => u.connection.genuine label) ⟨c,clock⟩ labels →
      (∀ sub ∈ s.connection.subscriptions, sub.isSubscribed →
        AckedIn ⟨c,clock⟩ labels s.connection.sent sub.uri) ∧
      (∀ sub ∈ s.connection.subscriptions, sub.subscribed → sub.pktid ≠ 0 →
        ∃ topics, .subscribe sub.pktid topics ∈ recent s.connection.sent ∧ sub.uri ∈ topics) ∧
      ∀ label t, s.connection.genuine label → s.step label = some t → ∀ sub ∈ t.connection.subscriptions,
        ¬sub.isUnsubscribed →
        (∃ r ∈ s.connection.subscriptions, r.key = sub.key ∧ r.uri = sub.uri ∧ ¬r.isUnsubscribed) ∨
        ∃ packetId topics, t.connection.sent = s.connection.sent ++ [.subscribe packetId topics] ∧ sub.uri ∈ topics) ∧
    ∀ label t packetId topics, s.step label = some t →
      t.connection.sent = s.connection.sent ++ [.subscribe packetId topics] →
      ∀ sub ∈ s.connection.subscriptions, sub.isUnsubscribed → sub.uri ∈ topics := by
  refine ⟨fun hgenuine => ?_,fun label t packetId topics hstep hsent sub hsub hun => ?_⟩
  · have hs : Truthful ⟨c,clock⟩ labels s :=
      hruns.invariant_history step_truthful hgenuine (create_truthful created clock)
    refine ⟨hs.marked,fun sub hsub hflag hne => ?_,fun label t hg hstep sub hsub hleft => ?_⟩
    · obtain ⟨packet,hfound,hrequests⟩ := hs.recorded.waiting sub hsub hne
      obtain ⟨hmem,hack⟩ := packetOf_eq_some hfound
      cases packet with
      | subscribe packetId topics =>
        cases hack
        exact ⟨topics,hmem,hrequests.2⟩
      | unsubscribe => cases hrequests.symm.trans hflag
      | _ => cases hack
    · exact (System.effect_of_step hstep).leaves ⟨hs.idle,hg⟩ hs.recorded hsub hleft
  · exact (System.effect_of_step hstep).includes hsent hsub hun

def subscribing : List (Label ℕ ℕ) :=
  opened ++ [.subscribe (some ['a']) (some 1) true true,.run 1 {}]
def subscribed : List (Label ℕ ℕ) :=
  subscribing ++ [.event (.subscribeAck (some (1,[true])))]

/-- The subscription is acknowledged, and the next one is in the next subscribe packet. -/
theorem subscribed_truthful : ∃ s t, Runs System.step ⟨edge,0⟩ subscribed s ∧
    (∃ sub ∈ s.connection.subscriptions, sub.isSubscribed ∧
      AckedIn ⟨edge,0⟩ subscribed s.connection.sent sub.uri) ∧
    Runs System.step ⟨edge,0⟩ (subscribed ++ [.run 1 {},.subscribe (some ['b']) (some 2) true true]) t ∧
    ∃ u, t.step (.run 1 {}) = some u ∧ u.connection.sent = t.connection.sent ++ [.subscribe 2 [['b']]] ∧
      ∀ sub ∈ t.connection.subscriptions, sub.isUnsubscribed → sub.uri ∈ [['b']] := by
  obtain ⟨s,hs,sub,hsub,hmarked⟩ : ∃ s, Runs System.step ⟨edge,0⟩ subscribed s ∧
      ∃ sub ∈ s.connection.subscriptions, sub.isSubscribed := by decide +kernel
  have hsubscribed := ((subscriptions_truthful hub "edge" true true (.ok ()) (.ok ()) edge_created 0 hs).1
    (by decide +kernel)).1 sub hsub hmarked
  obtain ⟨t,ht,u,hu,hsent⟩ : ∃ t,
      Runs System.step ⟨edge,0⟩ (subscribed ++ [.run 1 {},.subscribe (some ['b']) (some 2) true true]) t ∧
      ∃ u, t.step (.run 1 {}) = some u ∧ u.connection.sent = t.connection.sent ++ [.subscribe 2 [['b']]] := by
    decide +kernel
  have hincludes := (subscriptions_truthful hub "edge" true true (.ok ()) (.ok ()) edge_created 0 ht).2
    (.run 1 {}) u 2 [['b']] hu hsent
  exact ⟨s,t,hs,⟨sub,hsub,hmarked,hsubscribed⟩,ht,u,hu,hsent,hincludes⟩

def failOne : Label ℕ ℕ :=
  .publish (some ['a']) none (some [1]) none { topicName := false }
lemma iterate_nextId_toNat (n : ℕ) {counter} (h : counter ≠ 0) :
    (nextId^[n] counter).toNat = (counter.toNat + n - 1) % 65535 + 1 := by
  have hpos : 0 < counter.toNat := Nat.pos_of_ne_zero fun hzero => h (UInt16.toNat_inj.1 hzero)
  induction n with
  | zero =>
    have hlt := counter.toNat_lt
    rw [Function.iterate_zero_apply]
    omega
  | succ =>
    rw [Function.iterate_succ_apply',nextId_toNat]
    omega
lemma step_failOne {s : System ℕ ℕ} (hfrees : s.connection.frees = 0) :
    s.step failOne = some { s with connection := { s.connection with
      pktCounter := nextId s.connection.pktCounter
      draws := s.connection.draws + 1
      calls := s.connection.calls ++ [⟨s.connection.calls.length,none,.error .outOfMemory⟩]
      invoked := s.connection.invoked ++ [] } } := by
  unfold step Connection.step
  rw [if_neg (by simp [hfrees])]
  rfl
lemma runs_failMany {s : System ℕ ℕ} (hfrees : s.connection.frees = 0) (n : ℕ) :
    ∃ draws calls invoked, Runs step s (List.replicate n failOne) { s with connection := { s.connection with
      pktCounter := nextId^[n] s.connection.pktCounter, draws, calls, invoked } } := by
  induction n with
  | zero => exact ⟨_,_,_,.refl s⟩
  | succ n ih =>
    obtain ⟨draws,calls,invoked,hruns⟩ := ih
    rw [replicate_succ',Function.iterate_succ_apply']
    exact ⟨_,_,_,hruns.append (.step (step_failOne hfrees) (.refl _))⟩

def unanswered : List (Label ℕ ℕ) :=
  [.run 1 {},.subscribe (some ['b']) (some 2) true true,.run 1 {}]
def released : List (Label ℕ ℕ) :=
  [.release 0,.run 1 {},.event (.unsubscribeAck (some 2))]
def Label.isSubscribeAck : Label K R → Bool
  | .event (.subscribeAck _) => true
  | _ => false

lemma runs_released : ∃ s, Runs step ⟨edge,0⟩ (subscribed ++ unanswered) s ∧ s.connection.frees = 0 ∧
    s.connection.pktCounter = 2 ∧ ∀ draws calls invoked, ∃ t,
      Runs step { s with connection := { s.connection with pktCounter := 1, draws, calls, invoked } }
        released t ∧ t.connection.subscriptions = [⟨1,['b'],true,0,some 2⟩] ∧
      t.connection.sent.drop 1 = [.subscribe 1 [['a']],.subscribe 2 [['b']],.unsubscribe 2 [['a']]] := by
  have hrun : (run step ⟨edge,0⟩ (subscribed ++ unanswered)).isSome := by decide +kernel
  refine ⟨_,runs_of_run (some_get hrun).symm,rfl,rfl,fun draws calls invoked => ?_⟩
  exact ⟨_,runs_of_run rfl,rfl,rfl⟩
def reusing : List (Label ℕ ℕ) :=
  unanswered ++ List.replicate 65534 failOne ++ released
lemma reusing_not_ack : ∀ label ∈ reusing, label.isSubscribeAck = false := by
  intro label hlabel
  rcases mem_append.1 hlabel with hlabel | hlabel
  · rcases mem_append.1 hlabel with hlabel | hlabel
    · exact (by decide : ∀ label ∈ unanswered, label.isSubscribeAck = false) label hlabel
    · rw [eq_of_mem_replicate hlabel]
      rfl
  · exact (by decide : ∀ label ∈ released, label.isSubscribeAck = false) label hlabel

/-- An id that a subscription waits for is taken again, and the acknowledgement of that makes it subscribed. -/
theorem reusing_not_truthful : ∃ s, Runs System.step ⟨edge,0⟩ (subscribed ++ reusing) s ∧
    (∃ sub ∈ s.connection.subscriptions, sub.isSubscribed ∧ sub.uri = ['b']) ∧
    (s.connection.sent.drop 1) = [.subscribe 1 [['a']],.subscribe 2 [['b']],.unsubscribe 2 [['a']]] ∧
    ¬AckedIn ⟨edge,0⟩ (subscribed ++ reusing) s.connection.sent ['b'] := by
  obtain ⟨s,hs,hfrees,hcounter,hreleased⟩ := runs_released
  obtain ⟨draws,calls,invoked,hfails⟩ := runs_failMany hfrees 65534
  obtain ⟨t,ht,hsubs,hsent⟩ := hreleased draws calls invoked
  have hwraps : nextId^[65534] s.connection.pktCounter = 1 := by
    rw [hcounter]
    apply UInt16.toNat_inj.1
    exact iterate_nextId_toNat 65534 (by decide)
  rw [hwraps] at hfails
  have hruns := (hs.append hfails).append ht
  refine ⟨t,hruns,⟨_,hsubs ▸ mem_cons_self,rfl,rfl⟩,hsent,?_⟩
  rintro ⟨before,after,u,packetId,granted,hsplit,hbefore,⟨topics,hpacket,huri,_⟩,_⟩
  -- There is only one acknowledgement of a subscribe packet, and only one packet was sent before.
  have hsubscribing : ∀ label ∈ subscribing, label.isSubscribeAck = false := by decide
  have hbefore' : .event (.subscribeAck (some (packetId,granted))) ∉ subscribing := by
    intro h
    cases hsubscribing _ h
  have hafter : .event (.subscribeAck (some (packetId,granted))) ∉ reusing := by
    intro h
    cases reusing_not_ack _ h
  obtain ⟨rfl,_⟩ := (append_cons_inj_of_notMem hbefore' hafter).1 hsplit
  have honly : (run System.step ⟨edge,0⟩ subscribing).all fun u =>
      recent u.connection.sent = [.subscribe 1 [['a']]] := by decide +kernel
  rw [run_of_runs hbefore] at honly
  rw [Connection.exchange,of_decide_eq_true honly] at hpacket
  cases mem_singleton.1 hpacket
  cases mem_singleton.1 huri

end EdgeProxy.Mqtt
