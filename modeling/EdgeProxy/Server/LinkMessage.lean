import EdgeProxy.Server.Table

/-! # The link message of a server socket

A link request is answered when the open of its socket completes. The server stores the message until then without
taking a reference, and the transport releases the only one as soon as the handler has returned.
-/
namespace EdgeProxy.Server
open Base Codec Lib List PrxServer

variable {c c' : Cell} {calls : Calls} {event : Event}

structure SameLink (c c' : Cell) : Prop where
  link : c'.socket.linkMessage = c.socket.linkMessage
  pending : c'.tasks.count .openComplete = c.tasks.count .openComplete
  responses : c'.history.linkResponses = c.history.linkResponses
  events : c'.history.openedEvents = c.history.openedEvents
  freed : c'.history.freed = c.history.freed

lemma Collects.sameLink (h : Collects c calls c') : SameLink c c' := by
  cases h with
  | closed => exact ⟨rfl,by simp [Cell.onClosed,Cell.doNext,Cell.startClose,Cell.setState],rfl,rfl,rfl⟩
  | _ => exact ⟨rfl,rfl,rfl,rfl,rfl⟩
lemma Leaves.count_openComplete {tasks} (h : Leaves c tasks) :
    tasks.count .openComplete = c.tasks.count .openComplete := by
  rcases h with rfl | ⟨_,_,_,rfl⟩
  · simp
  · rfl
lemma Returns.count_openComplete {tasks} (h : Returns c tasks) :
    tasks.count .openComplete = c.tasks.count .openComplete := by
  rcases h with rfl | rfl
  · rfl
  · simp

lemma Takes.sameLink (h : Takes c event calls c') (complete : event ≠ .task .openComplete)
    (free : event ≠ .task .free) : SameLink c c' := by
  cases h with
  | received idle table receives =>
    cases receives with
    | _ => exact ⟨rfl,rfl,rfl,rfl,rfl⟩
  | worker idle table works =>
    cases works with
    | closeTimedout _ _ leaves | leaves _ leaves => exact ⟨rfl,leaves.count_openComplete,rfl,rfl,rfl⟩
    | reverted _ _ collects | drops _ _ collects =>
      obtain ⟨link,pending,responses,events,freed⟩ := collects.sameLink
      exact ⟨link,pending,responses,events,freed⟩
    | collects state collects => exact collects.sameLink
    | _ => exact ⟨rfl,rfl,rfl,rfl,rfl⟩
  | openComplete => exact absurd rfl complete
  | closeComplete => exact ⟨rfl,by simp [Cell.setState],rfl,rfl,rfl⟩
  | deliverResults | timeoutPollrequest | receiveEnded | closed => exact ⟨rfl,by simp,rfl,rfl,rfl⟩
  | free => exact absurd rfl free
  | deliver delivers =>
    cases delivers with
    | returns _ returns | writeBack _ returns => exact ⟨rfl,returns.count_openComplete,rfl,rfl,rfl⟩
    | _ => exact ⟨rfl,rfl,rfl,rfl,rfl⟩
  | sendEnded sending bound result htasks =>
    rcases htasks with rfl | rfl
    · exact ⟨rfl,rfl,rfl,rfl,rfl⟩
    · exact ⟨rfl,by simp,rfl,rfl,rfl⟩
  | _ => exact ⟨rfl,rfl,rfl,rfl,rfl⟩

/-- Every opened event finds the link message with the connection to answer on, or was answered with one link response.
-/
structure LinkReady (c : Cell) : Prop where
  once : c.tasks.count .openComplete ≤ 1
  stored : Task.openComplete ∈ c.tasks →
    ∃ message, c.socket.linkMessage = some message ∧ message.context = some .listener
  answered : c.history.freed = 0 → c.history.undefined = false →
    c.history.linkResponses.length + c.tasks.count .openComplete = c.history.openedEvents

lemma SameLink.linkReady (h : SameLink c c') (defined : c.history.undefined = false) (hc : LinkReady c) :
    LinkReady c' where
  once := by
    rw [h.pending]
    exact hc.once
  stored queued := by
    rw [h.link]
    rw [← count_pos_iff,h.pending,count_pos_iff] at queued
    exact hc.stored queued
  answered free _ := by
    rw [h.responses,h.pending,h.events]
    exact hc.answered (h.freed ▸ free) defined

lemma Completes.linkReady (h : Completes { c with tasks := c.tasks.erase .openComplete } calls c')
    (live : c.live) (hc : LinkReady c) (queued : Task.openComplete ∈ c.tasks) : LinkReady c' := by
  obtain ⟨message,hlink,hcontext⟩ := hc.stored queued
  have hzero : (c.tasks.erase .openComplete).count .openComplete = 0 := by
    have honce := hc.once
    rw [count_erase_self]
    omega
  have hone : c.tasks.count .openComplete = 1 := by
    have hpos := count_pos_iff.2 queued
    have honce := hc.once
    omega
  have hle : (c.tasks.erase .openComplete).count .openComplete ≤ 1 := by omega
  have hnot : .openComplete ∉ c.tasks.erase .openComplete := count_eq_zero.1 hzero
  obtain ⟨free,defined⟩ : c.history.freed = 0 ∧ c.history.undefined = false := by
    simpa [Cell.live] using live
  have hanswered := hc.answered free defined
  have hresponses : ∀ {response : Message} {found : Message}, c.socket.linkMessage = some found →
      (c.history.linkResponses ++ found.context.toList.map fun _ => response).length + 0 = c.history.openedEvents := by
    intro response found hfound
    cases hlink.symm.trans hfound
    rw [hcontext]
    simp only [Option.toList_some,map_cons,map_nil,length_append,length_singleton]
    omega
  cases h with
  | missing link => exact absurd (hlink.symm.trans link) nofun
  | undefined => exact ⟨hle,fun queued => absurd queued hnot,nofun⟩
  | failed link | completed link =>
    exact ⟨hle,fun queued => absurd queued hnot,fun _ _ => hzero ▸ hresponses link⟩

lemma step_linkReady {label} (hc : LinkReady c) (h : c.step label = some c') : LinkReady c' := by
  obtain ⟨event,calls⟩ := label
  obtain ⟨live,takes⟩ := takes_of_step h
  by_cases complete : event = .task .openComplete
  · subst complete
    cases takes with
    | openComplete idle queued completes => exact completes.linkReady live hc queued
  · by_cases free : event = .task .free
    · subst free
      cases takes with
      | free => exact ⟨Nat.zero_le 1,nofun,nofun⟩
    · have defined : c.history.undefined = false := by
        simp only [Cell.live,decide_eq_true_eq] at live
        simpa using live.2
      exact (takes.sameLink complete free).linkReady defined hc

lemma Born.linkReady (born : Born c) : LinkReady c := by
  cases born with
  | accept => exact ⟨Nat.zero_le 1,nofun,fun _ _ => rfl⟩
  | link =>
    unfold linked Cell.prxServerHandleLinkrequest
    dsimp only
    split
    · split
      · exact ⟨Nat.le_refl 1,fun _ => ⟨_,rfl,rfl⟩,fun _ _ => rfl⟩
      · exact ⟨Nat.zero_le 1,nofun,fun _ _ => rfl⟩
    · split <;> exact ⟨Nat.zero_le 1,nofun,nofun⟩

/-- The link message is checked out while it is stored, an opened event that is still to be handled finds it, and every
other one was answered once. -/
structure LinkKept (c : Cell) : Prop where
  checkedOut : c.socket.linkMessage.isSome → 0 < c.linkRefs
  found : Task.openComplete ∈ c.tasks → c.socket.linkMessage.isSome
  answered : c.history.freed = 0 →
    c.history.linkResponses.length + c.tasks.count .openComplete = c.history.openedEvents

def LinksKept (s : PrxServer) : Prop :=
  s.undefined = false ∧ ∀ c ∈ s.sockets, LinkKept c

/-- No link request is stored, and no accept attempt calls the end callback. -/
def PrxServer.storesNone (s : PrxServer) (label : ServerLabel) : Bool :=
  match label.1 with
  | .link checked created _ _ palOpen => checked ≠ erOk ∨ created ≠ erOk ∨ palOpen.result ≠ erOk
  | .accept index calls => s.sockets[index]?.all fun listener => ¬calls.reachesEnd listener
  | _ => true

structure Unlinked (c : Cell) : Prop where
  checkedOut : c.socket.linkMessage.isSome → 0 < c.linkRefs
  pending : c.tasks.count .openComplete = 0
  holds : c.transportHolds = false
  answered : c.history.freed = 0 → c.history.linkResponses.length = c.history.openedEvents

lemma Unlinked.linkKept (h : Unlinked c) : LinkKept c where
  checkedOut := h.checkedOut
  found queued := absurd queued (count_eq_zero.1 h.pending)
  answered free := by
    rw [h.pending]
    exact h.answered free

lemma step_unlinked {label} (hc : Unlinked c) (h : c.step label = some c') : Unlinked c' := by
  obtain ⟨event,calls⟩ := label
  have takes := (takes_of_step h).2
  by_cases complete : event = .task .openComplete
  · subst complete
    cases takes with
    | openComplete idle queued => exact absurd queued (count_eq_zero.1 hc.pending)
  · by_cases free : event = .task .free
    · subst free
      cases takes with
      | free => exact ⟨nofun,rfl,hc.holds,nofun⟩
    · obtain ⟨link,pending,responses,events,freed⟩ := takes.sameLink complete free
      by_cases release : event = .transportRelease
      · subst release
        cases takes with
        | transportRelease holds => exact absurd (hc.holds.symm.trans holds) nofun
      · obtain ⟨refs,holds⟩ := takes.frame.refs release
        refine ⟨?_,pending.trans hc.pending,holds.trans hc.holds,?_⟩
        · rw [link,refs]
          exact hc.checkedOut
        · rw [freed,responses,events]
          exact hc.answered

lemma unlinked_accepted (serverId id owner : IoRef) (timeout : UInt64) (link : Option Message) :
    Unlinked (accepted serverId id owner timeout link) := by
  refine ⟨?_,rfl,rfl,fun _ => rfl⟩
  cases link with
  | none => nofun
  | some => exact fun _ => Nat.one_pos
lemma unlinked_linked {serverId id owner message palOpen calls}
    (failed : palOpen.result ≠ erOk) : Unlinked (linked serverId id owner message palOpen calls) := by
  unfold linked Cell.prxServerHandleLinkrequest
  rw [if_neg failed]
  split <;> exact ⟨nofun,rfl,rfl,nofun⟩

variable {s t u : PrxServer} {labels : List ServerLabel} {index : ℕ}

structure Held (c : Cell) : Prop where
  holds : c.transportHolds
  stored : c.socket.linkMessage.isSome
  refs : c.linkRefs = 1

lemma held_linked {serverId id owner message palOpen calls}
    (ok : palOpen.result = erOk) : Held (linked serverId id owner message palOpen calls) := by
  unfold linked Cell.prxServerHandleLinkrequest
  rw [if_pos ok]
  exact ⟨rfl,rfl,rfl⟩

lemma step_held {label} (hc : Held c) (h : c.step label = some c') (kept : LinkKept c') : Held c' := by
  obtain ⟨event,calls⟩ := label
  have takes := (takes_of_step h).2
  have busy : c.schedulerIdle = false := by simp [Cell.schedulerIdle,hc.holds]
  by_cases release : event = .transportRelease
  · subst release
    cases takes with
    | transportRelease =>
      have hrefs : 0 < c.linkRefs - 1 := kept.checkedOut hc.stored
      rw [hc.refs] at hrefs
      exact absurd hrefs (by decide)
  · obtain ⟨refs,holds⟩ := takes.frame.refs release
    have complete : event ≠ .task .openComplete := by
      rintro rfl
      cases takes with
      | openComplete idle => exact absurd (busy.symm.trans idle) nofun
    have free : event ≠ .task .free := by
      rintro rfl
      cases takes with
      | free idle => exact absurd (busy.symm.trans idle) nofun
    have link := (takes.sameLink complete free).link
    exact ⟨holds.trans hc.holds,link ▸ hc.stored,refs.trans hc.refs⟩

lemma held_of_runs (runs : Runs step s labels t) (always : Always step LinksKept s labels)
    (found : s.sockets[index]? = some c) (hc : Held c) : ∃ c', t.sockets[index]? = some c' ∧ Held c' := by
  induction runs generalizing c with
  | refl => exact ⟨c,found,hc⟩
  | @step s t u label labels hstep _ ih =>
    obtain ⟨_,tail⟩ := always
    have hkept := (tail t hstep).head
    have hlt : index < s.sockets.length := (List.getElem?_eq_some_iff.1 found).1
    suffices hnext : ∃ c', t.sockets[index]? = some c' ∧ Held c' by
      obtain ⟨c',found',hc'⟩ := hnext
      exact ih (tail t hstep) found' hc'
    cases (steps_of_step hstep).2 with
    | same => exact ⟨c,found,hc⟩
    | @socket index' event calls d d' found' step =>
      by_cases heq : index' = index
      · subst heq
        cases found.symm.trans found'
        have hset : (s.sockets.set index' d')[index']? = some d' := List.getElem?_set_self hlt
        exact ⟨d',hset,step_held hc step (hkept.2 d' (mem_of_getElem? hset))⟩
      · exact ⟨c,(List.getElem?_set_ne heq).trans found,hc⟩
    | linked | accepted => exact ⟨c,(List.getElem?_append_left hlt).trans found,hc⟩
    | undefined _ _ undefined => exact absurd (undefined.symm.trans hkept.1) nofun

lemma storesNone_of_always {label} (hstep : s.step label = some t)
    (runs : Runs step t labels u) (always : Always step LinksKept t labels)
    (idle : ∀ c ∈ u.sockets, c.transportHolds = false) : s.storesNone label := by
  by_contra stores
  obtain ⟨event,calls⟩ := label
  cases event with
  | link checked created id message palOpen =>
    simp only [storesNone,decide_eq_true_eq,not_or,not_not] at stores
    obtain ⟨rfl,rfl,ok⟩ := stores
    have found : t.sockets[s.sockets.length]? = some (linked s.id id message.sourceId message palOpen calls) := by
      rw [sockets_of_link hstep]
      exact List.getElem?_concat_length
    obtain ⟨c,found',hc⟩ := held_of_runs runs always found (held_linked ok)
    exact absurd (hc.holds.symm.trans (idle c (mem_of_getElem? found'))) nofun
  | accept index attempt =>
    cases found : s.sockets[index]? with
    | none => simp [storesNone,found] at stores
    | some listener =>
      have reaches : attempt.reachesEnd listener := by simpa [storesNone,found] using stores
      exact absurd ((undefined_of_accept hstep found reaches).symm.trans always.head.1) nofun
  | _ => exact stores rfl

lemma along_storesNone (runs : Runs step s labels t) (always : Always step LinksKept s labels)
    (idle : ∀ c ∈ t.sockets, c.transportHolds = false) : Along step (fun s label => s.storesNone label) s labels := by
  induction runs with
  | refl => trivial
  | @step s t u label labels hstep hruns ih =>
    obtain ⟨_,tail⟩ := always
    refine ⟨storesNone_of_always hstep hruns (tail t hstep) idle,fun t' ht' => ?_⟩
    cases hstep.symm.trans ht'
    exact ih (tail t hstep) idle
def AllUnlinked (s : PrxServer) : Prop :=
  s.undefined = false ∧ ∀ c ∈ s.sockets, Unlinked c

lemma step_allUnlinked {label} (hs : AllUnlinked s) (none : s.storesNone label)
    (h : s.step label = some t) : AllUnlinked t := by
  have steps := (steps_of_step h).2
  have defined : t.undefined = false := by
    cases steps with
    | undefined found reaches => simp [storesNone,found,reaches] at none
    | _ => exact hs.1
  refine ⟨defined,steps.all_sockets defined hs.2 ?_ ?_ ?_⟩
  · intro index event calls c c' _ _ hstep hc
    exact step_unlinked hc hstep
  · rintro id message palOpen calls rfl
    have failed : palOpen.result ≠ erOk := by simpa [storesNone] using none
    exact unlinked_linked failed
  · exact unlinked_accepted s.id

/-- Link messages are handled as they should be exactly when none is stored. -/
theorem linksKept_iff {id : IoRef} {labels : List ServerLabel} {s : PrxServer}
    (runs : Runs PrxServer.step (.start id) labels s) (idle : ∀ c ∈ s.sockets, c.transportHolds = false) :
    Always PrxServer.step LinksKept (.start id) labels ↔
      Along PrxServer.step (fun s label => s.storesNone label) (.start id) labels := by
  constructor
  · intro always
    exact along_storesNone runs always idle
  · intro along
    have start : AllUnlinked (.start id) := ⟨rfl,fun c hmem => absurd hmem not_mem_nil⟩
    exact always_of_along step_allUnlinked (fun hs => ⟨hs.1,fun c hmem => (hs.2 c hmem).linkKept⟩) start along

def linkRefused : List ServerLabel :=
  [(.link erOk erOk default (.request .link) (.byAddress .stream erRefused),.succeed 1)]
theorem linkRefused_linksKept :
    ∃ s, run PrxServer.step (.start default) linkRefused = some s ∧ s.sockets.length = 1 ∧
      Always PrxServer.step LinksKept (.start default) linkRefused :=
  ⟨_,rfl,rfl,(linksKept_iff (runs_of_run rfl) (by decide)).2 (by decide)⟩
def linkAnswered : List ServerLabel :=
  [(.link erOk erOk default (.request .link) (.byName .stream erOk true),.succeed 1),
    (.socket 0 .transportRelease,.succeed 1),(.socket 0 (.task .openComplete),.succeed 1)]
theorem linkAnswered_not_kept :
    ∃ s t, run PrxServer.step (.start default) (linkAnswered.take 2) = some s ∧
      Runs PrxServer.step (.start default) linkAnswered t ∧
      (s.sockets.map fun c => (c.socket.linkMessage.isSome,c.linkRefs)) = [(true,0)] ∧
      (t.sockets.map fun c => c.history.linkResponses.length) = [1] ∧
      ¬Always PrxServer.step LinksKept (.start default) linkAnswered := by
  refine ⟨_,_,rfl,runs_of_run rfl,rfl,rfl,?_⟩
  intro always
  have along := along_storesNone (runs_of_run rfl) always (by decide)
  exact absurd along.1 (by decide)

end EdgeProxy.Server
