import EdgeProxy.Server.Phases
import EdgeProxy.Server.LinkMessage

/-! # Ownership of server sockets

The table owns a socket from its creation until the worker takes it out; from then on its queued release owns it. This
holds in runs in which link requests do not fail after their socket was created, accept attempts do not reach the end
callback, and the sockets keep their phases.
-/
namespace EdgeProxy.Server
open Base Codec Lib PrxServer List

variable {c c' : Cell} {calls : Calls} {event : Event} {s t : PrxServer}

structure Owning (c : Cell) : Prop where
  phases : Phases c
  streams : StreamsOwned c
  link : LinkReady c
  defined : c.history.undefined = false

lemma openConnection_polledStream {request} (h : openConnection request calls = .ok .polledStream) :
    request.polled ∧ OpenRequest.hasConnectionString request := by
  unfold openConnection at h
  split at h
  · cases h
  · cases h
  · next hentry =>
    have hstring : OpenRequest.hasConnectionString request := by
      unfold openEntry at hentry
      by_contra hnone
      rw [if_neg hnone] at hentry
      split at hentry <;> cases hentry
    refine ⟨?_,hstring⟩
    by_contra hpolled
    rw [if_neg hpolled] at h
    split at h
    · split at h <;> cases h
    · cases h

/-- An open request sets a stream of the server or a websocket stream. -/
theorem streamsOwned_opens {message connection stream serverStream}
    (keeps : c.keepsPhase (.received false message,calls)) (type : messageType message.type = some .open)
    (connects : openConnection message.content.openRequest calls = .ok connection) (hstream : stream = some connection)
    (hserver : serverStream = (c.socket.serverStream || decide (connection = .listener))) :
    stream ≠ some .polledStream ∧ (stream = some .listener → serverStream) := by
  rw [hstream,hserver]
  constructor
  · intro hpolled
    cases hpolled
    obtain ⟨polled,hstring⟩ := openConnection_polledStream connects
    simp [Cell.keepsPhase,type,polled,hstring] at keeps
  · intro hlistener
    cases hlistener
    simp

lemma Collects.streamsOwned (h : Collects c calls c') (hc : StreamsOwned c) : StreamsOwned c' := by
  cases h with
  | _ => exact hc

lemma Takes.streamsOwned (h : Takes c event calls c') (hc : StreamsOwned c)
    (keeps : c.keepsPhase (event,calls)) : StreamsOwned c' := by
  cases h with
  | received idle table receives =>
    cases receives with
    | openFailed type control state hpools hstreams hstream =>
      subst control
      rcases hstream with ⟨rfl,rfl⟩ | ⟨connection,connects,hstream,hserver⟩
      · exact hc
      · exact fun _ => streamsOwned_opens keeps type connects hstream hserver
    | opened type control state connects =>
      subst control
      exact fun _ => streamsOwned_opens keeps type connects rfl rfl
    | _ => exact hc
  | worker idle table works =>
    cases works with
    | closeTimedout | leaves => nofun
    | reverted _ _ collects | drops _ _ collects | collects _ collects => exact collects.streamsOwned hc
    | _ => exact hc
  | openComplete _ _ step | deliver step => cases step <;> exact hc
  | free => exact fun _ => ⟨nofun,nofun⟩
  | _ => exact hc

lemma Collects.defined (h : Collects c calls c') (hc : Phases c) (state : c.socket.state = .collect)
    (defined : c.history.undefined = false) : c'.history.undefined = false := by
  cases h with
  | @undefined sock hsock hclose =>
    have early : c.closes = false := by simp [Cell.closes,state]
    rcases hc.handle early sock hsock with hhandle | hhandle <;> simp [Pal.palSocketClose,hhandle] at hclose
  | _ => exact defined

lemma Takes.defined (h : Takes c event calls c') (hc : Owning c) (keeps : c.keepsPhase (event,calls)) :
    c'.history.undefined = false := by
  have early : ∀ {state}, c.socket.state = state → state = .created ∨ state = .opened → c.closes = false := by
    rintro state hs (rfl | rfl) <;> simp [Cell.closes,hs]
  cases h with
  | received _ _ step | deliver step => cases step <;> exact hc.defined
  | worker idle table works =>
    cases works with
    | reverted state due collects | drops state due collects =>
      exact collects.defined (hc.phases.early ⟨early state (by simp),rfl,rfl,rfl,rfl,rfl,id,id⟩) rfl hc.defined
    | collects state collects => exact collects.defined hc.phases state hc.defined
    | _ => exact hc.defined
  | openComplete idle queued completes =>
    cases completes with
    | missing link =>
      obtain ⟨message,hlink,_⟩ := hc.link.stored queued
      exact absurd (hlink.symm.trans link) (Option.some_ne_none _)
    | undefined link fails empty =>
      have empty' : c.socket.openBufferSize calls = 0 := empty
      simp [Cell.keepsPhase,empty'] at keeps
    | _ => exact hc.defined
  | _ => exact hc.defined

lemma step_owning {label} (hc : Owning c) (keeps : c.keepsPhase label) (h : c.step label = some c') : Owning c' := by
  obtain ⟨live,takes⟩ := takes_of_step h
  exact ⟨takes.phases live hc.phases hc.streams keeps,takes.streamsOwned hc.streams keeps,step_linkReady hc.link h,
    takes.defined hc keeps⟩
lemma Takes.inTable (h : Takes c event calls c') (gone : c.inTable = false) : c'.inTable = false := by
  cases h with
  | received _ table | worker _ table => exact absurd (table.symm.trans gone) nofun
  | openComplete _ _ step | deliver step => cases step <;> exact gone
  | _ => exact gone

lemma phases_new (state : c.socket.state = .created) (table : c.inTable) (freed : c.history.freed = 0)
    (tasks : ∀ task ∈ c.tasks, task = .openComplete) (idle : c.portThread = .idle)
    (handle : ∀ sock, c.socket.sock = some sock → sock.handle = .none ∨ sock.handle = .registered) : Phases c where
  table _ := freed
  once := by omega
  queued free := absurd (tasks _ free) nofun
  left gone := absurd (table.symm.trans gone) nofun
  quiet closed := by
    rcases closed with closed | close
    · exact absurd (state.symm.trans closed) nofun
    · exact absurd (tasks _ close) nofun
  closing close := absurd (tasks _ close) nofun
  handle _ := handle
  port busy := by simp [idle,PortThread.isIdle] at busy

lemma owning_accepted (serverId id owner : IoRef) (timeout : UInt64) (link : Option Message) :
    Owning (accepted serverId id owner timeout link) where
  phases := phases_new rfl rfl rfl (fun _ hmem => absurd hmem not_mem_nil) rfl nofun
  streams _ := ⟨nofun,nofun⟩
  link := (Born.accept serverId id owner timeout link).linkReady
  defined := rfl

lemma palOpen_handle {palOpen : PalOpen} {sock} (h : palOpen.sock = some sock) :
    sock.handle = .none ∨ sock.handle = .registered := by
  cases palOpen with
  | failed => cases h
  | resolveFailed | byAddress =>
    cases h
    exact .inl rfl
  | byName =>
    cases h
    split
    · exact .inr rfl
    · exact .inl rfl
  | pair =>
    simp only [PalOpen.sock,Option.ite_none_right_eq_some] at h
    cases h.2
    exact .inr rfl

lemma owning_linked {serverId id owner : IoRef} {message palOpen calls}
    (ok : palOpen.result = erOk) : Owning (linked serverId id owner message palOpen calls) := by
  have born := Born.link serverId id owner message palOpen calls
  have initial := born.initial
  obtain ⟨table,freed,defined,hsock⟩ : let c := linked serverId id owner message palOpen calls
      c.inTable ∧ c.history.freed = 0 ∧ c.history.undefined = false ∧ c.socket.sock = palOpen.sock := by
    unfold linked Cell.prxServerHandleLinkrequest
    rw [if_pos ok]
    split <;> exact ⟨rfl,rfl,rfl,rfl⟩
  have phases := phases_new initial.state table freed initial.tasks initial.portThread
    fun sock h => palOpen_handle (hsock ▸ h)
  refine ⟨phases,fun _ => ?_,born.linkReady,defined⟩
  rw [initial.stream]
  exact ⟨nofun,nofun⟩

/-- A socket is live while it is in the table, freed at most once and not lost, and freed after it left the table and
when the platform can deliver nothing more. -/
structure Owned (c : Cell) : Prop where
  live : c.inTable → c.history.freed = 0
  once : c.history.freed ≤ 1
  kept : c.inTable = false → c.history.freed = 0 → Task.free ∈ c.tasks
  after : c.history.freed ≠ 0 → c.inTable = false ∧ c.canDeliver = false

lemma Owning.owned (hc : Owning c) : Owned c where
  live := hc.phases.table
  once := hc.phases.once
  kept gone := (hc.phases.left gone).2
  after freed := by
    have gone : c.inTable = false := by
      by_contra table
      exact freed (hc.phases.table (by simpa using table))
    exact ⟨gone,hc.phases.quiet (.inl (hc.phases.left gone).1)⟩

/-- The server stays within its defined behaviour and owns its sockets. It is released with an empty table, and
when their tasks have run all sockets were freed once. -/
structure Ownership (s : PrxServer) : Prop where
  defined : s.undefined = false ∧ ∀ c ∈ s.sockets, c.history.undefined = false
  owned : ∀ c ∈ s.sockets, Owned c
  shutdown : s.released → ∀ c ∈ s.sockets, c.inTable = false ∧ (c.tasks = [] → c.history.freed = 1)

/-- A link request that created its socket does not fail, an accept attempt does not reach the end callback, and the
steps of a socket keep its phase. -/
def PrxServer.keepsOwnership (s : PrxServer) (label : ServerLabel) : Bool :=
  match label.1 with
  | .link checked created _ _ palOpen => checked ≠ erOk ∨ created ≠ erOk ∨ palOpen.result = erOk
  | .accept index calls => s.sockets[index]?.all fun listener => ¬calls.reachesEnd listener
  | .socket index event => s.sockets[index]?.all fun c => c.keepsPhase (event,label.2)
  | _ => true

structure Owns (s : PrxServer) : Prop where
  defined : s.undefined = false
  sockets : ∀ c ∈ s.sockets, Owning c
  down : s.released → s.exit ∧ ∀ c ∈ s.sockets, c.inTable = false

lemma Owning.inTable_of_accepts (hc : Owning c) (accepts : c.accepts) : c.inTable := by
  obtain ⟨sock,hsock,hopen⟩ : ∃ sock, c.socket.sock = some sock ∧ sock.handle = .registered ∧ sock.state = .open := by
    simp only [Cell.accepts,Option.any_eq_true,decide_eq_true_eq] at accepts
    obtain ⟨sock,hsock,_,state,handle⟩ := accepts
    exact ⟨sock,hsock,handle,state⟩
  exact (hc.phases.active (canDeliver_of_open hsock hopen)).2.2

lemma step_owns {label} (hs : Owns s) (keeps : s.keepsOwnership label) (h : s.step label = some t) : Owns t := by
  have steps := (steps_of_step h).2
  have defined : t.undefined = false := by
    cases steps with
    | undefined found reaches => simp [keepsOwnership,found,reaches] at keeps
    | _ => exact hs.defined
  refine ⟨defined,steps.all_sockets defined hs.sockets ?_ ?_ (owning_accepted s.id),?_⟩
  · rintro index event calls c c' rfl found hstep hc
    have keeps' : c.keepsPhase (event,calls) := by simpa [keepsOwnership,found] using keeps
    exact step_owning hc keeps' hstep
  · rintro id message palOpen calls rfl
    have ok : palOpen.result = erOk := by simpa [keepsOwnership] using keeps
    exact owning_linked ok
  · intro released
    cases steps with
    | same exits down =>
      rcases down released with before | ⟨exit,gone⟩
      · obtain ⟨exit,gone⟩ := hs.down before
        exact ⟨exits exit,gone⟩
      · exact ⟨exit,gone⟩
    | socket found step =>
      obtain ⟨exit,gone⟩ := hs.down released
      refine ⟨exit,fun d hmem => ?_⟩
      rcases mem_or_eq_of_mem_set hmem with hold | rfl
      · exact gone d hold
      · exact (takes_of_step step).2.inTable (gone _ (mem_of_getElem? found))
    | linked running => exact absurd ((hs.down released).1.symm.trans running) nofun
    | accepted found live accepts =>
      have hmem := mem_of_getElem? found
      have table := (hs.sockets _ hmem).inTable_of_accepts accepts
      exact absurd (table.symm.trans ((hs.down released).2 _ hmem)) nofun
    | undefined found reaches => simp [keepsOwnership,found,reaches] at keeps

lemma Owns.ownership (hs : Owns s) : Ownership s where
  defined := ⟨hs.defined,fun c hmem => (hs.sockets c hmem).defined⟩
  owned c hmem := (hs.sockets c hmem).owned
  shutdown released c hmem := by
    have gone := (hs.down released).2 c hmem
    have owned := (hs.sockets c hmem).owned
    refine ⟨gone,fun idle => ?_⟩
    have freed : c.history.freed ≠ 0 := by
      intro zero
      have queued := owned.kept gone zero
      rw [idle] at queued
      exact absurd queued not_mem_nil
    have once := owned.once
    omega

/-- In every run of the server whose steps meet the condition the server owns its sockets. -/
theorem ownership_of_keeps {id : IoRef} {labels : List ServerLabel} {s : PrxServer}
    (runs : Runs PrxServer.step (.start id) labels s)
    (keeps : Along PrxServer.step (fun s label => s.keepsOwnership label) (.start id) labels) : Ownership s := by
  have start : Owns (.start id) := ⟨rfl,fun c hmem => absurd hmem List.not_mem_nil,nofun⟩
  exact (Runs.invariant step_owns runs keeps start).ownership

def linkToShutdown : List ServerLabel :=
  [(.link erOk erOk default (.request .link) (.byName .stream erOk true),.succeed 1),
    (.socket 0 .transportRelease,.succeed 1),(.socket 0 (.task .openComplete),.succeed 1),
    (.socket 0 (.received false openPolled),.succeed 1),(.socket 0 (.received false (.request .close)),.succeed 2),
    (.socket 0 .worker,.succeed 3),(.socket 0 .destroyed,.succeed 3),(.socket 0 (.task .closeComplete),.succeed 4),
    (.socket 0 .worker,.succeed 5),(.socket 0 (.task .free),.succeed 2005),(.listenerClosed,.succeed 3000),
    (.workerDone,.succeed 3000)]
theorem linkToShutdown_ownership :
    ∃ s, run PrxServer.step (.start default) linkToShutdown = some s ∧ s.released ∧
      (s.sockets.map fun c => c.history.freed) = [1] ∧ Ownership s := by
  have runs : Runs step (.start default) linkToShutdown _ := runs_of_run rfl
  exact ⟨_,rfl,rfl,rfl,ownership_of_keeps runs (by decide)⟩

/-- The socket of a link request whose connection is refused is freed and stays in the table. -/
theorem linkRefused_not_owned :
    ∃ s, Runs PrxServer.step (.start default) linkRefused s ∧
      (s.sockets.map fun c => (c.inTable,c.history.freed)) = [(true,1)] ∧ ¬Ownership s := by
  refine ⟨_,runs_of_run rfl,rfl,?_⟩
  intro ownership
  exact absurd ((ownership.owned _ List.mem_cons_self).live rfl) (by decide)

end EdgeProxy.Server
