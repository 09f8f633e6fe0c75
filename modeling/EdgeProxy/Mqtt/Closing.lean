import EdgeProxy.Lib.Transition
import EdgeProxy.Mqtt.Steps

/-! # Closing a connection

A connection is freed at most once, and only after it was closed. While it is being closed, tasks that were queued
before and a late acknowledgement can still set another status.
-/
namespace EdgeProxy.Mqtt
open Base Lib Connection Option

variable {K R : Type} {c d : Connection K R} {now : ℤ}

/-- The status is closing, and the task that frees the connection is queued, only when its owner has closed it. After
it was freed it has no tasks and no client. -/
structure Connection.Owned (c : Connection K R) : Prop where
  closing : c.status = .closing → c.closed
  free : ∀ entry ∈ c.tasks, entry.task = .free → c.closed
  frees : c.frees = 0 ∨ c.frees = 1 ∧ c.closed ∧ c.client = false ∧ ∀ entry ∈ c.tasks, entry.task.ofSubscription

lemma Connection.Moves.owned {cause} (h : c.Moves now cause d) (hc : c.Owned)
    (hcause : cause = .task .free → c.closed) (hfrees : c.frees = 0) : d.Owned := by
  constructor
  · intro hclosing
    rw [h.closed]
    rcases h.status with heq | ⟨hne,_⟩
    · exact hc.closing (heq ▸ hclosing)
    · exact absurd hclosing hne
  · intro entry hentry htask
    rw [h.closed]
    rcases h.tasks entry hentry with hentry | hmay
    · exact hc.free entry hentry htask
    · rw [htask] at hmay
      exact hc.closing hmay
  · rcases h.frees with heq | ⟨htask,heq,hclient,htasks⟩
    · exact .inl (heq.trans hfrees)
    · exact .inr ⟨heq.trans (congrArg (· + 1) hfrees),h.closed.trans (hcause htask),hclient,htasks⟩

lemma Connection.Owned.subset (hc : c.Owned) {tasks} (htasks : tasks ⊆ c.tasks) : ({ c with tasks }).Owned := by
  refine ⟨hc.closing,fun entry hentry => hc.free entry (htasks hentry),?_⟩
  rcases hc.frees with hzero | ⟨hone,hclosed,hclient,hof⟩
  · exact .inl hzero
  · exact .inr ⟨hone,hclosed,hclient,fun entry hentry => hof entry (htasks hentry)⟩
lemma Connection.Owned.queues (hc : c.Owned) (hstatus : d.status = c.status) (hclosed : d.closed = c.closed)
    (hfrees : d.frees = 0) (htasks : ∀ entry ∈ d.tasks, entry ∈ c.tasks ∨ (entry.task = .free → c.status = .closing)) :
    d.Owned := by
  refine ⟨fun hclosing => ?_,fun entry hentry htask => ?_,.inl hfrees⟩
  · exact hclosed.trans (hc.closing (hstatus ▸ hclosing))
  · rcases htasks entry hentry with hentry | hmay
    · exact hclosed.trans (hc.free entry hentry htask)
    · exact hclosed.trans (hc.closing (hmay htask))
lemma Connection.Owned.frees_eq_zero (hc : c.Owned) (hclient : c.client) : c.frees = 0 := by
  rcases hc.frees with hzero | ⟨_,_,hnone,_⟩
  · exact hzero
  · cases hclient.symm.trans hnone

lemma Connection.Does.owned {label} (h : c.Does now label d) (hc : c.Owned) : d.Owned := by
  cases h with
  | idles => exact hc
  | drops htasks => exact hc.subset htasks
  | runs hentry htasks hmoves hof =>
    rename_i entry tasks
    have hmem := List.mem_of_getElem? hentry
    rcases hc.frees with hzero | ⟨hone,hclosed,hclient,hsub⟩
    · refine hmoves.owned (hc.subset htasks) (fun hcause => ?_) hzero
      exact hc.free entry hmem (Cause.task.inj hcause)
    · -- Only subscriptions are left to be freed, which queues nothing.
      obtain ⟨htasks',hclient'⟩ := hof (hsub entry hmem)
      have hclosed' : d.closed := hmoves.closed.trans hclosed
      have hfrees : d.frees = c.frees := by
        rcases hmoves.frees with heq | ⟨hcause,_⟩
        · exact heq
        · have hfree := hsub entry hmem
          rw [Cause.task.inj hcause] at hfree
          cases hfree
      refine ⟨fun _ => hclosed',fun _ _ _ => hclosed',.inr ⟨hfrees.trans hone,hclosed',hclient'.trans hclient,?_⟩⟩
      rw [htasks']
      exact fun entry hentry => hsub entry (htasks hentry)
  | moves hclient hmoves => exact hmoves.owned hc nofun (hc.frees_eq_zero hclient)
  | acks hclient hacks =>
    refine hc.queues hacks.status hacks.closed (hacks.frees.trans (hc.frees_eq_zero hclient)) fun entry hentry => ?_
    exact (hacks.tasks entry hentry).imp_right fun hmay htask => by rwa [htask] at hmay
  | prepares _ hfrees hprepares =>
    refine hc.queues hprepares.status hprepares.closed (hprepares.frees.trans hfrees) fun entry hentry => ?_
    exact (hprepares.tasks entry hentry).imp_right fun hne htask => absurd htask hne
  | refuses _ _ hfrees | fails _ hfrees => exact ⟨hc.closing,hc.free,.inl hfrees⟩
  | enqueues _ hfrees =>
    refine hc.queues rfl rfl hfrees fun entry hentry => (mem_doNext hentry).imp_right fun hnext htask => ?_
    cases hnext.symm.trans htask
  | closes hfrees =>
    have hclosed : c.close.closed ∧ c.close.frees = c.frees := by
      unfold close
      dsimp only
      split <;> exact ⟨rfl,rfl⟩
    exact ⟨fun _ => hclosed.1,fun _ _ _ => hclosed.1,.inl (hclosed.2.trans hfrees)⟩

variable {s t : System K R} {label : Label K R}

lemma System.does_of_step (h : s.step label = some t) : s.connection.Does s.clock label t.connection := by
  obtain ⟨connection,hstep,rfl⟩ := map_eq_some_iff.1 h
  exact Mqtt.does_of_step hstep
lemma step_owned (hs : s.connection.Owned) (h : s.step label = some t) : t.connection.Owned :=
  (System.does_of_step h).owned hs

variable {address : Address} {clientId : String} {memory clientIdMemory : Bool}
  {clone scheduler : Except PrxError Unit}

lemma create_eq (created : create address clientId memory clientIdMemory clone scheduler = .ok c) :
    c.tasks = [] ∧ c.sendQueue = [] ∧ c.status = .reset ∧ c.pktCounter = 0 ∧ c.draws = 0 ∧ c.calls = [] ∧
      c.invoked = [] ∧ c.frees = 0 := by
  cases memory <;> cases clientIdMemory <;> cases clone <;> cases scheduler <;> cases created
  exact ⟨rfl,rfl,rfl,rfl,rfl,rfl,rfl,rfl⟩
lemma create_owned (created : create address clientId memory clientIdMemory clone scheduler = .ok c) : c.Owned := by
  obtain ⟨htasks,_,hstatus,_,_,_,_,hfrees⟩ := create_eq created
  refine ⟨fun hclosing => ?_,?_,.inl hfrees⟩
  · cases hstatus.symm.trans hclosing
  · rw [htasks]
    exact List.forall_mem_nil _

def Connection.taskOf (c : Connection K R) : Label K R → Option Task
  | .run index _ => c.tasks[index]?.map Entry.task
  | _ => none
def Label.acceptsConnect : Label K R → Bool
  | .event (.connectAck (some .accepted)) => true
  | _ => false

/-- The other side does not accept the connection any more, and its credential is still valid when it is checked. -/
def System.Undisturbed (s : System K R) (label : Label K R) : Prop :=
  label.acceptsConnect = false ∧ (s.connection.taskOf label = some .monitor → ¬s.connection.expired s.clock)

instance : Decidable (s.Undisturbed label) := by
  unfold System.Undisturbed
  infer_instance
def Connection.Unattended (c : Connection K R) : Prop :=
  ∀ entry ∈ c.tasks, entry.task ≠ .softReset ∧ entry.task ≠ .reconnect
instance : Decidable c.Unattended := by
  unfold Connection.Unattended
  infer_instance

lemma Connection.Unattended.queues (hc : c.Unattended) (hstatus : c.status = .closing) {cause}
    (htasks : ∀ entry ∈ d.tasks, entry ∈ c.tasks ∨ c.mayQueue now cause entry.task)
    (hcause : cause = .task .monitor → ¬c.expired now) : d.Unattended := by
  intro entry hentry
  rcases htasks entry hentry with hentry | hmay
  · exact hc entry hentry
  · refine ⟨fun htask => ?_,fun htask => ?_⟩ <;> rw [htask] at hmay
    · rcases hmay with hconnected | ⟨rfl,hexpired⟩
      · cases hstatus.symm.trans hconnected
      · exact hcause rfl hexpired
    · exact hmay hstatus
lemma Connection.Moves.closing {cause} (h : c.Moves now cause d) (hstatus : c.status = .closing)
    (hc : c.Unattended) (hleaves : cause.leaves = false) (hcause : cause = .task .monitor → ¬c.expired now) :
    d.status = .closing ∧ d.Unattended := by
  refine ⟨?_,hc.queues hstatus h.tasks hcause⟩
  rcases h.status with heq | ⟨_,hleave⟩
  · exact heq.trans hstatus
  · cases (hleave hstatus).symm.trans hleaves

lemma Connection.Does.closing (h : c.Does now label d) (hcall : label.isCall = false)
    (haccepts : label.acceptsConnect = false) (hmonitor : c.taskOf label = some .monitor → ¬c.expired now)
    (hstatus : c.status = .closing) (hc : c.Unattended) : d.status = .closing ∧ d.Unattended := by
  cases h with
  | idles => exact ⟨hstatus,hc⟩
  | drops htasks => exact ⟨hstatus,fun entry hentry => hc entry (htasks hentry)⟩
  | @runs index results entry tasks _ hentry htasks hmoves _ =>
    obtain ⟨hsoft,hreconnect⟩ := hc entry (List.mem_of_getElem? hentry)
    have htask : c.taskOf (.run index results) = some entry.task := by
      simp [taskOf,hentry]
    rw [htask] at hmonitor
    refine hmoves.closing hstatus (fun entry hentry => hc entry (htasks hentry)) ?_ fun hcause => ?_
    · cases ht : entry.task <;> simp_all [Cause.leaves]
    · exact hmonitor (congrArg some (Cause.task.inj hcause))
  | @moves event _ _ hmoves =>
    refine hmoves.closing hstatus hc ?_ nofun
    rw [← haccepts]
    cases event with
    | connectAck connack => rcases connack with _ | _ | _ <;> rfl
    | _ => rfl
  | acks _ hacks => exact ⟨hacks.status.trans hstatus,hc.queues hstatus hacks.tasks nofun⟩
  | prepares hprepares => cases hcall.symm.trans (Label.prepares_isCall hprepares)
  | _ => cases hcall

lemma taskOf_ne_reconnect (hc : c.Unattended) : c.taskOf label ≠ some .reconnect := by
  cases label with
  | run =>
    intro htask
    obtain ⟨entry,hentry,htask⟩ := map_eq_some_iff.1 htask
    exact (hc entry (List.mem_of_getElem? hentry)).2 htask
  | _ => nofun

lemma close_closing (hs : s.connection.Unattended) (hclose : s.step .close = some t) :
    t.connection.status = .closing ∧ t.connection.Unattended := by
  obtain ⟨connection,hstep,rfl⟩ := map_eq_some_iff.1 hclose
  have hclosed : s.connection.close = connection := by
    unfold step at hstep
    split at hstep
    · cases hstep
    · exact some.inj hstep
  subst hclosed
  unfold close
  dsimp only
  split
  · refine ⟨rfl,fun entry hentry => ?_⟩
    rcases mem_doLater hentry with hentry | htask
    · rcases mem_doNext hentry with hentry | htask
      · exact hs entry hentry
      · exact htask ▸ ⟨nofun,nofun⟩
    · exact htask ▸ ⟨nofun,nofun⟩
  · refine ⟨rfl,fun entry hentry => ?_⟩
    rcases mem_doNext hentry with hentry | htask
    · exact hs entry hentry
    · exact htask ▸ ⟨nofun,nofun⟩

/-- The connection is freed at most once after a close. It is not connected again if no soft reset and no reconnect
was queued, no connection is accepted any more, and no credential is found to be expired. -/
theorem closed_staysClosing (address : Address) (clientId : String) (memory clientIdMemory : Bool)
    (clone scheduler : Except PrxError Unit) {c : Connection K R}
    (created : Connection.create address clientId memory clientIdMemory clone scheduler = .ok c) (clock : ℤ)
    {labels : List (Label K R)} {s t : System K R} (hruns : Runs System.step ⟨c,clock⟩ labels s)
    (hclose : s.step .close = some t) (after : List (Label K R)) (hafter : ∀ label ∈ after, label.isCall = false) :
    Always System.step (fun u => u.connection.frees ≤ 1) t after ∧
    (s.connection.Unattended → Along System.step System.Undisturbed t after →
      Always System.step (fun u => u.connection.status = .closing) t after ∧
      Along System.step (fun u label => u.connection.taskOf label ≠ some .reconnect) t after) := by
  have hs : s.connection.Owned :=
    hruns.invariant (I := fun s => s.connection.Owned) (fun hs _ h => step_owned hs h) along_true (create_owned created)
  have ht : t.connection.Owned := step_owned hs hclose
  constructor
  · refine always_of_along (fun hs _ h => step_owned hs h) (fun hu => ?_) ht
      along_true
    rcases hu.frees with hzero | ⟨hone,_⟩ <;> omega
  · intro hunattended hundisturbed
    have hclosing := close_closing hunattended hclose
    have hlabels := hundisturbed.and (along_of_mem hafter)
    have hstep {s t : System K R} {label : Label K R}
        (hs : s.connection.status = .closing ∧ s.connection.Unattended)
        (hlabel : s.Undisturbed label ∧ label.isCall = false) (h : s.step label = some t) :
        t.connection.status = .closing ∧ t.connection.Unattended :=
      (System.does_of_step h).closing hlabel.2 hlabel.1.1 hlabel.1.2 hs.1 hs.2
    constructor
    · exact always_of_along hstep And.left hclosing hlabels
    · refine .of_invariant hstep (fun hs hlabel htask => ?_) hclosing hlabels
      exact taskOf_ne_reconnect hs.2 htask

def hub : Address :=
  ⟨none,"hub",0,"/",none,none,some "device"⟩
def edge : Connection ℕ ℕ :=
  (Connection.create hub "edge" true true (.ok ()) (.ok ())).toOption.get rfl
lemma edge_created : create hub "edge" true true (.ok ()) (.ok ()) = .ok edge :=
  rfl
def opened : List (Label ℕ ℕ) :=
  [.connect true,.run 0 { newToken := .ok ("token",3600000) },.event (.connectAck (some .accepted)),.run 1 {},.run 1 {},
    .run 1 {}]
def disconnected : List (Label ℕ ℕ) :=
  [.run 1 {},.event .disconnected,.run 2 {}]

theorem opened_staysClosing : ∃ s t, Runs System.step ⟨edge,0⟩ opened s ∧ s.step .close = some t ∧
    (run System.step t disconnected).any (·.connection.frees = 1) ∧
    Always System.step (fun u => u.connection.frees ≤ 1) t disconnected ∧
    Always System.step (fun u => u.connection.status = .closing) t disconnected ∧
    Along System.step (fun u label => u.connection.taskOf label ≠ some .reconnect) t disconnected := by
  obtain ⟨s,hs,hunattended,t,ht,hundisturbed,hfreed⟩ : ∃ s, Runs System.step ⟨edge,0⟩ opened s ∧
      s.connection.Unattended ∧ ∃ t, s.step .close = some t ∧ Along System.step System.Undisturbed t disconnected ∧
        (run System.step t disconnected).any (·.connection.frees = 1) := by decide +kernel
  obtain ⟨hfrees,hcloses⟩ := closed_staysClosing hub "edge" true true (.ok ()) (.ok ()) edge_created 0 hs ht
    disconnected (by decide)
  exact ⟨s,t,hs,ht,hfreed,hfrees,hcloses hunattended hundisturbed⟩

def failing : List (Label ℕ ℕ) :=
  opened ++ [.publish (some ['a']) none (some [1]) none {},.run 1 { client := false }]
def resetting : List (Label ℕ ℕ) :=
  [.run 1 {},.run 1 {},.event .disconnected,.run 2 {},.run 2 {},.run 0 { newToken := .ok ("token",3600000) }]

/-- A soft reset that was queued makes the connection forget that it is being closed. -/
theorem softReset_not_staysClosing : ∃ s t, Runs System.step ⟨edge,0⟩ failing s ∧ s.step .close = some t ∧
    (∀ label ∈ resetting, label.isCall = false) ∧
    ¬Always System.step (fun u => u.connection.status = .closing) t resetting ∧
    ¬Along System.step (fun u label => u.connection.taskOf label ≠ some .reconnect) t resetting ∧
    (run System.step t resetting).any fun u => u.connection.status = .connecting ∧
      ∀ entry ∈ u.connection.tasks, entry.task ≠ .free := by
  obtain ⟨s,hs,t,ht,halong,hlast⟩ : ∃ s, Runs System.step ⟨edge,0⟩ failing s ∧ ∃ t, s.step .close = some t ∧
      ¬Along System.step (fun u label => u.connection.taskOf label ≠ some .reconnect) t resetting ∧
      (run System.step t resetting).any fun u => u.connection.status = .connecting ∧
        ∀ entry ∈ u.connection.tasks, entry.task ≠ .free := by decide +kernel
  refine ⟨s,t,hs,ht,by decide,fun always => ?_,halong,hlast⟩
  obtain ⟨u,hu,hstatus⟩ := (Option.any_eq_true _ _).1 hlast
  cases (always.last (runs_of_run hu)).symm.trans (of_decide_eq_true hstatus).1

end EdgeProxy.Mqtt
