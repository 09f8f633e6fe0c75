import Mathlib.Data.List.Perm.Basic
import EdgeProxy.Ws.Steps

/-! # Closing a websocket connection

A connection that has a client is freed when the client has reported its end. Tasks and events in between can overwrite
the state closing.
-/
namespace EdgeProxy.Ws
open Base Lib List Connection Option

variable {K : Type} {c d : Connection K} {now : ℤ} {label : Label K} {results : Results} {task : Task}

def Task.reopens : Task → Bool
  | .onConnected | .reset | .reconnect => true
  | _ => false

structure Lifetime where
  tasks : List Entry
  pal : List PalCall
  status : Status
  wsclient : Bool
  closed : Bool
  frees : ℕ

def Connection.lifetime (c : Connection K) : Lifetime :=
  ⟨c.tasks,c.pal,c.status,c.wsclient,c.closed,c.frees⟩

structure Lifetime.Lives (x y : Lifetime) : Prop where
  frees : y.frees = x.frees
  wsclient : x.wsclient → y.wsclient

structure Lifetime.Freed (x y : Lifetime) : Prop where
  frees : y.frees = x.frees + 1
  status : y.status = .closed
  before : x.wsclient = false
  wsclient : y.wsclient = false
  tasks : y.tasks = []
  pal : y.pal = x.pal

lemma free_lifetime :
    (c.wsclient ∧ c.free = { c with status := .closing }.call .close) ∨ c.lifetime.Freed c.free.lifetime := by
  by_cases hclient : c.wsclient
  · exact .inl ⟨hclient,if_pos hclient⟩
  · have hfree : c.free = { { c with status := .closed }.clearTasks with
        completions := c.completions ++
          (c.outbound.done ++ c.outbound.inprogress ++ c.outbound.ready).flatMap Buffer.abort
        inbound := .empty
        outbound := .empty
        frees := c.frees + 1 } := if_neg hclient
    have hnone : c.wsclient = false := Bool.not_eq_true _ ▸ hclient
    rw [hfree]
    exact .inr ⟨rfl,rfl,hnone,hnone,rfl,rfl⟩

lemma free_lives : c.lifetime.Lives c.free.lifetime ∨ c.lifetime.Freed c.free.lifetime := by
  obtain ⟨-,hfree⟩ | hfreed := free_lifetime
  · rw [hfree]
    exact .inl ⟨rfl,id⟩
  · exact .inr hfreed
lemma reset_lives : c.lifetime.Lives (c.reset results).lifetime := by
  unfold reset
  dsimp only
  split <;> exact ⟨rfl,id⟩
lemma onDisconnected_lives : c.lifetime.Lives c.onDisconnected.lifetime := by
  unfold onDisconnected
  repeat' split
  all_goals exact ⟨rfl,id⟩
lemma reconnect_lives : c.lifetime.Lives (c.reconnect now results).lifetime := by
  obtain ⟨wsclient,expiry,pal,lastActivity,task,-,heq⟩ := reconnect_eq c now results
  refine ⟨by rw [heq]; rfl,fun hclient => ?_⟩
  have hopen : c.openClient now results = (c,none) := if_pos hclient
  unfold reconnect
  rw [hopen]
  dsimp only
  split <;> exact hclient

lemma runTask_lives (h : c.runTask now results task = .ok d) :
    c.lifetime.Lives d.lifetime ∨ c.lifetime.Freed d.lifetime := by
  cases task with
  | disconnect =>
    cases h
    unfold disconnect
    dsimp only
    split <;> exact .inl ⟨rfl,id⟩
  | free =>
    cases h
    exact free_lives
  | reset =>
    cases h
    exact .inl reset_lives
  | deliverStream =>
    obtain ⟨message,ready,-,rfl⟩ := deliverStream_eq h
    exact .inl ⟨rfl,id⟩
  | deliverSendResults | onConnected =>
    cases h
    exact .inl ⟨rfl,id⟩
  | onDisconnected =>
    cases h
    exact .inl onDisconnected_lives
  | monitor =>
    cases h
    obtain heq | ⟨delay,heq⟩ := monitor_eq c now <;> rw [heq] <;> exact .inl ⟨rfl,id⟩
  | reconnect =>
    cases h
    exact .inl reconnect_lives

inductive Lifetime.Hears (x : Lifetime) : Event → Lifetime → Prop
  | connects : x.Hears (.connected none) { x with tasks := x.tasks ++ [⟨.onConnected,0⟩] }
  | fails {error : PrxError} :
      x.Hears (.connected (some error)) { x with status := .connected, tasks := x.tasks ++ [⟨.onDisconnected,0⟩] }
  | ends : x.Hears .closed { x with wsclient := false, tasks := x.tasks ++ [⟨.free,0⟩] }
  | adds {event : Event} {added : List Entry} : (∀ entry ∈ added, entry.task.reopens = false) →
      x.Hears event { x with tasks := x.tasks ++ added }

variable {event : Event}

lemma Lifetime.Hears.nothing {x : Lifetime} : x.Hears event x := by
  have h : x.Hears event { x with tasks := x.tasks ++ [] } := .adds (forall_mem_nil _)
  rwa [append_nil] at h
lemma Lifetime.Hears.queues {x : Lifetime} (htask : task.reopens = false) :
    x.Hears event { x with tasks := x.tasks ++ [⟨task,0⟩] } :=
  .adds (forall_mem_singleton.2 htask)
lemma Lifetime.Hears.frees {x y : Lifetime} (h : x.Hears event y) : y.frees = x.frees := by
  cases h <;> rfl

lemma Lifetime.Hears.wsclient {x y : Lifetime} (h : x.Hears event y) (hevent : event ≠ .closed) :
    y.wsclient = x.wsclient := by
  cases h with
  | ends => exact absurd rfl hevent
  | _ => rfl

lemma handleEvent_hears (h : c.handleEvent event = some d) : c.lifetime.Hears event d.lifetime := by
  cases event with
  | connected error =>
    cases error with
    | none =>
      cases h
      exact .connects
    | some =>
      cases h
      exact .fails
  | disconnected =>
    cases h
    exact .queues rfl
  | closed =>
    obtain ⟨-,⟨⟩⟩ := ite_none_left_eq_some.1 h
    exact .ends
  | beginRecv =>
    obtain ⟨-,⟨⟩⟩ := ite_none_left_eq_some.1 h
    unfold onBeginReceive
    split <;> exact .nothing
  | endRecv =>
    obtain ⟨buffer,-,rfl⟩ := map_eq_some_iff.1 h
    unfold onEndReceive receives
    repeat' split
    all_goals first | exact .nothing | exact .queues rfl
  | beginSend =>
    obtain ⟨-,⟨⟩⟩ := ite_none_left_eq_some.1 h
    unfold onBeginSend
    split <;> exact .nothing
  | endSend =>
    obtain ⟨buffer,-,rfl⟩ := map_eq_some_iff.1 h
    unfold onEndSend
    dsimp only
    repeat' split
    all_goals first | exact .nothing | exact .queues rfl

lemma Connection.Does.lives (hdoes : c.Does now label d) : (d.frees = c.frees ∨ c.lifetime.Freed d.lifetime) ∧
      (c.wsclient → d.wsclient = false → label = .event .closed) := by
  have hlives (h : c.lifetime.Lives d.lifetime ∨ c.lifetime.Freed d.lifetime) :
      (d.frees = c.frees ∨ c.lifetime.Freed d.lifetime) ∧
        (c.wsclient → d.wsclient = false → label = .event .closed) := by
    obtain hlives | hfreed := h
    · exact ⟨.inl hlives.frees,fun hc hd => Bool.noConfusion ((hlives.wsclient hc).symm.trans hd)⟩
    · exact ⟨.inr hfreed,fun hc _ => Bool.noConfusion (hc.symm.trans hfreed.before)⟩
  cases hdoes with
  | closes =>
    obtain h | h := free_lives
    · exact hlives (.inl ⟨h.frees,h.wsclient⟩)
    · exact hlives (.inr ⟨h.frees,h.status,h.before,h.wsclient,h.tasks,h.pal⟩)
  | @writes memory data =>
    obtain ⟨_,_,_,_,heq⟩ := writeLoop_eq data.length memory data
    rw [streamWriter,heq] at hlives ⊢
    exact hlives (.inl ⟨rfl,id⟩)
  | @sends result cb canSend =>
    obtain ⟨_,_,_,_,heq⟩ := send_eq result cb canSend
    rw [heq] at hlives ⊢
    exact hlives (.inl ⟨rfl,id⟩)
  | @runs index results entry _ hentry hidle hrun =>
    obtain h | h := runTask_lives hrun
    · exact hlives (.inl ⟨h.frees,h.wsclient⟩)
    · exact hlives (.inr ⟨h.frees,h.status,h.before,h.wsclient,h.tasks,h.pal⟩)
  | @receives result =>
    cases result <;> exact hlives (.inl ⟨rfl,id⟩)
  | @events event _ hclient hevent =>
    have hheard := handleEvent_hears hevent
    by_cases hclosed : event = .closed
    · rw [hclosed] at ⊢
      exact ⟨.inl hheard.frees,fun _ _ => rfl⟩
    · exact hlives (.inl ⟨hheard.frees,fun hclient => (hheard.wsclient hclosed).trans hclient⟩)
  | _ => exact hlives (.inl ⟨rfl,id⟩)

variable {x y : Lifetime}

structure Lifetime.Ending (x : Lifetime) : Prop where
  closed : x.closed
  status : x.status = .closing
  tasks : ∀ entry ∈ x.tasks, entry.task.reopens = false

structure Lifetime.GoesOn (x y : Lifetime) : Prop where
  closed : y.closed = x.closed
  status : y.status = x.status
  connects : y.pal.count .connect = x.pal.count .connect
  added : ∀ entry ∈ y.tasks, entry ∈ x.tasks ∨ entry.task.reopens = false
  kept : ∀ entry ∈ x.tasks, entry.task = .free → entry ∈ y.tasks

lemma Lifetime.GoesOn.refl (x : Lifetime) : x.GoesOn x :=
  ⟨rfl,rfl,rfl,fun _ h => .inl h,fun _ h _ => h⟩
lemma Lifetime.GoesOn.queues (added : List Entry) (h : ∀ entry ∈ added, entry.task.reopens = false) :
    x.GoesOn { x with tasks := x.tasks ++ added } where
  closed := rfl
  status := rfl
  connects := rfl
  added := fun entry hentry => (mem_append.1 hentry).imp_right (h entry)
  kept := fun _ hentry _ => mem_append_left _ hentry
lemma Lifetime.GoesOn.ending (h : x.GoesOn y) (hx : x.Ending) : y.Ending where
  closed := h.closed.trans hx.closed
  status := h.status.trans hx.status
  tasks := fun entry hentry => (h.added entry hentry).elim (hx.tasks entry) id
lemma doNext_goesOn (htask : task.reopens = false) : c.lifetime.GoesOn (c.doNext task).lifetime :=
  .queues [⟨task,0⟩] (forall_mem_singleton.2 htask)

lemma doLater_goesOn {delay} (htask : task.reopens = false) (hfree : task ≠ .free) :
    c.lifetime.GoesOn (c.doLater task delay).lifetime where
  closed := rfl
  status := rfl
  connects := rfl
  added := by
    intro entry hentry
    obtain hentry | hentry := mem_append.1 hentry
    · exact .inl (mem_filter.1 hentry).1
    · rw [mem_singleton.1 hentry]
      exact .inr htask
  kept := by
    intro entry hentry hentryFree
    refine mem_append_left _ (mem_filter.2 ⟨hentry,decide_eq_true ?_⟩)
    rw [hentryFree]
    exact hfree.symm

lemma runTask_goesOn (hc : c.lifetime.Ending) (htask : task.reopens = false) (hfree : task ≠ .free)
    (h : c.runTask now results task = .ok d) : c.lifetime.GoesOn d.lifetime := by
  have hstatus : c.status = .closing := hc.status
  cases task with
  | disconnect =>
    cases h
    unfold disconnect
    rw [if_neg (by rw [hstatus]; decide)]
    exact .refl _
  | free => exact absurd rfl hfree
  | deliverStream =>
    obtain ⟨message,ready,-,rfl⟩ := deliverStream_eq h
    exact .refl _
  | deliverSendResults =>
    cases h
    exact .refl _
  | onDisconnected =>
    cases h
    unfold onDisconnected
    rw [if_pos hstatus]
    exact doNext_goesOn rfl
  | monitor =>
    cases h
    obtain heq | ⟨delay,heq⟩ := monitor_eq c now
    · rw [heq]
      exact doNext_goesOn rfl
    · rw [heq]
      exact doLater_goesOn rfl nofun
  | _ => cases htask

lemma Lifetime.Hears.keepsClosing {event} (h : x.Hears event y) (hevent : ∀ error, event ≠ .connected error) :
    x.GoesOn y := by
  cases h with
  | connects => exact absurd rfl (hevent none)
  | fails => exact absurd rfl (hevent _)
  | ends =>
    have hgoes : x.GoesOn { x with tasks := x.tasks ++ [⟨.free,0⟩] } :=
      .queues _ (forall_mem_singleton.2 rfl)
    exact ⟨hgoes.closed,hgoes.status,hgoes.connects,hgoes.added,hgoes.kept⟩
  | adds hadded => exact .queues _ hadded

def Connection.taskOf (c : Connection K) : Label K → Option Task
  | .run index _ | .drop index => c.tasks[index]?.map (·.task)
  | _ => none
def Label.isConnected : Label K → Bool
  | .event (.connected _) => true
  | _ => false
def Connection.freePending (c : Connection K) : Bool :=
  c.tasks.any (·.task = .free)

lemma freePending_of_kept (h : ∀ entry ∈ c.tasks, entry.task = .free → entry ∈ d.tasks)
    (hpending : c.freePending) : d.freePending := by
  obtain ⟨entry,hentry,hfree⟩ := any_eq_true.1 hpending
  exact any_eq_true.2 ⟨entry,h entry hentry (of_decide_eq_true hfree),hfree⟩

variable {index : ℕ} {entry : Entry}

lemma mem_eraseIdx_or {other} (h : c.tasks[index]? = some entry)
    (hother : other ∈ c.tasks) : other = entry ∨ other ∈ c.tasks.eraseIdx index := by
  obtain ⟨hlt,rfl⟩ := List.getElem?_eq_some_iff.1 h
  exact mem_cons.1 ((getElem_cons_eraseIdx_perm hlt).symm.subset hother)
lemma Lifetime.Ending.erase (hc : c.lifetime.Ending) (index : ℕ) :
    { c with tasks := c.tasks.eraseIdx index }.lifetime.Ending :=
  ⟨hc.closed,hc.status,fun entry hentry => hc.tasks entry (mem_of_mem_eraseIdx hentry)⟩

lemma Connection.Does.closing (hdoes : c.Does now label d) (hc : c.lifetime.Ending)
    (hlabel : label.isConnected = false) :
    (d.lifetime.Ending ∨ c.lifetime.Freed d.lifetime) ∧ d.pal.count .connect = c.pal.count .connect ∧
      (c.freePending → d.freePending ∨ c.taskOf label = some .free) := by
  have hgoes (h : c.lifetime.GoesOn d.lifetime) :
      (d.lifetime.Ending ∨ c.lifetime.Freed d.lifetime) ∧ d.pal.count .connect = c.pal.count .connect ∧
        (c.freePending → d.freePending ∨ c.taskOf label = some .free) :=
    ⟨.inl (h.ending hc),h.connects,fun hpending => .inl (freePending_of_kept h.kept hpending)⟩
  have hopen : c.closed ≠ false := fun h => Bool.noConfusion (hc.closed.symm.trans h)
  cases hdoes with
  | idles | reads => exact hgoes (.refl _)
  | connects h | closes h | writes h | resets h | sends h => exact absurd h hopen
  | @runs index results entry _ hentry hidle hrun =>
    have htask : c.taskOf (.run index results) = some entry.task :=
      congrArg (Option.map _) hentry
    by_cases hfree : entry.task = .free
    · rw [hfree] at htask hrun
      cases hrun
      obtain ⟨hclient,heq⟩ | hfreed := free_lifetime
      · rw [heq]
        have hcount : (c.pal ++ [PalCall.close]).count .connect = c.pal.count .connect := by
          rw [count_append]
          rfl
        exact ⟨.inl ⟨hc.closed,rfl,(hc.erase index).tasks⟩,hcount,fun _ => .inr htask⟩
      · have hpal := congrArg (List.count .connect) hfreed.pal
        exact ⟨.inr ⟨hfreed.frees,hfreed.status,hfreed.before,hfreed.wsclient,hfreed.tasks,hfreed.pal⟩,hpal,
          fun _ => .inr htask⟩
    · have hreopens := hc.tasks entry (mem_of_getElem? hentry)
      have h := runTask_goesOn (hc.erase index) hreopens hfree hrun
      refine ⟨.inl (h.ending (hc.erase index)),h.connects,fun hpending => .inl (freePending_of_kept ?_ hpending)⟩
      intro other hother hotherFree
      obtain rfl | hrest := mem_eraseIdx_or hentry hother
      · exact absurd hotherFree hfree
      · exact h.kept other hrest hotherFree
  | @drops index =>
    refine ⟨.inl (hc.erase index),rfl,fun hpending => ?_⟩
    obtain ⟨other,hother,hfree⟩ := any_eq_true.1 hpending
    cases hentry : c.tasks[index]? with
    | none =>
      have hsame : c.tasks.eraseIdx index = c.tasks :=
        eraseIdx_of_length_le (List.getElem?_eq_none_iff.1 hentry)
      exact .inl (any_eq_true.2 ⟨other,hsame.symm ▸ hother,hfree⟩)
    | some =>
      obtain rfl | hrest := mem_eraseIdx_or hentry hother
      · exact .inr ((congrArg (Option.map _) hentry).trans (congrArg some (of_decide_eq_true hfree)))
      · exact .inl (any_eq_true.2 ⟨other,hrest,hfree⟩)
  | @receives result =>
    cases result with
    | none => exact hgoes (.refl _)
    | some => exact hgoes (doNext_goesOn rfl)
  | @events event _ hclient hevent =>
    have hconnected : ∀ error, event ≠ .connected error := by
      rintro error rfl
      cases hlabel
    exact hgoes ((handleEvent_hears hevent).keepsClosing hconnected)

variable {s t : System K}

/-- The connection is freed at most once, and then nothing can reach it any more. -/
def Connection.FreedOnce (c : Connection K) : Prop :=
  c.frees = 0 ∨ c.frees = 1 ∧ c.wsclient = false ∧ c.tasks = []

def System.EndsByReport (s : System K) (label : Label K) : Prop :=
  ∀ t, s.step label = some t → s.connection.wsclient → t.connection.wsclient = false → label = .event .closed
def Connection.IsClosing (c : Connection K) : Prop :=
  c.status = .closing ∨ c.status = .closed ∧ c.frees = 1

/-- No connection is started, and a task that frees the connection stays until it is taken. -/
def System.KeepsClosing (s : System K) (label : Label K) : Prop :=
  ∀ t, s.step label = some t → t.connection.pal.count .connect = s.connection.pal.count .connect ∧
    (s.connection.freePending → t.connection.freePending ∨ s.connection.taskOf label = some .free)

def Connection.unattended (c : Connection K) : Bool :=
  c.tasks.all (!·.task.reopens)
lemma step_freedOnce (h : s.step label = some t) : t.connection.FreedOnce := by
  obtain ⟨hzero,hdoes⟩ := System.does_of_step h
  obtain hsame | hfreed := hdoes.lives.1
  · exact .inl (hsame.trans hzero)
  · have hone : t.connection.frees = s.connection.frees + 1 := hfreed.frees
    rw [hzero] at hone
    exact .inr ⟨hone,hfreed.wsclient,hfreed.tasks⟩
def Connection.Shut (c : Connection K) : Prop :=
  c.lifetime.Ending ∨ c.status = .closed ∧ c.frees = 1
lemma step_shut (hs : s.connection.Shut) (hlabel : label.isConnected = false) (h : s.step label = some t) :
    t.connection.Shut := by
  obtain ⟨hzero,hdoes⟩ := System.does_of_step h
  obtain hending | ⟨-,hone⟩ := hs
  · obtain hending' | hfreed := (hdoes.closing hending hlabel).1
    · exact .inl hending'
    · have hone : t.connection.frees = s.connection.frees + 1 := hfreed.frees
      exact .inr ⟨hfreed.status,hone.trans (by rw [hzero])⟩
  · omega
lemma shut_keepsClosing (hs : s.connection.Shut) (hlabel : label.isConnected = false) : s.KeepsClosing label := by
  intro t h
  obtain ⟨hzero,hdoes⟩ := System.does_of_step h
  obtain hending | ⟨-,hone⟩ := hs
  · exact (hdoes.closing hending hlabel).2
  · omega

lemma close_shut (hs : s.connection.wsclient = false ∨ s.connection.unattended)
    (hclose : s.step .close = some t) : t.connection.Shut := by
  obtain ⟨hzero,hdoes⟩ := System.does_of_step hclose
  generalize t.connection = d at hdoes
  cases hdoes
  obtain ⟨hclient,heq⟩ | hfreed :=
    free_lifetime (c := { s.connection with reconnectCb := false, closed := true }.abortOutbound)
  · have hunattended := hs.resolve_left (fun hnone => Bool.noConfusion (hclient.symm.trans hnone))
    unfold close
    rw [heq]
    refine .inl ⟨rfl,rfl,fun entry hentry => ?_⟩
    have hentry' := all_eq_true.1 hunattended entry hentry
    exact Bool.not_eq_true' _ ▸ hentry'
  · have hone : s.connection.close.frees = s.connection.frees + 1 := hfreed.frees
    exact .inr ⟨hfreed.status,hone.trans (by rw [hzero])⟩

/-- The connection is freed at most once after a close, when its client has ended. It stays closing and keeps the task
that frees it if no task was queued that connects or resets it, and the client does not connect afterwards. -/
theorem close_staysClosing (hclose : s.step .close = some t) (after : List (Label K)) :
    Always System.step (fun u => u.connection.FreedOnce) t after ∧
    Along System.step System.EndsByReport t after ∧
    (s.connection.wsclient = false ∨ s.connection.unattended → (∀ label ∈ after, label.isConnected = false) →
      Always System.step (·.connection.IsClosing) t after ∧ Along System.step System.KeepsClosing t after) := by
  refine ⟨?_,?_,?_⟩
  · have hstep {u v : System K} {label : Label K} (_ : u.connection.FreedOnce) (_ : True)
        (h : u.step label = some v) : v.connection.FreedOnce := step_freedOnce h
    exact always_of_along hstep id (step_freedOnce hclose) along_true
  · exact along_true.mono fun u label _ v h => (System.does_of_step h).2.lives.2
  · intro hunattended hconnected
    have ht := close_shut hunattended hclose
    have hafter : Along System.step (fun _ label => label.isConnected = false) t after := along_of_mem hconnected
    constructor
    · refine always_of_along step_shut (fun hu => ?_) ht hafter
      exact hu.imp_left Lifetime.Ending.status
    · exact .of_invariant step_shut shut_keepsClosing ht hafter

def ended : List (Label ℕ) :=
  [.event .closed,.run 1 {}]
theorem ended_staysClosing : ∃ s t u, Runs System.step ⟨relay,0⟩ opened s ∧ s.step .close = some t ∧
    Runs System.step t ended u ∧ u.connection.frees = 1 ∧
    Always System.step (fun u => u.connection.FreedOnce) t ended ∧
    Along System.step System.EndsByReport t ended ∧
    Always System.step (fun u => u.connection.IsClosing) t ended ∧ Along System.step System.KeepsClosing t ended := by
  obtain ⟨s,hs,hunattended,t,ht,u,hu,hfrees⟩ : ∃ s, Runs System.step ⟨relay,0⟩ opened s ∧
      s.connection.unattended ∧ ∃ t, s.step .close = some t ∧ ∃ u, Runs System.step t ended u ∧
        u.connection.frees = 1 := by decide +kernel
  obtain ⟨honce,hreport,hcloses⟩ := close_staysClosing ht ended
  obtain ⟨hclosing,hkeeps⟩ := hcloses (.inr hunattended) (by decide)
  exact ⟨s,t,u,hs,ht,hu,hfrees,honce,hreport,hclosing,hkeeps⟩
def lost : List (Label ℕ) :=
  opened ++ [.event .disconnected,.run 1 {}]

/-- A reset that waited at the close clears the task that frees the connection, and connects again. -/
theorem lost_not_staysClosing : ∃ s t u v, Runs System.step ⟨relay,0⟩ lost s ∧ s.step .close = some t ∧
    t.step (.event .closed) = some u ∧ u.connection.freePending ∧ u.connection.status = .closing ∧
    Runs System.step u [.run 1 {},.run 0 {}] v ∧ v.connection.freePending = false ∧
    v.connection.status = .disconnected ∧ u.connection.pal.count .connect = 1 ∧
    v.connection.pal.count .connect = 2 ∧ v.connection.frees = 0 := by
  simp only [exists_and_left]
  decide +kernel

end EdgeProxy.Ws
