import EdgeProxy.Lib.Transition
import EdgeProxy.Xio.Handle

/-! # The lifetime of a socket handle

A socket handle is freed by a task, once it is destroyed and closed. Destroying it delivers the close result by itself.
-/
namespace EdgeProxy.Xio
open Base Lib Option Handle List

variable {x y : Handle} {label : Label}

structure Life where
  layer : Layer
  pal : Bool
  scheduler : Bool
  closed : Bool
  destroy : Bool
  tasks : List Task
  live : Bool
  reported : Bool
  owned : Bool
  frees : ℕ
  late : ℕ

def Handle.life (x : Handle) : Life :=
  ⟨x.layer,x.pal,x.scheduler,x.closed,x.destroy,x.tasks,x.live,x.reported,x.owned,x.frees,x.late⟩
def Life.doNext (l : Life) (task : Task) : Life :=
  if l.scheduler then { l with tasks := l.tasks ++ [task] } else l

variable {task : Task} {index : ℕ}

lemma Life.doNext_eq {l : Life} (h : l.scheduler) : l.doNext task = { l with tasks := l.tasks ++ [task] } :=
  if_pos h
lemma doNext_life (task : Task) : (x.doNext task).life = x.life.doNext task := by
  change (if x.scheduler then _ else _ : Handle).life = if x.scheduler then _ else _
  split <;> rfl

lemma deliverOpenResult_life : x.deliverOpenResult.life = x.life := by
  unfold deliverOpenResult
  dsimp only
  repeat' split
  all_goals rfl
lemma deliverInboundResults_life : x.deliverInboundResults.life = x.life := by
  unfold deliverInboundResults
  split <;> rfl
lemma reportClose_life : x.reportError.reportClose.life = x.life := by
  have hclose (z : Handle) : z.reportClose.life = z.life := by
    unfold reportClose
    split <;> rfl
  rw [hclose]
  unfold reportError
  split <;> rfl

lemma deliverCloseResult_life : x.deliverCloseResult.life =
      if x.destroy then { x.life with closed := true }.doNext .free else { x.life with closed := true } := by
  unfold deliverCloseResult
  dsimp only
  have hlife : x.deliverInboundResults.deliverOutboundResults.cancelOutbound.reportError.reportClose.life = x.life :=
    reportClose_life.trans deliverInboundResults_life
  generalize x.deliverInboundResults.deliverOutboundResults.cancelOutbound.reportError.reportClose = z at hlife
  have hdestroy : z.destroy = x.destroy := congrArg Life.destroy hlife
  rw [← hlife,← hdestroy]
  split
  · exact doNext_life _
  · rfl

lemma socketFree_life :
    x.socketFree.life = if x.closed then { x.life with destroy := true, tasks := [], frees := x.frees + 1 }
      else { x.life with destroy := true } := by
  unfold socketFree
  by_cases hclosed : x.closed
  · rw [if_neg (by simp [hclosed])]
    split <;> rfl
  · rw [if_neg hclosed,if_pos (by simp [hclosed])]
    rfl
lemma destroyHandle_life (hscheduler : x.scheduler) :
    x.destroyHandle.life = { x.life with owned := false, tasks := [.free,.deliverCloseResult] } := by
  have hfirst : { x with owned := false, tasks := [] }.abortOutbound.life.doNext .free =
      { x.life with owned := false, tasks := [.free] } := Life.doNext_eq hscheduler
  rw [destroyHandle_eq hscheduler,doNext_life,doNext_life,hfirst]
  exact Life.doNext_eq hscheduler

lemma handleEvent_life {event} (hlayer : x.layer = .socket) (h : x.handleEvent event = some y) :
    ∃ live reported tasks, y.life = { x.life with live, reported, tasks } ∧ (.free ∈ tasks → .free ∈ x.tasks) := by
  have hnext {z : Handle} (task : Task) (hz : z.tasks = x.tasks) (htask : task ≠ .free) :
      ∃ tasks, (z.doNext task).life = { z.life with tasks } ∧ (.free ∈ tasks → .free ∈ x.tasks) := by
    rw [doNext_life,← hz]
    unfold Life.doNext
    split
    · refine ⟨_,rfl,fun hfree => (mem_append.1 hfree).elim id fun hlast => ?_⟩
      exact absurd (mem_singleton.1 hlast).symm htask
    · exact ⟨_,rfl,id⟩
  cases event with
  | opened error =>
    cases h
    obtain ⟨tasks,heq,hfree⟩ := hnext (z := { x with lastError := error }) .deliverOpenResult rfl nofun
    exact ⟨_,_,tasks,heq,hfree⟩
  | beginRecv =>
    obtain ⟨-,⟨⟩⟩ := ite_none_left_eq_some.1 h
    exact ⟨_,_,_,rfl,id⟩
  | endRecv =>
    obtain ⟨-,⟨⟩⟩ := ite_none_right_eq_some.1 h
    unfold onEndReceive
    split
    · exact ⟨_,_,_,rfl,id⟩
    · obtain ⟨tasks,heq,hfree⟩ := hnext (z := { x with receiving := false, inbound := _ })
        .deliverInboundResults rfl nofun
      exact ⟨_,_,tasks,heq,hfree⟩
  | beginSend =>
    obtain ⟨-,⟨⟩⟩ := ite_none_left_eq_some.1 h
    unfold onBeginSend
    split <;> exact ⟨_,_,_,rfl,id⟩
  | endSend =>
    obtain ⟨buffer,-,rfl⟩ := map_eq_some_iff.1 h
    unfold onEndSend
    dsimp only
    split
    · exact ⟨_,_,_,rfl,id⟩
    · split
      · obtain ⟨tasks,heq,hfree⟩ := hnext (z := { x with sending := none, done := _ })
          .deliverOutboundResults rfl nofun
        exact ⟨_,_,tasks,heq,hfree⟩
      · exact ⟨_,_,_,rfl,id⟩
  | closed error =>
    unfold handleEvent at h
    dsimp only at h
    split at h
    · obtain ⟨-,⟨⟩⟩ := ite_none_left_eq_some.1 h
      obtain ⟨tasks,heq,hfree⟩ := hnext (z := { x with lastError := error, live := false, reported := true })
        .deliverCloseResult rfl nofun
      exact ⟨_,_,tasks,heq,hfree⟩
    · rename_i hwsclient
      cases hlayer.symm.trans hwsclient
  | ended =>
    unfold handleEvent at h
    dsimp only at h
    split at h
    · cases h
    · rename_i hwsclient
      cases hlayer.symm.trans hwsclient

structure Life.Held (l : Life) : Prop where
  layer : l.layer = .socket
  owned : l.owned
  destroy : l.destroy = false
  tasks : .free ∉ l.tasks
  frees : l.frees = 0
  late : l.late = 0

structure Life.Leaving (l : Life) : Prop where
  layer : l.layer = .socket
  owned : l.owned = false
  scheduler : l.scheduler
  live : l.live = false
  reported : l.reported
  frees : l.frees = 0
  late : l.late = 0
  closes : l.closed ∨ .deliverCloseResult ∈ l.tasks
  releases : .free ∈ l.tasks ∨ l.destroy ∧ .deliverCloseResult ∈ l.tasks

structure Life.Gone (l : Life) : Prop where
  owned : l.owned = false
  live : l.live = false
  reported : l.reported
  tasks : l.tasks = []
  frees : l.frees = 1
  late : l.late = 0

def Life.Phase (l : Life) : Prop :=
  l.Held ∨ l.Leaving ∨ l.Gone

/-- The owner destroys a handle only if it has a scheduler and the platform has reported that the socket is closed. The
tasks that free a destroyed handle are not lost. -/
def Handle.Orderly (x : Handle) : Label → Prop
  | .destroy => x.scheduler ∧ x.reported ∧ x.live = false
  | .drop index => x.owned ∨ x.tasks[index]? ≠ some .free ∧ x.tasks[index]? ≠ some .deliverCloseResult
  | _ => True

instance : Decidable (x.Orderly label) :=
  match label with
  | .destroy => inferInstanceAs (Decidable (_ ∧ _))
  | .drop _ => inferInstanceAs (Decidable (_ ∨ _))
  | .setoption _ | .open _ _ _ | .send _ _ _ | .close _ | .run _ | .event _ => .isTrue trivial
lemma mem_eraseIdx_of_ne {tasks : List Task} {other} (h : tasks[index]? = some task)
    (hother : other ∈ tasks) (hne : other ≠ task) : other ∈ tasks.eraseIdx index := by
  obtain ⟨i,hi⟩ := mem_iff_getElem?.1 hother
  refine mem_eraseIdx_iff_getElem?.2 ⟨i,?_,hi⟩
  rintro rfl
  exact hne (Option.some.inj (hi.symm.trans h))
lemma Life.Held.update {l : Life} (h : l.Held) {pal scheduler closed live reported tasks}
    (htasks : .free ∈ tasks → .free ∈ l.tasks) : { l with pal, scheduler, closed, live, reported, tasks }.Held :=
  ⟨h.layer,h.owned,h.destroy,fun hfree => h.tasks (htasks hfree),h.frees,h.late⟩

lemma Life.Held.runTask (h : x.life.Held) (htask : x.tasks[index]? = some task) :
    ({ x with tasks := x.tasks.eraseIdx index }.runTask task).life.Held := by
  have herased : .free ∈ x.tasks.eraseIdx index → .free ∈ x.tasks := mem_of_mem_eraseIdx
  have hheld : ({ x with tasks := x.tasks.eraseIdx index }).life.Held := h.update herased
  cases task with
  | deliverOpenResult =>
    unfold runTask
    rw [deliverOpenResult_life]
    exact hheld
  | deliverInboundResults =>
    unfold runTask
    rw [deliverInboundResults_life]
    exact hheld
  | deliverOutboundResults => exact hheld
  | deliverCloseResult =>
    unfold runTask
    have hdestroy : x.destroy = false := h.destroy
    rw [deliverCloseResult_life,if_neg (by simp [hdestroy])]
    exact h.update herased
  | free => exact absurd (mem_of_getElem? htask) h.tasks

lemma Life.Leaving.erase (h : x.life.Leaving) (htask : x.tasks[index]? = some task) (hfree : task ≠ .free)
    (hclose : task ≠ .deliverCloseResult) : ({ x with tasks := x.tasks.eraseIdx index } : Handle).life.Leaving where
  layer := h.layer
  owned := h.owned
  scheduler := h.scheduler
  live := h.live
  reported := h.reported
  frees := h.frees
  late := h.late
  closes := h.closes.imp_right fun hmem => mem_eraseIdx_of_ne htask hmem hclose.symm
  releases := h.releases.imp (fun hmem => mem_eraseIdx_of_ne htask hmem hfree.symm)
    fun hmem => ⟨hmem.1,mem_eraseIdx_of_ne htask hmem.2 hclose.symm⟩

lemma Life.Leaving.deliverClose (h : x.life.Leaving) (htask : x.tasks[index]? = some .deliverCloseResult) :
    ({ x with tasks := x.tasks.eraseIdx index } : Handle).deliverCloseResult.life.Leaving := by
  rw [deliverCloseResult_life]
  by_cases hdestroy : x.destroy
  · rw [if_pos hdestroy,Life.doNext_eq (by exact h.scheduler)]
    exact ⟨h.layer,h.owned,h.scheduler,h.live,h.reported,h.frees,h.late,.inl rfl,
      .inl (mem_append_right _ (mem_singleton.2 rfl))⟩
  · rw [if_neg hdestroy]
    have hfree : .free ∈ x.tasks := h.releases.resolve_right fun hmem => hdestroy hmem.1
    exact ⟨h.layer,h.owned,h.scheduler,h.live,h.reported,h.frees,h.late,.inl rfl,
      .inl (mem_eraseIdx_of_ne htask hfree nofun)⟩

lemma Life.Leaving.free (h : x.life.Leaving) (htask : x.tasks[index]? = some .free) :
    ({ x with tasks := x.tasks.eraseIdx index } : Handle).free.life.Phase := by
  have heq : ({ x with tasks := x.tasks.eraseIdx index }).free =
      ({ x with tasks := x.tasks.eraseIdx index }).socketFree := by
    unfold Handle.free
    have hlayer : x.layer = .socket := h.layer
    rw [hlayer]
  rw [heq,socketFree_life]
  by_cases hclosed : x.closed
  · rw [if_pos hclosed]
    exact .inr (.inr ⟨h.owned,h.live,h.reported,rfl,congrArg Nat.succ h.frees,h.late⟩)
  · -- the task that delivers the close result queues the task again
    rw [if_neg hclosed]
    have hclose := mem_eraseIdx_of_ne htask (h.closes.resolve_left hclosed) nofun
    exact .inr (.inl ⟨h.layer,h.owned,h.scheduler,h.live,h.reported,h.frees,h.late,.inr hclose,.inr ⟨rfl,hclose⟩⟩)

lemma Life.Leaving.runTask (h : x.life.Leaving) (htask : x.tasks[index]? = some task) :
    ({ x with tasks := x.tasks.eraseIdx index }.runTask task).life.Phase := by
  cases task with
  | deliverOpenResult =>
    unfold runTask
    rw [deliverOpenResult_life]
    exact .inr (.inl (h.erase htask nofun nofun))
  | deliverInboundResults =>
    unfold runTask
    rw [deliverInboundResults_life]
    exact .inr (.inl (h.erase htask nofun nofun))
  | deliverOutboundResults => exact .inr (.inl (h.erase htask nofun nofun))
  | deliverCloseResult => exact .inr (.inl (h.deliverClose htask))
  | free => exact h.free htask

lemma Life.Held.step (h : x.life.Held) (horderly : x.Orderly label) (hstep : x.step label = some y) :
    y.life.Held ∨ y.life.Leaving := by
  have hfrees : ¬x.frees ≠ 0 := not_not_intro h.frees
  unfold Handle.step at hstep
  rw [if_neg hfrees] at hstep
  cases label with
  | setoption =>
    obtain ⟨-,⟨⟩⟩ := ite_none_right_eq_some.1 hstep
    unfold setoption
    split <;> exact .inl (h.update id)
  | «open» handlers scheduler result =>
    obtain ⟨-,⟨⟩⟩ := ite_none_right_eq_some.1 hstep
    unfold Handle.open
    dsimp only
    repeat' split
    all_goals exact .inl (h.update id)
  | send =>
    obtain ⟨-,⟨⟩⟩ := ite_none_right_eq_some.1 hstep
    unfold send
    repeat' split
    all_goals exact .inl h
  | close =>
    obtain ⟨-,⟨⟩⟩ := ite_none_right_eq_some.1 hstep
    unfold close
    dsimp only
    repeat' split
    all_goals exact .inl (h.update id)
  | destroy =>
    obtain ⟨-,⟨⟩⟩ := ite_none_right_eq_some.1 hstep
    obtain ⟨hscheduler,hreported,hlive⟩ := horderly
    rw [destroyHandle_life hscheduler]
    have hclose : Task.deliverCloseResult ∈ [.free,.deliverCloseResult] := by decide
    exact .inr ⟨h.layer,rfl,hscheduler,hlive,hreported,h.frees,h.late,.inr hclose,.inl mem_cons_self⟩
  | run =>
    obtain ⟨task,htask,rfl⟩ := map_eq_some_iff.1 hstep
    exact .inl (h.runTask htask)
  | drop =>
    obtain ⟨task,-,rfl⟩ := map_eq_some_iff.1 hstep
    exact .inl (h.update mem_of_mem_eraseIdx)
  | event =>
    obtain ⟨-,heq⟩ := ite_none_right_eq_some.1 hstep
    obtain ⟨_,_,_,hlife,hfree⟩ := handleEvent_life h.layer heq
    rw [hlife]
    exact .inl (h.update hfree)

lemma Life.Leaving.step (h : x.life.Leaving) (horderly : x.Orderly label) (hstep : x.step label = some y) :
    y.life.Phase := by
  have hfrees : ¬x.frees ≠ 0 := not_not_intro h.frees
  have howned : x.owned = false := h.owned
  have hlive : x.live = false := h.live
  unfold Handle.step at hstep
  rw [if_neg hfrees] at hstep
  cases label with
  | run =>
    obtain ⟨task,htask,rfl⟩ := map_eq_some_iff.1 hstep
    exact h.runTask htask
  | drop =>
    obtain ⟨task,htask,rfl⟩ := map_eq_some_iff.1 hstep
    obtain ⟨hfree,hclose⟩ := horderly.resolve_left (by rw [howned]; exact Bool.false_ne_true)
    exact .inr (.inl (h.erase htask (fun heq => hfree (heq ▸ htask)) fun heq => hclose (heq ▸ htask)))
  | event =>
    obtain ⟨habsurd,-⟩ := ite_none_right_eq_some.1 hstep
    exact Bool.noConfusion (hlive.symm.trans habsurd)
  | _ =>
    obtain ⟨habsurd,-⟩ := ite_none_right_eq_some.1 hstep
    exact Bool.noConfusion (howned.symm.trans habsurd)

lemma step_phase (h : x.life.Phase) (horderly : x.Orderly label) (hstep : x.step label = some y) : y.life.Phase := by
  obtain hheld | hleaving | hgone := h
  · exact (hheld.step horderly hstep).imp_right .inl
  · exact hleaving.step horderly hstep
  · -- nothing happens to a handle that is freed
    have hfrees : x.frees ≠ 0 := fun h => nomatch hgone.frees.symm.trans h
    have hlive : x.live = false := hgone.live
    unfold step at hstep
    rw [if_pos hfrees] at hstep
    cases label with
    | event =>
      obtain ⟨habsurd,-⟩ := ite_none_right_eq_some.1 hstep
      exact Bool.noConfusion (hlive.symm.trans habsurd)
    | _ => cases hstep

/-- The handle is freed at most once, after the platform reported that the socket is closed, or without one; no event
comes after that; and once nothing is left to happen, it is freed. -/
structure Handle.EndsWell (x : Handle) : Prop where
  reported : x.frees ≠ 0 → x.reported ∨ x.pal = false
  once : x.frees ≤ 1
  late : x.late = 0
  freed : x.owned = false → x.tasks = [] → x.live = false → x.frees = 1

lemma Life.Phase.endsWell (h : x.life.Phase) : x.EndsWell := by
  obtain hheld | hleaving | hgone := h
  · have hfrees : x.frees = 0 := hheld.frees
    refine ⟨fun hne => absurd hfrees hne,?_,hheld.late,fun howned => ?_⟩
    · omega
    · exact Bool.noConfusion (howned.symm.trans hheld.owned)
  · have hfrees : x.frees = 0 := hleaving.frees
    refine ⟨fun hne => absurd hfrees hne,?_,hleaving.late,fun _ htasks => ?_⟩
    · omega
    · have hreleases : .free ∈ x.tasks ∨ x.destroy ∧ .deliverCloseResult ∈ x.tasks := hleaving.releases
      rw [htasks] at hreleases
      obtain hmem | ⟨-,hmem⟩ := hreleases <;> cases hmem
  · exact ⟨fun _ => .inl hgone.reported,Nat.le_of_eq hgone.frees,hgone.late,fun _ _ _ => hgone.frees⟩

/-- A socket handle ends well in every orderly run. -/
theorem socket_endsWell {queue otherQueue pal : Option PrxError} {labels : List Label}
    (hcreated : queue.or (otherQueue.or pal) = none)
    (h : Runs Handle.step (.create .socket queue otherQueue pal) labels x)
    (horderly : Along Handle.step Handle.Orderly (.create .socket queue otherQueue pal) labels) : x.EndsWell := by
  have hcreate : create .socket queue otherQueue pal = { allocated .socket with pal := true } := by
    unfold create
    rw [hcreated]
  rw [hcreate] at h horderly
  have hstart : ({ allocated .socket with pal := true }).life.Phase :=
    .inl ⟨rfl,rfl,rfl,List.not_mem_nil,rfl,rfl⟩
  exact (h.invariant step_phase horderly hstart).endsWell

def closedThenDestroyed : List Label :=
  [.open ⟨true,true,true⟩ none none,.event (.opened none),.run 0,.close true,.event (.closed none),.destroy,.run 0,
    .run 0,.run 0]

/-- It is freed. -/
theorem closedThenDestroyed_endsWell :
    ∃ x, Runs Handle.step (.create .socket none none none) closedThenDestroyed x ∧ x.EndsWell ∧ x.frees = 1 := by
  obtain ⟨x,hx,hfrees⟩ : ∃ x, Runs step (.create .socket none none none) closedThenDestroyed x ∧ x.frees = 1 := by
    decide +kernel
  exact ⟨x,hx,socket_endsWell rfl hx (by decide +kernel),hfrees⟩

def destroyedOpen : List Label :=
  [.open ⟨true,true,true⟩ none none,.event (.opened none),.run 0,.destroy,.run 0,.run 0,.run 0,.event (.beginRecv true)]

/-- It is freed without a report, and an event comes after that. -/
theorem destroyedOpen_not_endsWell :
    ∃ x, Runs Handle.step (.create .socket none none none) destroyedOpen x ∧ ¬x.EndsWell ∧ x.frees = 1 ∧
      x.reported = false ∧ x.late = 1 := by
  obtain ⟨x,hx,hp⟩ : ∃ x, Runs step (.create .socket none none none) destroyedOpen x ∧
      x.frees = 1 ∧ x.reported = false ∧ x.late = 1 := by decide +kernel
  have hends : ¬x.EndsWell := fun h => nomatch hp.2.2.symm.trans h.late
  exact ⟨x,hx,hends,hp⟩

/-- A handle that is destroyed without a scheduler is never freed. -/
example : (run Handle.step (.create .socket none none none) [.destroy]).map (fun x => (x.owned,x.tasks,x.frees)) =
    some (false,[],0) := by
  decide

end EdgeProxy.Xio
