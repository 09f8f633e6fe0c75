import Mathlib.Data.List.Perm.Basic
import Mathlib.Data.List.Nodup
import EdgeProxy.Lib.Transition
import EdgeProxy.Xio.Handle

/-! # Completion of sends

The callback of a send is in its buffer until the buffer is released or aborted, which calls it. The tasks that deliver
results call it as well, and leave it in the buffer that they then release.
-/
namespace EdgeProxy.Xio
open Base Lib List Option Handle Prod

variable {x y : Handle} {label : Label}

section

def callbacks (buffers : List Outgoing) : List ℕ :=
  buffers.filterMap Outgoing.cb
def Handle.queued (x : Handle) : List Outgoing :=
  x.done ++ x.inprogress ++ x.ready

/-- Where the callbacks are: with the buffer that the platform holds, in the queue, or called. -/
structure Ledger where
  held : List ℕ
  queued : List ℕ
  called : List ℕ
  accepted : List ℕ
  sends : ℕ
  frees : ℕ

def Handle.ledger (x : Handle) : Ledger where
  held := callbacks x.sending.toList
  queued := callbacks x.queued
  called := x.completions.map Prod.fst
  accepted := x.accepted
  sends := x.sends
  frees := x.frees

namespace Ledger

def waiting (l : Ledger) : List ℕ :=
  if l.frees = 0 then l.held ++ l.queued else []

structure Calls (l : Ledger) (twice : List ℕ) (m : Ledger) : Prop where
  perm : (m.held ++ m.queued ++ m.called).Perm (l.held ++ l.queued ++ l.called ++ twice)
  accepted : m.accepted = l.accepted
  sends : m.sends = l.sends
  frees : m.frees = l.frees

structure Accepts (l : Ledger) (fresh : List ℕ) (m : Ledger) : Prop where
  numbered : fresh = [] ∨ fresh = [l.sends]
  held : m.held = l.held
  queued : m.queued = l.queued ++ fresh
  called : m.called = l.called
  accepted : m.accepted = l.accepted ++ fresh
  sends : m.sends = l.sends + 1
  frees : m.frees = l.frees

/-- What a step does with the callbacks, with those that it calls twice and those that it loses. -/
inductive Moves (l : Ledger) : List ℕ → List ℕ → Ledger → Prop
  | calls {m : Ledger} {twice : List ℕ} : l.Calls twice m → l.Moves twice [] m
  | accepts {m : Ledger} {fresh : List ℕ} : l.Accepts fresh m → l.Moves [] [] m
  | frees {called : List ℕ} : called.Perm (l.called ++ l.queued) →
      l.Moves [] l.held { l with queued := [], called, frees := l.frees + 1 }

lemma Calls.refl (l : Ledger) : l.Calls [] l :=
  ⟨by rw [append_nil],rfl,rfl,rfl⟩
lemma Calls.trans {l m n : Ledger} {xs ys} (h : l.Calls xs m) (h' : m.Calls ys n) : l.Calls (xs ++ ys) n where
  perm := by
    rw [← append_assoc]
    exact h'.perm.trans (h.perm.append_right ys)
  accepted := h'.accepted.trans h.accepted
  sends := h'.sends.trans h.sends
  frees := h'.frees.trans h.frees

structure Numbered (l : Ledger) : Prop where
  nodup : l.accepted.Nodup
  lt : ∀ key ∈ l.accepted, key < l.sends

def Known (l : Ledger) : Prop :=
  l.held ++ l.queued ++ l.called ⊆ l.accepted

/-- Each callback that was accepted is called or waits. -/
def Accounted (l : Ledger) : Prop :=
  (l.called ++ l.waiting).Perm l.accepted

end Ledger

variable {l m : Ledger} {twice lost : List ℕ}

lemma Ledger.Accepts.keepsNumbered {fresh} (h : l.Accepts fresh m) (hl : l.Numbered) : m.Numbered := by
  obtain hnone | hone := h.numbered
  · have haccepted : m.accepted = l.accepted := by rw [h.accepted,hnone,append_nil]
    refine ⟨haccepted ▸ hl.nodup,fun key hkey => ?_⟩
    rw [haccepted] at hkey
    rw [h.sends]
    exact Nat.lt_succ_of_lt (hl.lt key hkey)
  · have haccepted : m.accepted = l.accepted ++ [l.sends] := by rw [h.accepted,hone]
    refine ⟨?_,fun key hkey => ?_⟩
    · rw [haccepted]
      refine .append hl.nodup (nodup_singleton _) ?_
      exact disjoint_singleton.2 fun hmem => Nat.lt_irrefl _ (hl.lt _ hmem)
    · rw [h.sends]
      rw [haccepted] at hkey
      obtain hkey | hkey := mem_append.1 hkey
      · exact Nat.lt_succ_of_lt (hl.lt key hkey)
      · rw [mem_singleton.1 hkey]
        exact Nat.lt_succ_self _

lemma Ledger.Moves.numbered (h : l.Moves twice lost m) (hl : l.Numbered) : m.Numbered := by
  cases h with
  | calls hcalls =>
    have hlt := hl.lt
    rw [← hcalls.accepted,← hcalls.sends] at hlt
    exact ⟨hcalls.accepted ▸ hl.nodup,hlt⟩
  | accepts haccepts => exact haccepts.keepsNumbered hl
  | frees => exact ⟨hl.nodup,hl.lt⟩

lemma Ledger.Moves.known (h : l.Moves twice lost m) (htwice : twice ⊆ l.queued) (hl : l.Known) : m.Known := by
  unfold Known at ⊢
  have hqueued : l.queued ⊆ l.accepted :=
    List.Subset.trans (subset_append_of_subset_left _ (subset_append_right _ _)) hl
  cases h with
  | calls hcalls =>
    rw [hcalls.accepted]
    exact List.Subset.trans hcalls.perm.subset (append_subset.2 ⟨hl,List.Subset.trans htwice hqueued⟩)
  | @accepts _ fresh haccepts =>
    rw [haccepts.held,haccepts.queued,haccepts.called,haccepts.accepted]
    intro key hkey
    have hkeys : key ∈ l.held ++ l.queued ++ l.called ∨ key ∈ fresh := by
      simp only [mem_append] at hkey ⊢
      tauto
    exact mem_append.2 (hkeys.imp_left (hl ·))
  | @frees called hcalled =>
    intro key hkey
    apply hl
    have hmem := hcalled.mem_iff (a := key)
    simp only [mem_append] at hmem hkey ⊢
    tauto

lemma Ledger.accounted_iff (hfrees : l.frees = 0) :
    l.Accounted ↔ (l.called ++ (l.held ++ l.queued)).Perm l.accepted := by
  rw [Accounted,waiting,if_pos hfrees]

lemma Ledger.Moves.accounted (h : l.Moves twice lost m) (hfrees : l.frees = 0) (hl : l.Accounted) :
    m.Accounted ↔ twice = [] ∧ lost = [] := by
  rw [accounted_iff hfrees] at hl
  cases h with
  | calls hcalls =>
    have hall : (m.called ++ (m.held ++ m.queued)).Perm (l.accepted ++ twice) :=
      calc
        (m.called ++ (m.held ++ m.queued)).Perm (m.held ++ m.queued ++ m.called) := perm_append_comm
        _ |>.Perm (l.held ++ l.queued ++ l.called ++ twice) := hcalls.perm
        _ |>.Perm (l.accepted ++ twice) := (perm_append_comm.trans hl).append_right twice
    rw [accounted_iff (hcalls.frees.trans hfrees),hcalls.accepted]
    constructor
    · intro hm
      have hlength := (hall.symm.trans hm).length_eq
      rw [length_append,Nat.add_eq_left] at hlength
      exact ⟨eq_nil_of_length_eq_zero hlength,rfl⟩
    · rintro ⟨rfl,-⟩
      rwa [append_nil] at hall
  | accepts haccepts =>
    refine iff_of_true ((accounted_iff (haccepts.frees.trans hfrees)).2 ?_) ⟨rfl,rfl⟩
    rw [haccepts.called,haccepts.held,haccepts.queued,haccepts.accepted]
    rw [← append_assoc l.held,← append_assoc l.called]
    exact hl.append_right _
  | @frees called hcalled =>
    have hnone : (if l.frees + 1 = 0 then l.held ++ [] else []) = [] := if_neg (Nat.succ_ne_zero _)
    rw [Accounted,waiting,hnone,append_nil]
    constructor
    · intro hm
      have hlength := ((hcalled.symm.trans hm).trans hl.symm).length_eq
      simp only [length_append] at hlength
      exact ⟨rfl,eq_nil_of_length_eq_zero (by omega)⟩
    · rintro ⟨-,hheld⟩
      rw [hheld] at hl
      exact hcalled.trans hl

end

lemma callbacks_append (xs ys : List Outgoing) : callbacks (xs ++ ys) = callbacks xs ++ callbacks ys :=
  filterMap_append
lemma abort_called (buffers : List Outgoing) : (buffers.flatMap Outgoing.abort).map fst = callbacks buffers := by
  induction buffers with
  | nil => rfl
  | cons buffer buffers ih =>
    rw [flatMap_cons,map_append,ih]
    obtain ⟨data,readOffset,_ | cb,code⟩ := buffer <;> rfl
lemma completeAndRelease_called (result : Outgoing → SendResult) (buffers : List Outgoing) :
    ((buffers.flatMap fun buffer => buffer.completeAndRelease (result buffer)).map fst).Perm
      (callbacks buffers ++ callbacks buffers) := by
  induction buffers with
  | nil => rfl
  | cons buffer buffers ih =>
    obtain ⟨data,readOffset,_ | cb,code⟩ := buffer
    · exact ih
    · exact ((ih.cons cb).trans perm_middle.symm).cons cb
lemma forget_callbacks (buffers : List Outgoing) :
    callbacks (buffers.map fun buffer => { buffer with cb := none }) = [] := by
  induction buffers with
  | nil => rfl
  | cons buffer buffers ih => exact ih

lemma doNext_ledger (task : Task) : (x.doNext task).ledger = x.ledger := by
  unfold doNext
  split <;> rfl
def Handle.occurrences (x : Handle) (key : ℕ) : ℕ :=
  (callbacks x.sending.toList).count key + (callbacks x.queued).count key + (x.completions.map Prod.fst).count key

lemma calls_of_count {twice} (hcount : ∀ key, y.occurrences key = x.occurrences key + twice.count key)
    (haccepted : y.accepted = x.accepted) (hsends : y.sends = x.sends) (hfrees : y.frees = x.frees) :
    x.ledger.Calls twice y.ledger where
  perm := by
    apply perm_iff_count.2
    intro key
    simp only [count_append]
    exact hcount key
  accepted := haccepted
  sends := hsends
  frees := hfrees

lemma abortOutbound_calls : x.ledger.Calls [] x.abortOutbound.ledger := by
  have hqueued : callbacks x.abortOutbound.queued = [] := by
    unfold queued abortOutbound
    simp [callbacks_append,forget_callbacks,append_nil]
  have hcalled : x.abortOutbound.completions.map fst = x.completions.map fst ++ callbacks x.queued := by
    unfold abortOutbound
    rw [map_append,abort_called]
    rfl
  refine calls_of_count (fun key => ?_) rfl rfl rfl
  unfold occurrences
  rw [hqueued,hcalled,count_append]
  have hsending : x.abortOutbound.sending = x.sending := rfl
  rw [hsending]
  omega

lemma deliverOutboundResults_calls : x.ledger.Calls (callbacks x.done) x.deliverOutboundResults.ledger := by
  refine calls_of_count (fun key => ?_) rfl rfl rfl
  have htwice := (completeAndRelease_called (fun buffer => if buffer.code ≠ none then .error else .ok)
    x.done).count_eq key
  simp only [occurrences,queued,deliverOutboundResults,callbacks_append,map_append,count_append] at htwice ⊢
  rw [htwice]
  simp only [callbacks,filterMap_nil,count_nil]
  omega
lemma cancelOutbound_calls : x.ledger.Calls (callbacks (x.inprogress ++ x.ready)) x.cancelOutbound.ledger := by
  refine calls_of_count (fun key => ?_) rfl rfl rfl
  have htwice := (completeAndRelease_called (fun _ => .cancelled) (x.inprogress ++ x.ready)).count_eq key
  simp only [occurrences,queued,cancelOutbound,callbacks_append,map_append,count_append] at htwice ⊢
  rw [htwice]
  simp only [callbacks,filterMap_nil,count_nil]
  omega
lemma deliverInboundResults_eq : ∃ reports inbound, x.deliverInboundResults = { x with reports, inbound } := by
  unfold deliverInboundResults
  split
  · exact ⟨x.reports,x.inbound,rfl⟩
  · exact ⟨_,_,rfl⟩
lemma reportClose_ledger : x.reportError.reportClose.ledger = x.ledger := by
  have hclose (z : Handle) : z.reportClose.ledger = z.ledger := by
    unfold reportClose
    split <;> rfl
  rw [hclose]
  unfold reportError
  split <;> rfl

lemma deliverCloseResult_calls : x.ledger.Calls (callbacks x.queued) x.deliverCloseResult.ledger := by
  obtain ⟨reports,inbound,heq⟩ := deliverInboundResults_eq
  have hledger : x.deliverCloseResult.ledger =
      { x with reports, inbound }.deliverOutboundResults.cancelOutbound.ledger := by
    unfold deliverCloseResult
    rw [heq]
    dsimp only
    split
    · exact (doNext_ledger _).trans reportClose_ledger
    · exact reportClose_ledger
  have hqueued : callbacks x.queued = callbacks x.done ++ callbacks (x.inprogress ++ x.ready) := by
    rw [← callbacks_append,← append_assoc]
    rfl
  rw [hledger,hqueued]
  have hdeliver : x.ledger.Calls (callbacks x.done) { x with reports, inbound }.deliverOutboundResults.ledger :=
    deliverOutboundResults_calls
  exact hdeliver.trans cancelOutbound_calls

lemma release_moves : x.ledger.Moves [] x.ledger.held x.release.ledger := by
  have hcalled : x.release.completions.map fst = x.completions.map fst ++ callbacks x.queued := by
    unfold release
    rw [map_append,abort_called]
    rfl
  exact .frees (.of_eq hcalled)
def Handle.freeable (x : Handle) : Bool :=
  x.closed && (x.layer = .socket || !x.pal)

lemma free_moves : x.ledger.Moves [] (if x.freeable then x.ledger.held else []) x.free.ledger := by
  have hsame : x.ledger.Moves [] [] x.ledger := .calls (.refl _)
  have hreleased : x.ledger.Moves [] x.ledger.held x.release.ledger := release_moves
  unfold free freeable
  cases x.layer with
  | socket =>
    unfold socketFree
    cases x.closed with
    | false => exact hsame
    | true => cases x.pal <;> exact hreleased
  | wsclient =>
    unfold wsclientFree
    cases x.closed with
    | false => exact hsame
    | true =>
      cases x.pal with
      | false => exact hreleased
      | true => exact hsame

lemma callbacks_cons (buffer : Outgoing) (buffers : List Outgoing) :
    callbacks (buffer :: buffers) = callbacks [buffer] ++ callbacks buffers :=
  callbacks_append [buffer] buffers

lemma onBeginSend_calls (hsending : x.sending.isSome = false) : x.ledger.Calls [] x.onBeginSend.ledger := by
  have hnone : x.sending = none := isSome_eq_false_iff.1 hsending |> isNone_iff_eq_none.1
  unfold onBeginSend
  split
  · rename_i _ _ buffer inprogress hinprogress
    refine calls_of_count (fun key => ?_) rfl rfl rfl
    simp only [occurrences,queued,hnone,hinprogress,callbacks_append,callbacks_cons buffer inprogress,
      count_append,toList_some,toList_none]
    simp only [callbacks,filterMap_nil,count_nil]
    omega
  · rename_i _ _ buffer ready hinprogress hready
    refine calls_of_count (fun key => ?_) rfl rfl rfl
    simp only [occurrences,queued,hnone,hready,callbacks_append,callbacks_cons buffer ready,
      count_append,toList_some,toList_none]
    simp only [callbacks,filterMap_nil,count_nil]
    omega
  · exact .refl _

lemma onEndSend_calls {buffer} (length : ℕ) (result : Option PrxError)
    (hsending : x.sending = some buffer) : x.ledger.Calls [] (x.onEndSend length result buffer).ledger := by
  have habort : buffer.abort.map fst = callbacks [buffer] := by
    rw [← abort_called [buffer],flatMap_singleton]
  unfold onEndSend
  dsimp only
  split
  · refine calls_of_count (fun key => ?_) rfl rfl rfl
    simp only [occurrences,queued,hsending,callbacks_append,count_append,toList_some,toList_none]
    simp only [callbacks,filterMap_nil]
    omega
  · split
    · rw [doNext_ledger]
      refine calls_of_count (fun key => ?_) rfl rfl rfl
      have hsame : callbacks [{ buffer with code := result, readOffset := length }] = callbacks [buffer] := rfl
      simp only [occurrences,queued,hsending,callbacks_append,hsame,count_append,toList_some,toList_none]
      simp only [callbacks,filterMap_nil]
      omega
    · refine calls_of_count (fun key => ?_) rfl rfl rfl
      simp only [occurrences,queued,hsending,map_append,habort,count_append,toList_some,toList_none]
      simp only [callbacks,filterMap_nil]
      omega

def Handle.repeatsBy (x : Handle) : Task → List ℕ
  | .deliverOutboundResults => callbacks x.done
  | .deliverCloseResult => callbacks x.queued
  | _ => []

def Handle.losesBy (x : Handle) : Task → List ℕ
  | .free => if x.freeable then callbacks x.sending.toList else []
  | _ => []
def Handle.repeats (x : Handle) : Label → List ℕ
  | .run index => (x.tasks[index]?.map x.repeatsBy).getD []
  | _ => []

def Handle.loses (x : Handle) : Label → List ℕ
  | .run index => (x.tasks[index]?.map x.losesBy).getD []
  | .destroy => if x.scheduler then [] else x.losesBy .free
  | _ => []

lemma handleEvent_calls {event} (h : x.handleEvent event = some y) : x.ledger.Calls [] y.ledger := by
  cases event with
  | opened =>
    cases h
    rw [doNext_ledger]
    exact .refl _
  | beginRecv =>
    obtain ⟨-,⟨⟩⟩ := ite_none_left_eq_some.1 h
    exact .refl _
  | endRecv =>
    obtain ⟨-,⟨⟩⟩ := ite_none_right_eq_some.1 h
    unfold onEndReceive
    split
    · exact .refl _
    · rw [doNext_ledger]
      exact .refl _
  | beginSend =>
    obtain ⟨hsending,⟨⟩⟩ := ite_none_left_eq_some.1 h
    exact onBeginSend_calls (Bool.not_eq_true _ ▸ hsending)
  | endSend length result =>
    obtain ⟨buffer,hsending,rfl⟩ := map_eq_some_iff.1 h
    exact onEndSend_calls length result hsending
  | closed =>
    unfold handleEvent at h
    dsimp only at h
    split at h
    · obtain ⟨-,⟨⟩⟩ := ite_none_left_eq_some.1 h
      rw [doNext_ledger]
      exact .refl _
    · cases h
      rw [doNext_ledger]
      exact .refl _
  | ended =>
    unfold handleEvent at h
    dsimp only at h
    split at h
    · cases h
    · obtain ⟨-,⟨⟩⟩ := ite_none_left_eq_some.1 h
      rw [doNext_ledger]
      exact .refl _

lemma send_moves (data : List UInt8) (cb memory : Bool) : x.ledger.Moves [] [] (x.send data cb memory).1.ledger := by
  unfold send
  split
  · exact .calls (.refl _)
  · split
    · exact .calls (.refl _)
    · have hqueued (buffer : Outgoing) : callbacks (x.done ++ x.inprogress ++ (x.ready ++ [buffer])) =
          callbacks x.queued ++ callbacks [buffer] := by
        rw [← append_assoc,callbacks_append]
        rfl
      cases cb with
      | true => exact .accepts ⟨.inr rfl,rfl,hqueued _,rfl,rfl,rfl,rfl⟩
      | false => exact .accepts ⟨.inl rfl,rfl,hqueued _,rfl,rfl,rfl,rfl⟩

lemma destroyHandle_moves : x.ledger.Moves [] (x.loses .destroy) x.destroyHandle.ledger := by
  cases hscheduler : x.scheduler with
  | false =>
    have hloses : x.loses .destroy = x.losesBy .free := if_neg (by simp [hscheduler])
    have heq : x.destroyHandle = { x with owned := false }.free := if_pos (by simp [hscheduler])
    rw [hloses,heq]
    exact free_moves (x := { x with owned := false })
  | true =>
    have hloses : x.loses .destroy = [] := if_pos hscheduler
    rw [hloses,destroyHandle_eq hscheduler,doNext_ledger,doNext_ledger]
    exact .calls abortOutbound_calls

lemma runTask_moves (task : Task) : x.ledger.Moves (x.repeatsBy task) (x.losesBy task) (x.runTask task).ledger := by
  cases task with
  | deliverOpenResult =>
    unfold runTask deliverOpenResult
    dsimp only
    repeat' split
    all_goals exact .calls (.refl _)
  | deliverInboundResults =>
    obtain ⟨reports,inbound,heq⟩ := deliverInboundResults_eq
    unfold runTask
    rw [heq]
    exact .calls (.refl _)
  | deliverOutboundResults => exact .calls deliverOutboundResults_calls
  | deliverCloseResult => exact .calls deliverCloseResult_calls
  | free => exact free_moves

lemma step_moves (h : x.step label = some y) : x.frees = 0 ∧ x.ledger.Moves (x.repeats label) (x.loses label) y.ledger ∨
      (∃ event, label = .event event) ∧ y.ledger = x.ledger := by
  by_cases hfrees : x.frees = 0
  · refine .inl ⟨hfrees,?_⟩
    unfold Handle.step at h
    rw [if_neg (not_not_intro hfrees)] at h
    cases label with
    | setoption =>
      obtain ⟨-,⟨⟩⟩ := ite_none_right_eq_some.1 h
      unfold setoption
      split <;> exact .calls (.refl _)
    | «open» handlers scheduler result =>
      obtain ⟨-,⟨⟩⟩ := ite_none_right_eq_some.1 h
      unfold Handle.open
      dsimp only
      repeat' split
      all_goals exact .calls (.refl _)
    | send data cb memory =>
      obtain ⟨-,⟨⟩⟩ := ite_none_right_eq_some.1 h
      exact send_moves data cb memory
    | close =>
      obtain ⟨-,⟨⟩⟩ := ite_none_right_eq_some.1 h
      unfold close
      dsimp only
      repeat' split
      all_goals exact .calls (.refl _)
    | destroy =>
      obtain ⟨-,⟨⟩⟩ := ite_none_right_eq_some.1 h
      exact destroyHandle_moves
    | run index =>
      obtain ⟨task,htask,rfl⟩ := map_eq_some_iff.1 h
      have hrepeats : x.repeats (.run index) = x.repeatsBy task := by rw [repeats,htask]; rfl
      have hloses : x.loses (.run index) = x.losesBy task := by rw [loses,htask]; rfl
      rw [hrepeats,hloses]
      exact runTask_moves (x := { x with tasks := x.tasks.eraseIdx index }) task
    | drop =>
      obtain ⟨task,-,rfl⟩ := map_eq_some_iff.1 h
      exact .calls (.refl _)
    | event =>
      obtain ⟨-,heq⟩ := ite_none_right_eq_some.1 h
      exact .calls (handleEvent_calls heq)
  · unfold step at h
    rw [if_pos hfrees] at h
    cases label with
    | event event =>
      obtain ⟨-,⟨⟩⟩ := ite_none_right_eq_some.1 h
      exact .inr ⟨⟨event,rfl⟩,rfl⟩
    | _ => cases h

lemma repeats_subset : x.repeats label ⊆ x.ledger.queued := by
  have hdone : callbacks x.done ⊆ callbacks x.queued := by
    unfold queued
    rw [append_assoc,callbacks_append]
    exact subset_append_left _ _
  have htask (task : Task) : x.repeatsBy task ⊆ callbacks x.queued := by
    cases task with
    | deliverOutboundResults => exact hdone
    | deliverCloseResult => exact .refl _
    | _ => exact nil_subset _
  cases label with
  | run index =>
    change (x.tasks[index]?.map x.repeatsBy).getD [] ⊆ callbacks x.queued
    cases x.tasks[index]? with
    | none => exact nil_subset _
    | some task => exact htask task
  | _ => exact nil_subset _

def Handle.called (x : Handle) : List ℕ :=
  x.completions.map Prod.fst
def Handle.waiting (x : Handle) : List ℕ :=
  if x.frees = 0 then callbacks (x.sending.toList ++ x.queued) else []

/-- The callback of each accepted send was called once, or is still to be called once; once the handle is freed, it was
called. -/
def Handle.CompletesOnce (x : Handle) : Prop :=
  ∀ key ∈ x.accepted, x.called.count key + x.waiting.count key = 1

instance : Decidable x.CompletesOnce :=
  inferInstanceAs (Decidable (∀ key ∈ x.accepted, _))

/-- A task delivers results only when the buffers it takes have no callback, and the handle is freed only when the
platform does not hold one that has. -/
def Handle.Quiet (x : Handle) (label : Label) : Prop :=
  x.repeats label = [] ∧ x.loses label = []

instance : Decidable (x.Quiet label) :=
  inferInstanceAs (Decidable (_ ∧ _))
lemma waiting_ledger : x.waiting = x.ledger.waiting := by
  unfold waiting
  rw [callbacks_append]
  rfl

lemma completesOnce_iff (hnumbered : x.ledger.Numbered) (hknown : x.ledger.Known) :
    x.CompletesOnce ↔ x.ledger.Accounted := by
  have hcount (key : ℕ) : x.called.count key + x.waiting.count key =
      (x.ledger.called ++ x.ledger.waiting).count key := by
    rw [waiting_ledger,count_append]
    rfl
  have hone {key : ℕ} (hkey : key ∈ x.accepted) : x.accepted.count key = 1 :=
    count_eq_one_of_mem hnumbered.nodup hkey
  constructor
  · intro h
    apply perm_iff_count.2
    intro key
    rw [← hcount]
    by_cases hkey : key ∈ x.accepted
    · exact (h key hkey).trans (hone hkey).symm
    · have hcalled : key ∉ x.called := fun hmem => hkey (hknown (mem_append_right _ hmem))
      have hwaiting : key ∉ x.waiting := by
        intro hmem
        rw [waiting_ledger] at hmem
        apply hkey
        unfold Ledger.waiting at hmem
        split at hmem
        · exact hknown (mem_append_left _ hmem)
        · cases hmem
      rw [count_eq_zero.2 hcalled,count_eq_zero.2 hwaiting]
      exact (count_eq_zero.2 hkey).symm
  · intro h key hkey
    rw [hcount,h.count_eq]
    exact hone hkey

lemma create_ledger (layer : Layer) (queue otherQueue pal : Option PrxError) :
    (create layer queue otherQueue pal).ledger = ⟨[],[],[],[],0,0⟩ := by
  unfold create
  cases queue.or (otherQueue.or pal) with
  | none => rfl
  | some => cases layer <;> rfl
lemma step_completesOnce (hx : x.ledger.Numbered ∧ x.ledger.Known) (honce : x.CompletesOnce)
    (h : x.step label = some y) : (y.ledger.Numbered ∧ y.ledger.Known) ∧ (y.CompletesOnce ↔ x.Quiet label) := by
  have hx' := (completesOnce_iff hx.1 hx.2).1 honce
  obtain ⟨hfrees,hmoves⟩ | ⟨⟨event,rfl⟩,heq⟩ := step_moves h
  · have hy : y.ledger.Numbered ∧ y.ledger.Known := ⟨hmoves.numbered hx.1,hmoves.known repeats_subset hx.2⟩
    exact ⟨hy,(completesOnce_iff hy.1 hy.2).trans (hmoves.accounted hfrees hx')⟩
  · have hy : y.ledger.Numbered ∧ y.ledger.Known := heq ▸ hx
    exact ⟨hy,iff_of_true ((completesOnce_iff hy.1 hy.2).2 (heq ▸ hx')) ⟨rfl,rfl⟩⟩

/-- Every accepted send completes once exactly if the run is quiet. -/
theorem sends_complete_once {layer : Layer} {queue otherQueue pal : Option PrxError} {labels : List Label}
    (h : Runs Handle.step (.create layer queue otherQueue pal) labels x) :
    Always Handle.step Handle.CompletesOnce (.create layer queue otherQueue pal) labels ↔
      Along Handle.step Handle.Quiet (.create layer queue otherQueue pal) labels := by
  have hledger := create_ledger layer queue otherQueue pal
  have hstart : (create layer queue otherQueue pal).ledger.Numbered ∧
      (create layer queue otherQueue pal).ledger.Known := by
    rw [hledger]
    exact ⟨⟨nodup_nil,forall_mem_nil _⟩,nil_subset _⟩
  refine h.always_iff step_completesOnce hstart ?_
  have haccepted : (create layer queue otherQueue pal).accepted = [] := congrArg Ledger.accepted hledger
  unfold CompletesOnce
  rw [haccepted]
  exact forall_mem_nil _

/-- In every run, quiet or not, only callbacks of accepted sends are called. -/
theorem called_accepted (layer : Layer) (queue otherQueue pal : Option PrxError) (labels : List Label) :
    Always step (fun x => x.accepted.Nodup ∧ x.called ⊆ x.accepted) (.create layer queue otherQueue pal)
      labels := by
  refine always_of_along (I := fun x => x.ledger.Numbered ∧ x.ledger.Known) (fun hx _ h => ?_)
    (fun hx => ⟨hx.1.nodup,(append_subset.1 hx.2).2⟩) ?_ along_true
  · obtain ⟨_,hmoves⟩ | ⟨_,heq⟩ := step_moves h
    · exact ⟨hmoves.numbered hx.1,hmoves.known repeats_subset hx.2⟩
    · exact heq ▸ hx
  · rw [create_ledger]
    exact ⟨⟨nodup_nil,forall_mem_nil _⟩,nil_subset _⟩

def abortedSends : List Label :=
  [.open ⟨true,true,true⟩ none none,.event (.opened none),.run 0,.send [1] true true,.send [2] false true,
    .event .beginSend,.event (.endSend 0 (some .retry)),.send [3] true true,.destroy,.run 0,.run 0,.run 0]

/-- The callbacks of buffers that are in the queue when the handle is destroyed are called once. -/
theorem abortedSends_complete_once :
    Always Handle.step Handle.CompletesOnce (.create .socket none none none) abortedSends := by
  obtain ⟨x,hx,-⟩ : ∃ x, Runs step (.create .socket none none none) abortedSends x ∧
      x.frees = 1 ∧ x.completions = [(0,.aborted),(2,.aborted)] := by decide +kernel
  exact (sends_complete_once hx).2 (by decide +kernel)

def successfulSend : List Label :=
  [.open ⟨true,true,true⟩ none none,.event (.opened none),.run 0,.send [1] true true,.event .beginSend,
    .event (.endSend 1 none),.run 0]

/-- The callback of a send that succeeds is called with success, and again when its buffer is released. -/
theorem successfulSend_completes_twice :
    (∃ x, Runs Handle.step (.create .socket none none none) successfulSend x ∧ ¬x.CompletesOnce ∧
      x.completions = [(0,.ok),(0,.aborted)]) ∧
    ∃ x, Runs Handle.step (.create .wsclient none none none) successfulSend x ∧ ¬x.CompletesOnce ∧
      x.completions = [(0,.ok),(0,.aborted)] :=
  by decide +kernel

end EdgeProxy.Xio
