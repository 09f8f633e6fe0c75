import EdgeProxy.Buffer.Lease
import EdgeProxy.Queue.Tristate

/-! # Queues refine three lists

The links of a queue form a ring for each of its lists, and one for each live buffer in none. Every call of the queue
is a step of the three lists, with the same result.
-/
namespace EdgeProxy.Queue
open Buffer Lib List Function Tristate IoQueue Callbacks Entry

def Tristate.heads (s : Tristate) : Entry → Prop
  | .list _ => True
  | .buffer b => b ∈ s.loose
def Tristate.content (s : Tristate) : Entry → List Entry
  | .list state => (s.list state).map .buffer
  | .buffer _ => []

structure Refines (q : IoQueue) (s : Tristate) : Prop where
  rings : Rings q.links s.heads s.content
  nodup : s.live.Nodup
  queue : ∀ b, q.queue b ↔ b ∈ s.live
  factory : q.factory.Valid
  used : ∀ b, b ∈ s.live → q.factory.refs b = 1
  free : ∀ b, b ∉ s.live → q.factory.refs b = 0
  callbacks : q.callbacks = s.callbacks

variable {s : Tristate} {l : Links Entry} {b : Address} {state : QueueState}

lemma not_linked (dead : b ∉ s.live) {e} (he : s.heads e) : .buffer b ∉ e :: s.content e := by
  rw [mem_live,not_or] at dead
  intro hmem
  cases e with
  | list state =>
    rcases mem_cons.1 hmem with heq | hmem
    · cases heq
    · obtain ⟨b',hb',⟨⟩⟩ := mem_map.1 hmem
      exact dead.1 ⟨state,hb'⟩
  | buffer =>
    cases mem_singleton.1 hmem
    exact dead.2 he

lemma lists_disjoint (nodup : s.live.Nodup) (hmem : b ∈ s.list state) :
    b ∉ s.loose ∧ ∀ state', b ∈ s.list state' → state' = state := by
  have hcount := nodup_iff_count_le_one.1 nodup b
  have hone := count_pos_iff.2 hmem
  simp only [live,count_append] at hcount
  constructor
  · intro hloose
    have hloose := count_pos_iff.2 hloose
    cases state <;> omega
  · intro state' hmem'
    have hone' := count_pos_iff.2 hmem'
    by_contra hne
    cases state <;> cases state' <;> first | exact hne rfl | omega

lemma list_nodup (nodup : s.live.Nodup) (state : QueueState) : (s.list state).Nodup := by
  rw [nodup_iff_count_le_one] at nodup ⊢
  intro b
  have hcount := nodup b
  simp only [live,count_append] at hcount
  cases state <;> omega

variable (D : DList Entry)

lemma removeEntry_rings (hr : Rings l s.heads s.content) (nodup : s.live.Nodup) (live : b ∈ s.live) :
    Rings (D.removeEntryList l (.buffer b)) (s.remove b).heads (s.remove b).content := by
  have sub {e : Entry} (he : (s.remove b).heads e) : s.heads e := by
    cases e with
    | list => trivial
    | buffer => exact mem_of_mem_erase he
  rw [D.removeEntry_eq]
  rcases mem_live.1 live with ⟨state,hmem⟩ | hloose
  · obtain ⟨hloose,honly⟩ := lists_disjoint nodup hmem
    obtain ⟨before,after,hlist⟩ := append_of_mem hmem
    have hentry : s.content (.list state) = before.map .buffer ++ .buffer b :: after.map .buffer := by
      simp [content,hlist,map_append,map_cons]
    refine (hr.remove (h := list state) trivial hentry).mono sub fun {e} he => ?_
    cases e with
    | buffer => rfl
    | list state' =>
      by_cases heq : state' = state
      · subst heq
        have hbefore : b ∉ before := by
          have hnodup := list_nodup nodup state'
          rw [hlist] at hnodup
          exact fun h => disjoint_of_nodup_append hnodup h mem_cons_self
        rw [update_self]
        simp only [content,remove,hlist,erase_append_right _ hbefore,erase_cons_head,map_append]
      · have hnot : b ∉ s.list state' := fun h => heq (honly state' h)
        rw [update_of_ne (fun h => heq (list.inj h))]
        simp [content,remove,erase_of_not_mem hnot]
  · have hring : IsRing l (.buffer b) [] := hr.ring hloose
    have harc : l.Arc (.buffer b) (.buffer b) := (isChain_cons_cons.1 hring.chain).1
    rw [harc.1,harc.2,Links.link_self harc]
    refine hr.mono sub fun {e} he => ?_
    cases e with
    | buffer => rfl
    | list state =>
      have hnot : b ∉ s.list state := fun h => (lists_disjoint nodup h).1 hloose
      simp [content,remove,erase_of_not_mem hnot]

lemma remove_dead (nodup : s.live.Nodup) (b : Address) : b ∉ (s.remove b).live := by
  rw [(remove_live nodup b).mem_iff]
  exact nodup.not_mem_erase
lemma push_rings (hr : Rings l s.heads s.content) (dead : b ∉ s.live) (state : QueueState) :
    Rings (D.insertTailList l (.list state) (.buffer b)) (s.push state b).heads (s.push state b).content := by
  rw [D.insertTail_eq]
  refine (hr.insert (h := list state) trivial fun he => not_linked dead he).mono (fun he => he) fun {e} he => ?_
  cases e with
  | buffer => rfl
  | list state' =>
    by_cases heq : state' = state
    · subst heq
      simp only [content,push,setList,update_self,map_append,map_cons,map_nil]
    · rw [update_of_ne (fun h => heq (list.inj h))]
      simp [content,push,setList,update_of_ne heq]

lemma initialize_rings (hr : Rings l s.heads s.content) (dead : b ∉ s.live) :
    Rings (D.initializeListHead l (.buffer b)) { s with loose := s.loose ++ [b] }.heads s.content := by
  rw [D.initialize_eq]
  refine (hr.addHead fun he => not_linked dead he).mono (fun {e} he => ?_) fun {e} he => ?_
  · cases e with
    | list => exact .inr trivial
    | buffer =>
      rcases mem_append.1 he with he | he
      · exact .inr he
      · exact .inl (congrArg buffer (mem_singleton.1 he))
  · by_cases heq : e = .buffer b
    · rw [heq,update_self]
      rfl
    · rw [update_of_ne heq]

def IoQueue.mayCall (q : IoQueue) : QueueCall → Bool
  | .create _ memory moved => q.factory.freshNew memory moved
  | .attach b _ => q.queue b
  | _ => true
def IoQueue.step (q : IoQueue) (label : QueueCall × QueueResult) : Option IoQueue :=
  if q.mayCall label.1 ∧ (q.call D label.1).2 = label.2 then some (q.call D label.1).1 else none

variable {q q' : IoQueue} {s t : Tristate} {b : Address} {state : QueueState}

lemma Refines.of_perm (hr : Refines q s) (rings : Rings q'.links t.heads t.content) (hperm : t.live.Perm s.live)
    (factory : q'.factory = q.factory) (queue : q'.queue = q.queue) (callbacks : q'.callbacks = t.callbacks) :
    Refines q' t := by
  refine ⟨rings,hperm.nodup_iff.2 hr.nodup,fun b => ?_,factory ▸ hr.factory,fun b hb => ?_,fun b hb => ?_,callbacks⟩
  · rw [queue,hr.queue,hperm.mem_iff]
  · exact factory ▸ hr.used b (hperm.mem_iff.1 hb)
  · exact factory ▸ hr.free b fun h => hb (hperm.mem_iff.2 h)
lemma bufferSet_refines (hr : Refines q s) (state : QueueState) (b : Address) :
    Refines (q.bufferSet D state b) (if b ∈ s.live then (s.remove b).push state b else s) := by
  unfold bufferSet
  by_cases live : b ∈ s.live
  · have hstep : s.step (.set state b,.unit) = some ((s.remove b).push state b) := by
      simp [Tristate.step,if_pos live]
    have hrings := removeEntry_rings D hr.rings hr.nodup live
    rw [if_pos ((hr.queue b).2 live),if_pos live]
    exact hr.of_perm (push_rings D hrings (remove_dead hr.nodup b) state) (step_live hr.nodup hstep).2 rfl rfl
      hr.callbacks
  · rw [if_neg (mt (hr.queue b).1 live),if_neg live]
    exact hr
lemma remove_head {rest} (nodup : s.live.Nodup) (hlist : s.list state = b :: rest) :
    s.remove b = s.setList state rest := by
  have hmem : b ∈ s.list state := hlist ▸ mem_cons_self
  obtain ⟨hloose,honly⟩ := lists_disjoint nodup hmem
  unfold remove
  rw [erase_of_not_mem hloose]
  congr 1
  funext state'
  by_cases heq : state' = state
  · rw [heq,update_self,hlist,erase_cons_head]
  · rw [update_of_ne heq,erase_of_not_mem fun h => heq (honly state' h)]
lemma statePeek_eq (hr : Refines q s) (state : QueueState) : q.statePeek D state = !(s.list state).isEmpty := by
  have hempty := D.isListEmpty_ring (hr.rings.ring (h := .list state) trivial)
  rw [statePeek,Bool.not_inj_iff,Bool.eq_iff_iff,hempty,List.isEmpty_iff]
  exact map_eq_nil_iff

lemma statePop_refines (hr : Refines q s) (state : QueueState) :
    ∃ t, s.step (.pop state,.buffer (q.statePop D state).2) = some t ∧ Refines (q.statePop D state).1 t := by
  have hring := hr.rings.ring (h := .list state) trivial
  have hempty := D.isListEmpty_ring hring
  unfold statePop
  cases hlist : s.list state with
  | nil =>
    have hnil : s.content (.list state) = [] := by simp only [Tristate.content,hlist,map_nil]
    rw [if_pos (hempty.2 hnil)]
    exact ⟨s,by simp only [Tristate.step,hlist],hr⟩
  | cons b rest =>
    have hcons : s.content (.list state) = .buffer b :: rest.map .buffer := by
      simp [content,hlist,map_cons]
    have hne : ¬D.isListEmpty q.links (.list state) := by
      rw [hempty,hcons]
      exact cons_ne_nil _ _
    rw [hcons] at hring
    rw [if_neg hne,D.removeHead_ring hring]
    have hstep : s.step (.pop state,.buffer (some b)) = some (s.pop state b rest) := by
      simp [Tristate.step,hlist,↓reduceIte]
    have live : b ∈ s.live := mem_live.2 (.inl ⟨state,hlist ▸ mem_cons_self⟩)
    have hrings := initialize_rings D (removeEntry_rings D hr.rings hr.nodup live) (remove_dead hr.nodup b)
    rw [remove_head hr.nodup hlist] at hrings
    exact ⟨_,hstep,hr.of_perm hrings (step_live hr.nodup hstep).2 rfl rfl hr.callbacks⟩

lemma rollback_refines (hr : Refines q s) : Refines (q.ioQueueRollback D) s.rollback := by
  have hrings := D.prepend_rings hr.rings (h := .list .ready) (g := list .inprogress) trivial trivial (by decide)
  refine hr.of_perm (hrings.mono (fun he => he) fun {e} he => ?_) (rollback_live s) rfl rfl hr.callbacks
  cases e with
  | buffer => rfl
  | list state =>
    cases state with
    | ready => exact map_append
    | inprogress | done => rfl

lemma release_refines (hr : Refines q s) (b : Address) : Refines (q.ioQueueBufferRelease D b)
    (if b ∈ s.live then { s.remove b with callbacks := s.callbacks.abort b } else s) := by
  unfold ioQueueBufferRelease
  by_cases live : b ∈ s.live
  · have hone := hr.used b live
    obtain ⟨hfactory,hrefs⟩ := freeBuffer_spec hr.factory (Nat.le_of_eq hone.symm)
    have hperm := remove_live hr.nodup b
    have hmem (x : Address) : x ∈ (s.remove b).live ↔ x ≠ b ∧ x ∈ s.live := by
      rw [hperm.mem_iff,hr.nodup.mem_erase_iff]
    have hrings := initialize_rings D (removeEntry_rings D hr.rings hr.nodup live) (remove_dead hr.nodup b)
    rw [if_pos ((hr.queue b).2 live),if_pos live]
    refine ⟨hrings.mono (fun {e} he => ?_) fun _ => rfl,hperm.nodup_iff.2 (hr.nodup.erase b),fun x => ?_,hfactory,
      fun x hx => ?_,fun x hx => ?_,?_⟩
    · cases e with
      | list => trivial
      | buffer => exact mem_append_left _ he
    · change update q.queue b false x ↔ x ∈ (s.remove b).live
      rw [hmem,← hr.queue x]
      by_cases heq : x = b <;> simp [heq]
    · obtain ⟨hne,hx⟩ := (hmem x).1 hx
      change (q.factory.freeBuffer b).refs x = 1
      rw [hrefs,update_of_ne hne]
      exact hr.used x hx
    · change (q.factory.freeBuffer b).refs x = 0
      rw [hrefs]
      by_cases heq : x = b
      · rw [heq,update_self,hone]
      · rw [update_of_ne heq]
        exact hr.free x fun h => hx ((hmem x).2 ⟨heq,h⟩)
    · change (q.callbacks.abort b).abort b = s.callbacks.abort b
      simp [hr.callbacks,abort]
  · rw [if_neg (mt (hr.queue b).1 live),if_neg live]
    exact hr

lemma create_refines (hr : Refines q s) {size memory moved} (fresh : q.factory.freshNew memory moved) :
    ∃ t, s.step (.create size memory moved,.buffer (q.ioQueueCreateBuffer D size memory moved).2) = some t ∧
      Refines (q.ioQueueCreateBuffer D size memory moved).1 t := by
  unfold ioQueueCreateBuffer
  rcases prxBufferNew_spec size hr.factory fresh with ⟨factory,hnew,hvalid,hrefs⟩ | ⟨factory,b,hnew,hvalid,hzero,hrefs⟩
  · rw [hnew]
    exact ⟨s,rfl,hr.rings,hr.nodup,hr.queue,hvalid,hrefs ▸ hr.used,hrefs ▸ hr.free,hr.callbacks⟩
  · have dead : b ∉ s.live := fun live => by
      have hone := hr.used b live
      omega
    have hstep : s.step (.create size memory moved,.buffer (some b)) = some { s with
        loose := s.loose ++ [b]
        callbacks.cb := update s.callbacks.cb b none } := by
      simp [Tristate.step,if_neg dead]
    obtain ⟨hnodup,hperm⟩ := step_live hr.nodup hstep
    have hmem (x : Address) : x ∈ s.live ++ [b] ↔ x = b ∨ x ∈ s.live := by
      rw [mem_append,mem_singleton,or_comm]
    rw [hnew]
    refine ⟨_,hstep,initialize_rings D hr.rings dead,hnodup,fun x => ?_,hvalid,fun x hx => ?_,fun x hx => ?_,?_⟩
    · rw [hperm.mem_iff,outstanding,hmem,← hr.queue x]
      by_cases heq : x = b <;> simp [heq]
    · rw [hperm.mem_iff,outstanding,hmem] at hx
      rw [hrefs]
      rcases hx with rfl | hx
      · exact update_self _ _ _
      · rw [update_of_ne (ne_of_mem_of_not_mem hx dead)]
        exact hr.used x hx
    · rw [hperm.mem_iff,outstanding,hmem,not_or] at hx
      rw [hrefs,update_of_ne hx.1]
      exact hr.free x hx.2
    · simp [hr.callbacks]

/-- The loop visits the buffers of a list in order. -/
theorem abortFrom_eq {l} {bs : List Address} {p fuel} (c : Callbacks)
    (hchain : (bs.map buffer ++ [list state]).IsChain l.Arc) (hhead : (bs.map buffer ++ [list state]).head? = some p)
    (hfuel : bs.length ≤ fuel) : abortFrom l fuel p c = bs.foldl abort c := by
  induction bs generalizing p fuel c with
  | nil =>
    cases hhead
    cases fuel <;> rfl
  | cons b bs ih =>
    cases hhead
    obtain ⟨fuel,rfl⟩ := Nat.exists_eq_add_one_of_ne_zero (Nat.ne_zero_of_lt hfuel)
    have hnext := flink_of_chain (A := []) hchain (append_ne_nil_of_right_ne_nil _ (cons_ne_nil _ _))
    exact ih (c.abort b) hchain.tail hnext (Nat.le_of_succ_le_succ hfuel)

lemma length_list_le (hr : Refines q s) (state : QueueState) : (s.list state).length ≤ q.factory.count := by
  have hsub : s.list state ⊆ q.factory.checkedOut := by
    intro b hb
    rw [hr.factory.refs,hr.used b (mem_live.2 (.inl ⟨state,hb⟩))]
  have hlength := (list_nodup hr.nodup state).length_le_of_subset hsub
  have hcount := hr.factory.count
  omega
lemma stateAbort_eq (hr : Refines q s) (c : Callbacks) (state : QueueState) :
    { q with callbacks := c }.stateAbort state = { q with callbacks := (s.list state).foldl abort c } := by
  have hring := hr.rings.ring (h := .list state) trivial
  have habort := abortFrom_eq c hring.chain.tail hring.flink_head (length_list_le hr state)
  simp [stateAbort,habort]
lemma abort_refines (hr : Refines q s) : Refines q.ioQueueAbort { s with
    callbacks := (s.list .done ++ s.list .inprogress ++ s.list .ready).foldl abort s.callbacks } := by
  have hdone : q.stateAbort .done = { q with callbacks := (s.list .done).foldl abort q.callbacks } :=
    stateAbort_eq hr q.callbacks .done
  unfold ioQueueAbort
  rw [hdone,stateAbort_eq hr,stateAbort_eq hr,hr.callbacks]
  refine hr.of_perm hr.rings .rfl rfl rfl ?_
  simp

lemma call_refines (hr : Refines q s) {call} (may : q.mayCall call) :
    ∃ t, s.step (call,(q.call D call).2) = some t ∧ Refines (q.call D call).1 t := by
  cases call with
  | create => exact create_refines D hr may
  | attach b =>
    have live := (hr.queue b).1 may
    refine ⟨_,if_pos live,hr.of_perm hr.rings .rfl rfl rfl ?_⟩
    simp [call,hr.callbacks]
  | set state b =>
    cases state <;> exact ⟨_,rfl,bufferSet_refines D hr _ b⟩
  | has state =>
    refine ⟨s,if_pos ?_,hr⟩
    exact statePeek_eq D hr state
  | pop state => exact statePop_refines D hr state
  | rollback => exact ⟨_,rfl,rollback_refines D hr⟩
  | abort => exact ⟨_,rfl,abort_refines hr⟩
  | release b => exact ⟨_,rfl,release_refines D hr b⟩

lemma step_refines {label} (hr : Refines q s) (h : q.step D label = some q') :
    ∃ t, s.step label = some t ∧ Refines q' t := by
  obtain ⟨⟨may,hresult⟩,hq⟩ := Option.ite_none_right_eq_some.1 h
  obtain ⟨t,hstep,ht⟩ := call_refines D hr may
  rw [hresult] at hstep
  cases hq
  exact ⟨t,hstep,ht⟩
def Tristate.empty : Tristate :=
  { list := fun _ => [], loose := [], callbacks := ⟨fun _ => none,[]⟩ }

lemma create_queue_refines {links memory} (fresh : freshFor [] memory)
    (created : ioQueueCreate D links memory = some q) : Refines q .empty := by
  obtain ⟨factory,hfactory,rfl⟩ := Option.map_eq_some_iff.1 created
  obtain ⟨hvalid,_,_,_,hrefs⟩ := poolCreate_eq fresh hfactory
  refine ⟨?_,nodup_nil,fun b => by simp [live,empty],hvalid,fun b hb => ?_,fun b _ => hrefs b,rfl⟩
  · -- one list after the other becomes empty
    have hnone : Rings links (fun _ => False) fun _ => [] := ⟨False.elim,fun h => h.elim⟩
    have hinprogress := hnone.addHead (e := .list .inprogress) False.elim
    rw [update_eq_self_iff.2 rfl,← D.initialize_eq] at hinprogress
    have hready := hinprogress.addHead (e := .list .ready) (by simp)
    rw [update_eq_self_iff.2 rfl,← D.initialize_eq] at hready
    have hdone := hready.addHead (e := .list .done) (by simp)
    rw [update_eq_self_iff.2 rfl,← D.initialize_eq] at hdone
    refine hdone.mono (fun {e} he => ?_) fun {e} _ => ?_
    · cases e with
      | list state => cases state <;> simp
      | buffer => cases he
    · cases e <;> rfl
  · cases hb

/-- Every run of a queue is one of the three lists with the same results, and each live buffer is in at most one place.
-/
theorem queue_refines_tristate {links : Links Entry} {memory : List (Option ℕ)} {q₀ : IoQueue}
    {labels : List (QueueCall × QueueResult)} (fresh : freshFor [] memory)
    (created : ioQueueCreate D links memory = some q₀) (runs : Runs (IoQueue.step D) q₀ labels q) :
    ∃ s, Runs Tristate.step .empty labels s ∧ Refines q s ∧ s.live.Nodup ∧
      s.live.Perm (labels.foldl Tristate.outstanding []) := by
  obtain ⟨s,hruns,hs⟩ := runs.simulates (fun _ _ _ _ hr h => step_refines D hr h) (create_queue_refines D fresh created)
  obtain ⟨hnodup,hperm⟩ := Tristate.runs_live hruns nodup_nil .rfl
  exact ⟨s,hruns,hs,hnodup,hperm⟩

def rolledBack : List (QueueCall × QueueResult) :=
  [(.create 16 [] (some 0),.buffer (some ⟨0,0⟩)),(.create 16 [] (some 1),.buffer (some ⟨1,0⟩)),
    (.create 16 [] (some 2),.buffer (some ⟨2,0⟩)),(.attach ⟨2,0⟩ 7,.unit),(.set .ready ⟨0,0⟩,.unit),
    (.set .ready ⟨1,0⟩,.unit),(.set .ready ⟨2,0⟩,.unit),(.pop .ready,.buffer (some ⟨0,0⟩)),
    (.set .inprogress ⟨0,0⟩,.unit),(.pop .ready,.buffer (some ⟨1,0⟩)),(.set .inprogress ⟨1,0⟩,.unit),(.rollback,.unit),
    (.has .inprogress,.present false),(.pop .ready,.buffer (some ⟨0,0⟩)),(.release ⟨0,0⟩,.unit),
    (.pop .ready,.buffer (some ⟨1,0⟩)),(.set .done ⟨1,0⟩,.unit),(.abort,.unit)]
theorem rolledBack_refines : ∃ q₀ q, ioQueueCreate (.standard Entry) ⟨id,id⟩ [some 0,some 1,some 2] = some q₀ ∧
    Runs (IoQueue.step (.standard Entry)) q₀ rolledBack q ∧ q.callbacks.aborted = [7] ∧
    ∃ s, Runs Tristate.step .empty rolledBack s ∧ Refines q s ∧ s.live.Nodup ∧ s.live.Perm [⟨1,0⟩,⟨2,0⟩] := by
  obtain ⟨q₀,hcreate,q,hruns,haborted⟩ : ∃ q₀,
      ioQueueCreate (.standard Entry) ⟨id,id⟩ [some 0,some 1,some 2] = some q₀ ∧
      ∃ q, Runs (step (.standard Entry)) q₀ rolledBack q ∧ q.callbacks.aborted = [7] := by decide +kernel
  exact ⟨q₀,q,hcreate,hruns,haborted,queue_refines_tristate (.standard Entry) (by decide) hcreate hruns⟩

end EdgeProxy.Queue
