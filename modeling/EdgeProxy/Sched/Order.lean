import EdgeProxy.Sched.Steps

/-! # The order of the tasks

Immediate tasks are started in the order in which they were queued, delayed ones are kept in the order of their
deadlines, and no task is lost or started twice. A task that is queued after the last look of the worker at the lists
is left behind.
-/
namespace EdgeProxy.Sched
open Base Buffer Lib List Sched.System Scheduler Prod

variable {F C : Type}

def Task.Before (t u : Task F C) : Prop :=
  t.deadline < u.deadline ∨ t.deadline = u.deadline ∧ t.ticket < u.ticket
instance (t u : Task F C) : Decidable (t.Before u) :=
  inferInstanceAs (Decidable (_ ∨ _ ∧ _))

lemma insert_sorted {later : List (Task F C)} {t} (hsorted : later.Pairwise Task.Before)
    (hnew : ∀ u ∈ later, u.ticket < t.ticket) :
    (later.orderedInsert (fun entry next => next.deadline > entry.deadline) t).Pairwise Task.Before := by
  induction later with
  | nil => exact pairwise_singleton _ _
  | cons u later ih =>
    obtain ⟨hu,hlater⟩ := pairwise_cons.1 hsorted
    rw [orderedInsert_cons]
    by_cases hbefore : u.deadline > t.deadline
    · rw [if_pos hbefore]
      refine pairwise_cons.2 ⟨fun v hv => ?_,hsorted⟩
      rcases mem_cons.1 hv with rfl | hv
      · exact .inl hbefore
      · exact .inl (lt_of_lt_of_le hbefore ((hu v hv).elim le_of_lt (·.1.le)))
    · rw [if_neg hbefore]
      refine pairwise_cons.2 ⟨fun v hv => ?_,ih hlater fun v hv => hnew v (mem_cons_of_mem _ hv)⟩
      rcases (mem_orderedInsert _).1 hv with rfl | hv
      · have hticket := hnew u mem_cons_self
        unfold Task.Before
        omega
      · exact hu v hv

section

variable {s t : System F C}

def System.immediate (s : System F C) : List (Task F C) :=
  (s.started.map Prod.fst).filter (·.delay = 0) ++ s.sched.now

variable [DecidableEq F] [DecidableEq C]

/-- Each task that was queued was started, is queued, or was removed by a call that names it, and this once. The lists
are in order. -/
structure System.Ordered (s : System F C) : Prop where
  tickets : s.queued.map Task.ticket = List.range s.queued.length
  accounted : s.queued.Perm
    (s.started.map Prod.fst ++ (s.sched.now ++ s.sched.later) ++ s.removed.map Prod.fst)
  matched : ∀ g ∈ s.removed, g.2.takes g.1
  undelayed : ∀ t ∈ s.sched.now, t.delay = 0
  delayed : ∀ t ∈ s.sched.later, t.delay ≠ 0
  fifo : s.immediate.Pairwise (·.ticket < ·.ticket)
  sorted : s.sched.later.Pairwise Task.Before

variable {u : Task F C}

lemma System.Ordered.ticket_lt (hs : s.Ordered) (hu : u ∈ s.queued) : u.ticket < s.queued.length := by
  have hmem : u.ticket ∈ s.queued.map Task.ticket := mem_map_of_mem hu
  rwa [hs.tickets,mem_range] at hmem
lemma System.Ordered.started_mem {time} (hs : s.Ordered) (hu : (u,time) ∈ s.started) : u ∈ s.queued := by
  rw [hs.accounted.mem_iff]
  exact mem_append_left _ (mem_append_left _ (mem_map_of_mem hu))

lemma System.Ordered.listed_mem (hs : s.Ordered) (hu : u ∈ s.sched.now ++ s.sched.later) : u ∈ s.queued := by
  rw [hs.accounted.mem_iff]
  exact mem_append_left _ (mem_append_right _ hu)
lemma System.Ordered.immediate_lt (hs : s.Ordered) (hu : u ∈ s.immediate) : u.ticket < s.queued.length := by
  rcases mem_append.1 hu with hu | hu
  · obtain ⟨⟨u,time⟩,hmem,rfl⟩ := mem_map.1 (mem_filter.1 hu).1
    exact hs.ticket_lt (hs.started_mem hmem)
  · exact hs.ticket_lt (hs.listed_mem (mem_append_left _ hu))

lemma queues_fifo {taskPool} (hticket : u.ticket = s.queued.length) (hs : s.Ordered) :
    (s.queues taskPool u).immediate.Pairwise (·.ticket < ·.ticket) := by
  by_cases hdelay : u.delay = 0
  · have himmediate : (s.queues taskPool u).immediate = s.immediate ++ [u] := by
      simp [immediate,queues,hdelay,↓reduceIte,append_assoc]
    rw [himmediate,pairwise_append]
    refine ⟨hs.fifo,pairwise_singleton _ _,fun v hv w hw => ?_⟩
    rw [mem_singleton.1 hw,hticket]
    exact hs.immediate_lt hv
  · have himmediate : (s.queues taskPool u).immediate = s.immediate := by
      simp [immediate,queues,hdelay,↓reduceIte]
    rw [himmediate]
    exact hs.fifo

lemma queues_ordered {taskPool : Pool} (hticket : u.ticket = s.queued.length) (hs : s.Ordered) :
    (s.queues taskPool u).Ordered where
  tickets := by
    simp only [queues,map_append,hs.tickets,length_append,range_succ,hticket,map_cons,map_nil,length_cons,length_nil]
  accounted := by
    have hlists := queues_lists (s := s) taskPool u
    have haccounted := hs.accounted
    rw [perm_iff_count] at hlists haccounted ⊢
    intro v
    have hv := hlists v
    have hv' := haccounted v
    change (s.queued ++ [u]).count v = (s.started.map fst ++ _ ++ s.removed.map fst).count v
    simp only [count_append,count_cons,count_nil] at hv hv' ⊢
    omega
  matched := hs.matched
  undelayed := by
    intro v hv
    by_cases hdelay : u.delay = 0
    · simp only [queues,hdelay,↓reduceIte,mem_append,mem_singleton] at hv
      rcases hv with hv | rfl
      · exact hs.undelayed v hv
      · exact hdelay
    · simp only [queues,hdelay] at hv
      exact hs.undelayed v hv
  delayed := by
    intro v hv
    by_cases hdelay : u.delay = 0
    · simp only [queues,hdelay] at hv
      exact hs.delayed v hv
    · simp only [queues,hdelay,↓reduceIte,mem_orderedInsert] at hv
      rcases hv with rfl | hv
      · exact hdelay
      · exact hs.delayed v hv
  fifo := queues_fifo hticket hs
  sorted := by
    by_cases hdelay : u.delay = 0
    · simpa only [queues,hdelay,↓reduceIte] using hs.sorted
    · simp only [queues,hdelay]
      exact insert_sorted hs.sorted fun v hv => hticket ▸ hs.ticket_lt (hs.listed_mem (mem_append_right _ hv))

lemma starts_accounted {now later} (hlists : (s.sched.now ++ s.sched.later).Perm (u :: (now ++ later)))
    (hs : s.Ordered) : s.queued.Perm
      ((s.starts now later u).started.map fst ++ (now ++ later) ++ s.removed.map fst) := by
  have haccounted := hs.accounted
  rw [perm_iff_count] at hlists haccounted ⊢
  intro v
  have hv := hlists v
  have hv' := haccounted v
  simp only [starts,map_append,map_cons,map_nil,count_append,count_cons,count_nil] at hv hv' ⊢
  omega
lemma startsNow_ordered {now} (hnow : s.sched.now = u :: now) (hs : s.Ordered) :
    (s.starts now s.sched.later u).Ordered where
  tickets := hs.tickets
  accounted := starts_accounted (hnow ▸ .refl _) hs
  matched := hs.matched
  undelayed := fun v hv => hs.undelayed v (hnow ▸ mem_cons_of_mem _ hv)
  delayed := hs.delayed
  fifo := by
    have hdelay : u.delay = 0 := hs.undelayed u (hnow ▸ mem_cons_self)
    have himmediate : (s.starts now s.sched.later u).immediate = s.immediate := by
      simp [immediate,starts,hnow,hdelay]
    rw [himmediate]
    exact hs.fifo
  sorted := hs.sorted

lemma startsLater_ordered {later} (hlater : s.sched.later = u :: later)
    (hs : s.Ordered) : (s.starts s.sched.now later u).Ordered where
  tickets := hs.tickets
  accounted := starts_accounted (hlater ▸ perm_middle) hs
  matched := hs.matched
  undelayed := hs.undelayed
  delayed := fun v hv => hs.delayed v (hlater ▸ mem_cons_of_mem _ hv)
  fifo := by
    have hdelay : u.delay ≠ 0 := hs.delayed u (hlater ▸ mem_cons_self)
    have himmediate : (s.starts s.sched.now later u).immediate = s.immediate := by
      simp [immediate,starts,hdelay]
    rw [himmediate]
    exact hs.fifo
  sorted := by
    have hsorted := hs.sorted
    rw [hlater] at hsorted
    exact hsorted.of_cons

lemma removes_ordered (r : Removal F C) (hs : s.Ordered) : (s.removes r).Ordered where
  tickets := hs.tickets
  accounted := by
    have hlists := removes_lists s r
    have haccounted := hs.accounted
    rw [perm_iff_count] at hlists haccounted ⊢
    intro v
    have hv := hlists v
    have hv' := haccounted v
    have hgone : (s.removes r).removed.map fst =
        s.removed.map fst ++ (s.sched.now ++ s.sched.later).filter r.takes := by
      simp [removes,Function.comp_def]
    rw [hgone]
    change s.queued.count v = (s.started.map fst ++ _ ++ _).count v
    simp only [count_append] at hv hv' ⊢
    omega
  matched := by
    intro g hg
    rcases mem_append.1 hg with hg | hg
    · exact hs.matched g hg
    · obtain ⟨v,hv,rfl⟩ := mem_map.1 hg
      exact (mem_filter.1 hv).2
  undelayed := fun v hv => hs.undelayed v (mem_filter.1 hv).1
  delayed := fun v hv => hs.delayed v (mem_filter.1 hv).1
  fifo := hs.fifo.sublist (.append_left filter_sublist _)
  sorted := hs.sorted.sublist filter_sublist

lemma System.Does.ordered {label} (h : s.Does label t) (hs : s.Ordered) : t.Ordered := by
  cases h with
  | idles | finishes => exact ⟨hs.tickets,hs.accounted,hs.matched,hs.undelayed,hs.delayed,hs.fifo,hs.sorted⟩
  | queues => exact queues_ordered rfl hs
  | startsLater _ hlater => exact startsLater_ordered hlater hs
  | startsNow _ hnow => exact startsNow_ordered hnow hs
  | @removes _ r =>
    have hr := removes_ordered r hs
    exact ⟨hr.tickets,hr.accounted,hr.matched,hr.undelayed,hr.delayed,hr.fifo,hr.sorted⟩

end

section

variable {itemSize : ℕ} {memory : List (Option ℕ)} {lock signal : Except PrxError Unit} {thread : Bool}
  {sched : Scheduler F C}

lemma create_eq (created : create itemSize memory lock signal thread = .ok sched) :
    ∃ taskPool, poolCreate .fixed (some ⟨128,0,0,0,false⟩) itemSize memory = some taskPool ∧
      sched = ⟨taskPool,[],[],true,1⟩ := by
  unfold create at created
  cases hpool : poolCreate .fixed (some ⟨128,0,0,0,false⟩) itemSize memory with
  | none =>
    rw [hpool] at created
    cases created
  | some taskPool =>
    rw [hpool] at created
    cases lock <;> cases signal <;> cases thread <;> cases created
    exact ⟨taskPool,rfl,rfl⟩

lemma initial_valid (fresh : freshFor [] memory) (created : create itemSize memory lock signal thread = .ok sched)
    (clock : ℤ) : (System.initial sched clock).Valid := by
  obtain ⟨taskPool,hpool,rfl⟩ := create_eq created
  obtain ⟨hvalid,_,_,_,hrefs⟩ := poolCreate_eq fresh hpool
  exact ⟨⟨hvalid,fun a => (hrefs a).trans count_nil.symm⟩,nodup_nil⟩

variable [DecidableEq F] [DecidableEq C]

lemma initial_ordered (created : create itemSize memory lock signal thread = .ok sched) (clock : ℤ) :
    (System.initial sched clock).Ordered := by
  obtain ⟨taskPool,_,rfl⟩ := create_eq created
  exact ⟨rfl,.refl _,nofun,nofun,nofun,.nil,.nil⟩

omit [DecidableEq F] [DecidableEq C] in
lemma exists_created (created : Except PrxError (Scheduler F C)) (P : Scheduler F C → Prop) [DecidablePred P]
    (h : created.toOption.any fun sched => P sched) : ∃ sched, created = .ok sched ∧ P sched := by
  cases created with
  | error => cases h
  | ok sched => exact ⟨sched,rfl,of_decide_eq_true h⟩

end

variable {s : System F C} {worker : Worker F C}

def Worker.leaving : Worker F C → Bool
  | .checking idle => idle = -1
  | _ => false
def System.Vacant (s : System F C) : Prop :=
  s.worker.leaving → s.sched.now = [] ∧ s.sched.later = []

lemma System.Moves.vacant (h : s.Moves worker) (hs : s.Vacant) :
    worker.leaving → s.sched.now = [] ∧ s.sched.later = [] := by
  cases h with
  | stays => exact hs
  | waits _ hnow hlater => exact fun hidle => ⟨hnow,hlater (of_decide_eq_true hidle)⟩
  | _ => nofun
lemma System.Moves.finished (h : s.Moves worker) (hs : s.Vacant) (hexit : worker.finished) :
    s.worker.finished ∨ s.sched.shouldRun = false ∧ s.sched.now = [] ∧ s.sched.later = [] := by
  cases h with
  | stays => exact .inl hexit
  | exits hworker hstop => exact .inr ⟨hstop,hs (by rw [hworker]; rfl)⟩
  | _ => cases hexit

variable [DecidableEq F] [DecidableEq C] {t : System F C} {label : Label F C}

/-- A call that removes tasks takes exactly those that it names out of the lists, and other steps remove none. -/
def System.RemovesMatching (s : System F C) (label : Label F C) : Prop :=
  ∀ t, s.step label = some t → match label.removal with
    | some r =>
      t.sched.now = s.sched.now.filter (!r.takes ·) ∧ t.sched.later = s.sched.later.filter (!r.takes ·) ∧
      t.removed = s.removed ++ ((s.sched.now ++ s.sched.later).filter r.takes).map (·,r)
    | none => t.removed = s.removed

/-- The worker returns only if it was told to stop and there are no tasks. -/
def System.ExitsIdle (s : System F C) (label : Label F C) : Prop :=
  ∀ t, s.step label = some t → t.worker.finished →
    s.worker.finished ∨ s.sched.shouldRun = false ∧ s.sched.now = [] ∧ s.sched.later = []

instance (s : System F C) (label : Label F C) : Decidable (s.ExitsIdle label) :=
  match h : s.step label with
  | none => isTrue fun _ ht => absurd (h.symm.trans ht) nofun
  | some t =>
    decidable_of_iff (t.worker.finished →
        s.worker.finished ∨ s.sched.shouldRun = false ∧ s.sched.now = [] ∧ s.sched.later = [])
      ⟨fun hexit _ hu => Option.some.inj (h.symm.trans hu) ▸ hexit,fun hexit => hexit t h⟩

/-- No task is queued between the last look of the worker at the lists and its test whether it may stop. -/
def System.Settled (s : System F C) : Label F C → Prop
  | .queue .. => s.worker.leaving = false
  | _ => True

instance (s : System F C) (label : Label F C) : Decidable (s.Settled label) := by
  cases label <;> unfold System.Settled <;> infer_instance
lemma removesMatching_of_valid (hs : s.Valid) : s.RemovesMatching label := by
  intro t h
  cases does_of_step hs h with
  | idles _ _ hremoval => rw [hremoval]; rfl
  | removes _ _ hremoval => rw [hremoval]; exact ⟨rfl,rfl,rfl⟩
  | _ => rfl
lemma System.Does.vacant (h : s.Does label t) (settled : s.Settled label) (hs : s.Vacant) : t.Vacant := by
  cases h with
  | idles _ _ _ hmoves => exact hmoves.vacant hs
  | queues => exact fun hleaving => Bool.noConfusion (hleaving.symm.trans settled)
  | removes _ _ _ hmoves =>
    intro hleaving
    obtain ⟨hnow,hlater⟩ := hmoves.vacant hs hleaving
    simp [System.removes,System.idles,hnow,hlater]
  | _ =>
    intro hleaving
    cases hleaving
lemma exitsIdle_of_vacant (hvalid : s.Valid) (hs : s.Vacant) : s.ExitsIdle label := by
  intro t h hexit
  cases does_of_step hvalid h with
  | idles _ _ _ hmoves | removes _ _ _ hmoves => exact hmoves.finished hs hexit
  | queues => exact .inl hexit
  | _ => cases hexit

/-- Tasks are kept in order and accounted for. If none is queued while the worker is about to test whether it may
stop, it stops only when there are none. -/
theorem tasks_ordered (itemSize : ℕ) (memory : List (Option ℕ)) (lock signal : Except PrxError Unit) (thread : Bool)
    {sched : Scheduler F C} (fresh : freshFor [] memory)
    (created : Scheduler.create itemSize memory lock signal thread = .ok sched) (clock : ℤ)
    (labels : List (Label F C)) :
    Always System.step System.Ordered (.initial sched clock) labels ∧
    Along System.step System.RemovesMatching (.initial sched clock) labels ∧
    (Along System.step System.Settled (.initial sched clock) labels →
      Along System.step System.ExitsIdle (.initial sched clock) labels) := by
  have hvalid := initial_valid fresh created clock
  have hordered := initial_ordered created clock
  refine ⟨?_,?_,fun settled => ?_⟩
  · have hstep {s t : System F C} {label : Label F C} (hs : s.Valid ∧ s.Ordered) (_ : True)
        (h : s.step label = some t) : t.Valid ∧ t.Ordered := by
      have hdoes := does_of_step hs.1 h
      exact ⟨hdoes.valid hs.1,hdoes.ordered hs.2⟩
    exact always_of_along hstep And.right ⟨hvalid,hordered⟩ along_true
  · exact .of_invariant (fun hs _ h => (does_of_step hs h).valid hs) (fun hs _ => removesMatching_of_valid hs)
      hvalid along_true
  · have hstep {s t : System F C} {label : Label F C} (hs : s.Valid ∧ s.Vacant) (hsettled : s.Settled label)
        (h : s.step label = some t) : t.Valid ∧ t.Vacant := by
      have hdoes := does_of_step hs.1 h
      exact ⟨hdoes.valid hs.1,hdoes.vacant hsettled hs.2⟩
    exact .of_invariant hstep (fun hs _ => exitsIdle_of_vacant hs.1 hs.2) ⟨hvalid,nofun⟩ settled

def threeTasks : List (Label ℕ ℕ) :=
  [.queue (some 1) none 9 [],.work,.queue (some 2) (some 7) 0 [],.advance 4,.queue (some 3) none 5 [],.work,
    .kill (.entry ⟨0,0⟩),.clear none (some 7),.work,.release none,.work,.advance 5,.work,.work,.work,.work,.work,.work,
    .work,.work,.atExit]
theorem threeTasks_ordered : ∃ sched : Scheduler ℕ ℕ, Scheduler.create 64 [some 0] (.ok ()) (.ok ()) true = .ok sched ∧
    ((run System.step (.initial sched 0) threeTasks).isSome ∧
      Along System.step System.Settled (.initial sched 0) threeTasks) ∧
    Always System.step System.Ordered (.initial sched 0) threeTasks ∧
    Along System.step System.RemovesMatching (.initial sched 0) threeTasks ∧
    Along System.step System.ExitsIdle (.initial sched 0) threeTasks := by
  obtain ⟨sched,created,hrun⟩ := exists_created (Scheduler.create 64 [some 0] (.ok ()) (.ok ()) true)
    (fun sched => (run System.step (.initial sched 0) threeTasks).isSome ∧
      Along System.step System.Settled (.initial sched 0) threeTasks) (by decide +kernel)
  obtain ⟨ordered,removes,exits⟩ := tasks_ordered 64 [some 0] _ _ true (by decide) created 0 threeTasks
  exact ⟨sched,created,hrun,ordered,removes,exits hrun.2⟩

/-- A task that is queued after the worker has found the lists empty is left behind when the scheduler is released. -/
theorem leftBehind_not_exitsIdle : ∃ sched : Scheduler ℕ ℕ,
    Scheduler.create 64 [some 0] (.ok ()) (.ok ()) true = .ok sched ∧
    ¬Along System.step System.ExitsIdle (.initial sched 0)
      [.work,.work,.queue (some 1) none 0 [],.release none,.work] :=
  exists_created _ _ (by decide +kernel)

/-- The task pool has handed out the blocks of the tasks that are queued or run, and no others. -/
def System.Accounted (s : System F C) : Prop :=
  (s.tasks.map Task.entry).Nodup ∧ ∀ a, a ∈ s.sched.taskPool.checkedOut ↔ a ∈ s.tasks.map Task.entry

/-- No task leaks, and none is used after it was released. -/
theorem tasks_accounted {itemSize memory lock signal thread} {sched : Scheduler F C} (fresh : freshFor [] memory)
    (created : Scheduler.create itemSize memory lock signal thread = .ok sched) (clock : ℤ)
    (labels : List (Label F C)) : Always System.step System.Accounted (.initial sched clock) labels :=
  always_of_along (fun hs _ h => (does_of_step hs h).valid hs)
    (fun hs => ⟨hs.nodup,fun a => by rw [hs.lease.pool.refs,hs.lease.refs,one_le_count_iff]⟩)
    (initial_valid fresh created clock) along_true
theorem threeTasks_accounted : ∃ sched : Scheduler ℕ ℕ, Scheduler.create 64 [some 0] (.ok ()) (.ok ()) true = .ok sched
    ∧ Always System.step System.Accounted (.initial sched 0) threeTasks := by
  obtain ⟨sched,created,_⟩ := exists_created (Scheduler.create (F := ℕ) (C := ℕ) 64 [some 0] (.ok ()) (.ok ()) true)
    (fun _ => True) (by decide +kernel)
  exact ⟨sched,created,tasks_accounted (by decide) created 0 threeTasks⟩

end EdgeProxy.Sched
