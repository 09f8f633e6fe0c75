import EdgeProxy.Sched.Order

/-! # Ids of tasks that are done

The id of a task is the address of its entry, which the pool hands out again.
-/
namespace EdgeProxy.Sched
open Base Buffer Lib List

variable {F C : Type} [DecidableEq F] [DecidableEq C] {s t : System F C} {label : Label F C}

def System.Latest (s : System F C) : Prop :=
  ∀ u ∈ s.queued, ∀ v ∈ s.tasks, v.entry = u.entry → u.ticket ≤ v.ticket

lemma queues_latest {memory taskPool w} (hvalid : s.Valid)
    (hordered : s.Ordered) (halloc : s.sched.taskPool.allocBuffer memory = (taskPool,some w.entry))
    (hticket : w.ticket = s.queued.length) (hs : s.Latest) : (s.queues taskPool w).Latest := by
  have hout : w.entry ∉ s.tasks.map Task.entry := allocated_not_linked hvalid halloc
  intro u hu v hv hentry
  have hv : v = w ∨ v ∈ s.tasks :=
    mem_cons.1 (((queues_lists taskPool w).append_right _).mem_iff.1 hv)
  rcases hv with rfl | hv
  · rcases mem_append.1 hu with hu | hu
    · exact hticket ▸ (hordered.ticket_lt hu).le
    · exact (congrArg Task.ticket (mem_singleton.1 hu)).le
  · rcases mem_append.1 hu with hu | hu
    · exact hs u hu v hv hentry
    · rw [mem_singleton.1 hu] at hentry
      exact absurd (hentry ▸ mem_map_of_mem hv) hout

lemma System.Does.tasks_subset (h : s.Does label t) : (t.queued = s.queued ∧ ∀ v ∈ t.tasks, v ∈ s.tasks) ∨
    ∃ memory taskPool w, s.sched.taskPool.allocBuffer memory = (taskPool,some w.entry) ∧ w.ticket = s.queued.length ∧
      t = s.queues taskPool w := by
  cases h with
  | queues task context delay fresh halloc => exact .inr ⟨_,_,_,halloc,rfl,rfl⟩
  | idles _ _ _ hmoves => exact .inl ⟨rfl,fun v hv => by simpa [System.tasks,System.idles,hmoves.task] using hv⟩
  | startsLater hworker hqueue _ | startsNow hworker hqueue =>
    refine .inl ⟨rfl,fun v hv => ?_⟩
    simp only [System.tasks,System.starts,Worker.task] at hv ⊢
    grind
  | finishes =>
    refine .inl ⟨rfl,fun v hv => ?_⟩
    simp only [System.tasks,System.finishes,Worker.task,Option.toList_none,append_nil] at hv
    exact mem_append_left _ hv
  | @removes _ r worker _ _ _ hmoves =>
    refine .inl ⟨rfl,fun v hv => ?_⟩
    have hlists := (removes_lists s r).mem_iff (a := v)
    simp only [System.tasks,System.idles,hmoves.task] at hv ⊢
    grind

lemma System.Does.latest (h : s.Does label t) (hvalid : s.Valid) (hordered : s.Ordered) (hs : s.Latest) : t.Latest := by
  rcases h.tasks_subset with ⟨hqueued,htasks⟩ | ⟨memory,taskPool,w,halloc,hticket,rfl⟩
  · exact fun u hu v hv => hs u (hqueued ▸ hu) v (htasks v hv)
  · exact queues_latest hvalid hordered halloc hticket hs
def System.Finished (s : System F C) (u : Task F C) : Prop :=
  u ∈ s.started.map Prod.fst ∨ u ∈ s.removed.map Prod.fst
lemma System.Ordered.nodup (hs : s.Ordered) : s.queued.Nodup := by
  apply List.Nodup.of_map Task.ticket
  rw [hs.tickets]
  exact nodup_range
lemma System.Ordered.finished_mem {u} (hs : s.Ordered) (hu : s.Finished u) :
    u ∈ s.queued ∧ u ∉ s.sched.now ++ s.sched.later := by
  have hnodup := hs.accounted.nodup_iff.1 hs.nodup
  obtain ⟨hleft,_,hremoved⟩ := nodup_append.1 hnodup
  obtain ⟨_,_,hstarted⟩ := nodup_append.1 hleft
  rw [hs.accounted.mem_iff]
  rcases hu with hu | hu
  · exact ⟨mem_append_left _ (mem_append_left _ hu),fun hlisted => hstarted u hu u hlisted rfl⟩
  · exact ⟨mem_append_right _ hu,fun hlisted => hremoved u (mem_append_right _ hlisted) u hu rfl⟩

/-- A call with the id of the task finds no task and leaves all of them. -/
def System.KillsNone (s : System F C) (u : Task F C) : Prop :=
  (s.sched.kill (.entry u.entry)).2 = .error .notFound ∧ (s.sched.kill (.entry u.entry)).1 = s.sched

omit [DecidableEq F] [DecidableEq C] in
lemma killsNone_iff (hs : s.Valid) (u : Task F C) :
    s.KillsNone u ↔ ∀ v ∈ s.sched.now ++ s.sched.later, v.entry ≠ u.entry := by
  have hid (v : Task F C) : v.hasId (.entry u.entry) ↔ v.entry = u.entry := by
    rw [hasId_iff,TaskId.entry.injEq]
  obtain ⟨hfound,hstay⟩ := unlinkId_eq hs (.entry u.entry)
  unfold System.KillsNone Scheduler.kill
  rcases hunlink : s.sched.unlinkId (.entry u.entry) with ⟨_ | next,sched⟩
  · rw [hunlink] at hfound hstay
    have hnone : ∀ v ∈ s.sched.now ++ s.sched.later, ¬v.hasId (.entry u.entry) :=
      filter_eq_nil_iff.1 hfound.symm
    have hall (queue : List (Task F C)) (hqueue : ∀ v ∈ queue, v ∈ s.sched.now ++ s.sched.later) :
        queue.filter (!·.hasId (.entry u.entry)) = queue :=
      filter_eq_self.2 fun v hv => by simpa using hnone v (hqueue v hv)
    rw [hall _ fun v => mem_append_left _,hall _ fun v => mem_append_right _] at hstay
    constructor
    · exact fun _ v hv hentry => hnone v hv ((hid v).2 hentry)
    · exact fun _ => ⟨rfl,hstay⟩
  · rw [hunlink] at hfound
    have hnext : next ∈ (s.sched.now ++ s.sched.later).filter (Task.hasId (.entry u.entry)) :=
      hfound ▸ mem_singleton_self next
    obtain ⟨hmem,hentry⟩ := mem_filter.1 hnext
    constructor
    · rintro ⟨hcode,_⟩
      cases hcode
    · exact fun hnone => absurd ((hid next).1 hentry) (hnone next hmem)

/-- The id of a task that is done finds no task exactly if its entry was not handed out again to a task that waits. -/
theorem killsNone_iff_notReused (itemSize : ℕ) (memory : List (Option ℕ)) (lock signal : Except PrxError Unit)
    (thread : Bool) {sched : Scheduler F C} (fresh : freshFor [] memory)
    (created : Scheduler.create itemSize memory lock signal thread = .ok sched) (clock : ℤ)
    {labels : List (Label F C)} {s : System F C} (hruns : Runs System.step (.initial sched clock) labels s)
    {u : Task F C} (hu : s.Finished u) :
    s.KillsNone u ↔ ∀ v ∈ s.sched.now ++ s.sched.later, u.ticket < v.ticket → v.entry ≠ u.entry := by
  have hstep {s t : System F C} {label : Label F C} (hs : s.Valid ∧ s.Ordered ∧ s.Latest) (_ : True)
      (h : s.step label = some t) : t.Valid ∧ t.Ordered ∧ t.Latest := by
    have hdoes := does_of_step hs.1 h
    exact ⟨hdoes.valid hs.1,hdoes.ordered hs.2.1,hdoes.latest hs.1 hs.2.1 hs.2.2⟩
  obtain ⟨hvalid,hordered,hlatest⟩ := hruns.invariant hstep along_true
    ⟨initial_valid fresh created clock,initial_ordered created clock,nofun⟩
  obtain ⟨hqueued,hnot⟩ := hordered.finished_mem hu
  rw [killsNone_iff hvalid]
  constructor
  · exact fun hnone v hv _ => hnone v hv
  · intro hnone v hv hentry
    -- The entry was handed out again after the task had got it, so it is for a task that was queued later.
    have hle := hlatest u hqueued v (mem_append_left _ hv) hentry
    have hne : u.ticket ≠ v.ticket := by
      intro heq
      have huv := inj_on_of_nodup_map (hordered.tickets ▸ nodup_range) hqueued (hordered.listed_mem hv) heq
      exact hnot (huv ▸ hv)
    exact hnone v hv (lt_of_le_of_ne hle hne) hentry

def firstTask : Task ℕ ℕ :=
  Task.new ⟨0,0⟩ 1 none 0 0 0
def firstDone (others : ℕ) : List (Label ℕ ℕ) :=
  [.queue (some 1) none 0 [],.work,.work,.work] ++ List.replicate others (.queue (some 2) none 0 [])

/-- While the entries are new, the id of the first task finds none. -/
theorem firstDone_killsNone : ∃ sched : Scheduler ℕ ℕ,
    Scheduler.create 64 [some 0] (.ok ()) (.ok ()) true = .ok sched ∧
    ∃ s, run System.step (.initial sched 0) (firstDone 3) = some s ∧ s.Finished firstTask ∧ s.KillsNone firstTask := by
  obtain ⟨sched,created,s,hs,hfirst,hentries⟩ := exists_created
    (Scheduler.create 64 [some 0] (.ok ()) (.ok ()) true)
    (fun sched => ∃ s, run System.step (.initial sched 0) (firstDone 3) = some s ∧
      firstTask ∈ s.started.map Prod.fst ∧ ∀ v ∈ s.sched.now ++ s.sched.later, v.entry ≠ firstTask.entry)
    (by decide +kernel)
  refine ⟨sched,created,s,hs,.inl hfirst,?_⟩
  apply (killsNone_iff_notReused 64 [some 0] _ _ true (by decide) created 0 (runs_of_run hs) (.inl hfirst)).2
  exact fun v hv _ => hentries v hv

/-- After as many tasks as the pool has entries, the id is that of the last one, which is removed. -/
theorem recycled_not_killsNone : ∃ sched : Scheduler ℕ ℕ,
    Scheduler.create 64 [some 0] (.ok ()) (.ok ()) true = .ok sched ∧
    ∃ s, run System.step (.initial sched 0) (firstDone 128) = some s ∧ s.Finished firstTask ∧ ¬s.KillsNone firstTask ∧
      s.sched.now.length = 128 ∧ (s.sched.kill (.entry firstTask.entry)).1.now.length = 127 := by
  obtain ⟨sched,created,s,hs,hfirst,hok,hlengths⟩ := exists_created
    (Scheduler.create 64 [some 0] (.ok ()) (.ok ()) true)
    (fun sched => ∃ s, run System.step (.initial sched 0) (firstDone 128) = some s ∧
      firstTask ∈ s.started.map Prod.fst ∧ (s.sched.kill (.entry firstTask.entry)).2.toBool ∧
      s.sched.now.length = 128 ∧ (s.sched.kill (.entry firstTask.entry)).1.now.length = 127)
    (by decide +kernel)
  refine ⟨sched,created,s,hs,.inl hfirst,?_,hlengths⟩
  rintro ⟨hcode,_⟩
  rw [hcode] at hok
  cases hok

end EdgeProxy.Sched
