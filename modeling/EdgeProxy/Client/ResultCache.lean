import EdgeProxy.Lib.Transition

/-! # The result cache of the client

The callers of `ResultCache.cs`, one access to the dictionary at a time. `GetOrAdd` looks for the key, runs the function
without a lock if there is none, and then adds what it got unless another caller has done so. A key is an argument with
the number of invalidations before the call; tasks are numbered in the order of their start.
-/
namespace EdgeProxy.Client
open Function List Lib

/-- A caller runs the function in `GetOrAdd`, the second time after it removed the key, or has a task to test. -/
inductive Caller (K : Type) where
  | idle
  | adding (key : K) (task : ℕ) (again : Bool)
  | test (key : K) (task : ℕ)
  | removed (key : K)

structure ResultCache (K : Type) where
  cache : K → Option ℕ
  started : List K
  completed : List ℕ
  callers : ℕ → Caller K
  received : List (K × ℕ)

/-- `prompt` tells whether a task that the caller starts is completed when the function returns. -/
inductive CacheEvent (K : Type) where
  | call (i : ℕ) (key : K) (prompt : Bool)
  | move (i : ℕ) (prompt cancelled : Bool)
  | complete (task : ℕ)

namespace ResultCache

lemma adding_update {K : Type} {callers : ℕ → Caller K} {i j key task caller}
    (hi : ∀ t, callers i ≠ .adding key t false) (hj : callers j = .adding key task false) :
    update callers i caller j = .adding key task false := by
  have hne : j ≠ i := by
    rintro rfl
    exact hi task hj
  rw [update_of_ne hne,hj]

variable {K : Type} [DecidableEq K] {s : ResultCache K}

def new : ResultCache K :=
  ⟨fun _ => none,[],[],fun _ => .idle,[]⟩
def goto (s : ResultCache K) (i : ℕ) (caller : Caller K) : ResultCache K :=
  { s with callers := update s.callers i caller }

/-- What a caller does with the result of `GetOrAdd`. -/
def got (s : ResultCache K) (i : ℕ) (key : K) (task : ℕ) (again : Bool) : ResultCache K :=
  if again then { s.goto i .idle with received := s.received ++ [(key,task)] } else s.goto i (.test key task)
def getOrAdd (s : ResultCache K) (i : ℕ) (key : K) (prompt again : Bool) : ResultCache K :=
  match s.cache key with
  | some task => s.got i key task again
  | none =>
    { s.goto i (.adding key s.started.length again) with
      started := s.started ++ [key]
      completed := if prompt then s.started.length :: s.completed else s.completed }
def add (s : ResultCache K) (i : ℕ) (key : K) (task : ℕ) (again : Bool) : ResultCache K :=
  match s.cache key with
  | some other => s.got i key other again
  | none => { s with cache := update s.cache key task }.got i key task again

def step (s : ResultCache K) : CacheEvent K → Option (ResultCache K)
  | .call i key prompt =>
    match s.callers i with
    | .idle => some (s.getOrAdd i key prompt false)
    | _ => none
  | .move i prompt cancelled =>
    match s.callers i with
    | .idle => none
    | .adding key task again => some (s.add i key task again)
    | .test key task =>
      if task ∈ s.completed then some (s.got i key task true)
      else some { s.goto i (.removed key) with cache := update s.cache key none }
    | .removed key => if cancelled then some (s.goto i .idle) else some (s.getOrAdd i key prompt true)
  | .complete task => some { s with completed := task :: s.completed }

structure Shares (s : ResultCache K) : Prop where
  once : ∀ key, s.started.count key ≤ 1
  own : ∀ key task, (key,task) ∈ s.received → s.started[task]? = some key

structure Inv (s : ResultCache K) : Prop extends s.Shares where
  cached : ∀ key task, s.cache key = some task → s.started[task]? = some key
  known : ∀ key ∈ s.started, s.cache key ≠ none ∨ ∃ i task, s.callers i = .adding key task false
  test : ∀ i key task, s.callers i = .test key task → s.started[task]? = some key
  adding : ∀ i key task again, s.callers i = .adding key task again →
    again = false ∧ s.started[task]? = some key ∧ s.cache key = none
  alone : ∀ i j key task task' again again', s.callers i = .adding key task again →
    s.callers j = .adding key task' again' → i = j
  removed : ∀ i key, s.callers i ≠ .removed key

lemma Inv.goto (h : s.Inv) {i} {caller : Caller K} (hi : ∀ k t a, s.callers i ≠ .adding k t a)
    (hc : caller = .idle ∨ ∃ key task, caller = .test key task ∧ s.started[task]? = some key) :
    (s.goto i caller).Inv := by
  have ⟨⟨once,own⟩,cached,known,test,adding,alone,removed⟩ := h
  refine ⟨⟨once,own⟩,cached,fun key hmem => ?_,?_,?_,?_,?_⟩
  · rcases known key hmem with hne | ⟨j,task,hj⟩
    · exact .inl hne
    · exact .inr ⟨j,task,adding_update (fun t => hi key t false) hj⟩
  all_goals
    simp only [ResultCache.goto]
    grind [update_apply]
lemma Inv.receive (h : s.Inv) {i key task} (hi : ∀ k t a, s.callers i ≠ .adding k t a)
    (htask : s.started[task]? = some key) : (s.got i key task true).Inv := by
  have ⟨⟨once,own⟩,cached,known,test,adding,alone,removed⟩ := h.goto hi (.inl rfl)
  refine ⟨⟨once,fun key' task' hmem => ?_⟩,cached,known,test,adding,alone,removed⟩
  rcases mem_append.1 hmem with hmem | hmem
  · exact own key' task' hmem
  · cases mem_singleton.1 hmem
    exact htask
lemma Inv.getOrAdd (h : s.Inv) {i key} (prompt : Bool) (hi : s.callers i = .idle)
    (hkey : ∀ j task again, s.callers j ≠ .adding key task again) : (s.getOrAdd i key prompt false).Inv := by
  unfold ResultCache.getOrAdd
  split
  · rename_i task htask
    exact h.goto (by simp [hi]) (.inr ⟨key,task,rfl,h.cached key task htask⟩)
  · have ⟨⟨once,own⟩,cached,known,test,adding,alone,removed⟩ := h
    refine ⟨⟨?_,?_⟩,?_,fun key' hmem => ?_,?_,?_,?_,?_⟩
    on_goal 4 =>
      rcases mem_append.1 hmem with hmem | hmem
      · rcases known key' hmem with hne | ⟨j,task,hj⟩
        · exact .inl hne
        · exact .inr ⟨j,task,adding_update (by simp [hi]) hj⟩
      · cases mem_singleton.1 hmem
        exact .inr ⟨i,_,update_self ..⟩
    all_goals
      simp only [ResultCache.goto]
      grind [update_apply]
lemma Inv.add (h : s.Inv) {i key task again} (hi : s.callers i = .adding key task again) :
    (s.add i key task again).Inv := by
  obtain ⟨rfl,htask,hnone⟩ := h.adding i key task again hi
  have ⟨⟨once,own⟩,cached,known,test,adding,alone,removed⟩ := h
  unfold ResultCache.add
  rw [hnone]
  refine ⟨⟨once,own⟩,?_,fun key' hmem => ?_,?_,?_,?_,?_⟩
  on_goal 2 =>
    by_cases hkey : key' = key
    · exact .inl (by simp [hkey,got,ResultCache.goto])
    · rcases known key' hmem with hne | ⟨j,task',hj⟩
      · exact .inl (by simpa [hkey,got,ResultCache.goto] using hne)
      · exact .inr ⟨j,task',adding_update (by simp [hi,Ne.symm hkey]) hj⟩
  all_goals
    simp only [got,ResultCache.goto]
    grind [update_apply]

end ResultCache

end EdgeProxy.Client
