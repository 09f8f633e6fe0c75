import Mathlib.Data.List.Chain
import EdgeProxy.Buffer.Lease

/-! # The watermarks of a pool, and the sizes of its buffers

A pool signals low memory when its free buffers reach the low watermark, and high memory when they are more than the
high one again. A resize stays with a buffer when it is returned, and the next client gets the size that the last one
left.
-/
namespace EdgeProxy.Buffer
open Lib List Nat PoolConfig Pool Option

structure Alternates (signals : List Bool) : Prop where
  chain : signals.IsChain (· ≠ ·)
  first : signals.head? ≠ some false

lemma alternates_nil : Alternates [] :=
  ⟨.nil,nofun⟩

lemma Alternates.append {signals low} (h : Alternates signals)
    (next : signals.getLast? = some true ↔ low = false) : Alternates (signals ++ [low]) := by
  constructor
  · refine isChain_append.2 ⟨h.chain,.singleton _,fun b hb b' hb' => ?_⟩
    cases hb'
    rintro rfl
    cases b with
    | true => cases next.1 hb
    | false => cases hb.symm.trans (next.2 rfl)
  · cases signals with
    | nil =>
      cases low with
      | true => decide
      | false => cases next.2 rfl
    | cons => exact h.first

/-- The flag of a pool with a callback is set after a signal of low memory; a pool without one makes no signal. -/
structure Pool.Signals (p : Pool) : Prop where
  alternates : Alternates p.signals
  last : p.config.cb → (p.signals.getLast? = some true ↔ p.empty)
  silent : p.config.cb = false → p.signals = []

variable {p p' : Pool}

lemma Pool.Signals.of_signal {signal : Bool} (hp : p.Signals) (low : Bool) (allowed : signal → p.empty = !low)
    (config : p'.config = p.config) (empty : p'.empty = if signal then low else p.empty)
    (signals : p'.signals = p.signals ++ if signal ∧ p.config.cb then [low] else []) : p'.Signals := by
  cases signal with
  | false =>
    have hsame : p'.signals = p.signals := by simpa using signals
    have hempty : p'.empty = p.empty := empty
    exact ⟨hsame ▸ hp.alternates,by rw [hsame,hempty,config]; exact hp.last,by rw [hsame,config]; exact hp.silent⟩
  | true =>
    have hempty : p'.empty = low := empty
    cases hcb : p.config.cb with
    | false =>
      have hnone : p'.signals = [] := by simpa [hcb,hp.silent hcb] using signals
      rw [← config] at hcb
      exact ⟨hnone ▸ alternates_nil,fun h => absurd (hcb.symm.trans h) nofun,fun _ => hnone⟩
    | true =>
      have happend : p'.signals = p.signals ++ [low] := by simpa [hcb] using signals
      have next : p.signals.getLast? = some true ↔ low = false := by simp [hp.last hcb,allowed rfl]
      rw [← config] at hcb
      refine ⟨happend ▸ hp.alternates.append next,fun _ => ?_,fun h => absurd (hcb.symm.trans h) nofun⟩
      rw [happend,hempty,getLast?_concat,some.injEq]

lemma handsOut_signals (hp : p.Signals) (out : Address) (rest added : List Address) (length : Address → ℕ) :
    (p.handsOut out rest added length).Signals := by
  refine hp.of_signal true (fun h => ?_) rfl ?_ rfl
  · simpa using (of_decide_eq_true h).2
  · simp only [handsOut]
    cases p.empty <;> simp
lemma takesBack_signals (hp : p.Signals) (a : Address) : (p.takesBack a).Signals := by
  refine hp.of_signal false (fun h => ?_) rfl ?_ rfl
  · exact (of_decide_eq_true h).2
  · simp only [takesBack]
    cases p.empty <;> simp
lemma Lease.Does.signals {s t : Lease} (h : s.Does t) (hs : s.pool.Signals) : t.pool.Signals := by
  cases h with
  | handsOut => exact handsOut_signals hs _ _ _ _
  | takesBack => exact takesBack_signals hs _
  | _ => exact ⟨hs.alternates,hs.last,hs.silent⟩

/-- While low memory is signalled, the free buffers are not more than the high watermark. -/
structure Pool.Full (p : Pool) : Prop where
  all : p.config.maxCount ≤ p.count
  max : p.config.maxCount ≠ 0
  watermarks : p.config.lowWatermark ≤ p.config.highWatermark
  high : p.config.highWatermark < p.config.maxCount
  low : p.empty → p.freeList.length ≤ p.config.highWatermark

lemma Lease.Does.full {s t : Lease} (h : s.Does t) (hs : s.pool.Full) (hvalid : s.Valid) : t.pool.Full := by
  obtain ⟨all,max,watermarks,high,low⟩ := hs
  cases h with
  | @handsOut out rest added length hfree _ hmax _ _ =>
    have hadded : added.length = 0 := by
      omega
    refine ⟨le_trans all (le_add_right _ _),max,watermarks,high,fun hempty => ?_⟩
    have hlength : (rest ++ added).length = rest.length := by rw [length_append,hadded,add_zero]
    change (rest ++ added).length ≤ s.pool.config.highWatermark
    cases before : s.pool.empty with
    | true =>
      have hle := low before
      rw [hfree,length_cons] at hle
      omega
    | false =>
      simp only [Pool.handsOut,before,Bool.false_or,decide_eq_true_eq] at hempty
      omega
  | @takesBack a _ _ =>
    refine ⟨all,max,watermarks,high,fun hempty => ?_⟩
    have hcount := hvalid.pool.freeCount
    simp only [Pool.takesBack,Bool.and_eq_true,Bool.not_eq_true',decide_eq_false_iff_not] at hempty
    obtain ⟨before,not_high⟩ := hempty
    simp only [Pool.takesBack,length_append,length_cons,length_nil]
    have : ¬(s.pool.freeCount + 1 > s.pool.config.highWatermark) := fun h => not_high ⟨h,before⟩
    omega
  | _ => exact ⟨all,max,watermarks,high,low⟩

lemma Pool.Full.not_empty {p : Pool} (hp : p.Full) (hvalid : p.Valid) (back : p.checkedOut = []) : p.empty = false := by
  have hcount := hvalid.count
  rw [back,length_nil] at hcount
  have hall := hp.all
  have hhigh := hp.high
  rw [← Bool.not_eq_true]
  intro hempty
  have hlow := hp.low hempty
  omega
lemma count_addBuffers (p : Pool) (added : List Address) : (p.addBuffers added).count = p.count + added.length := by
  induction added generalizing p with
  | nil => rfl
  | cons a added ih =>
    have hadded : ((p.addBuffer a).addBuffers added).count = p.count + 1 + added.length := ih (p.addBuffer a)
    change ((p.addBuffer a).addBuffers added).count = _
    rw [hadded,length_cons,add_assoc,add_comm 1]
lemma count_poolCreate_fixed {config itemSize memory p} (h : poolCreate .fixed config itemSize memory = some p)
    (max : (init config).maxCount ≠ 0) : p.count = min (init config).maxCount (init config).initialCount := by
  match memory with
  | [] => cases h
  | none :: memory => cases h
  | some block :: memory =>
    obtain ⟨_,hp⟩ := ite_none_left_eq_some.1 h
    rw [← some.inj hp]
    dsimp only [grow]
    rw [growFixed_eq,count_addBuffers]
    simp [growItems,max,sizeSub]

open List Function Pool Option

/-- A buffer that the call hands out has at least the item size of the pool. -/
def Lease.handsOutRoom (s : Lease) (call : PoolCall) : Bool :=
  (s.step call).all fun t => (s.handedOut call).all fun a => s.pool.itemSize ≤ t.pool.length a

/-- The call does not resize a buffer to less than the item size of the pool. -/
def PoolCall.ample (itemSize : ℕ) : PoolCall → Bool
  | .resize _ size _ => itemSize ≤ size
  | _ => true

def Pool.Roomy (n : ℕ) (p : Pool) : Prop :=
  p.itemSize = n ∧ ∀ a ∈ p.buffers, n ≤ p.length a

variable {a : Address} {n : ℕ} {memory : List (Option ℕ)} {s t : Lease} {call : PoolCall}

lemma allocBuffer_roomy (hp : p.Valid) (fresh : freshFor p.buffers memory) (h : p.Roomy n) :
    (p.allocBuffer memory).1.Roomy n := by
  cases hfree : p.freeList with
  | nil =>
    rw [allocBuffer,hfree]
    exact h
  | cons =>
    obtain ⟨added,halloc,_⟩ := allocBuffer_eq hp fresh hfree
    rw [halloc]
    refine ⟨h.1,fun a ha => ?_⟩
    change n ≤ ite (a ∈ added) p.itemSize (p.length a)
    split
    · exact le_of_eq h.1.symm
    · refine h.2 a ?_
      simp only [buffers,handsOut,hfree,mem_append,mem_cons] at ha ⊢
      tauto

lemma step_roomy (hs : s.Valid) (h : s.pool.Roomy n) (hc : call.ample n) (hstep : s.step call = some t) :
    t.pool.Roomy n := by
  cases call with
  | alloc =>
    obtain ⟨fresh,⟨⟩⟩ := ite_none_right_eq_some.1 hstep
    exact allocBuffer_roomy hs.pool fresh h
  | addRef =>
    obtain ⟨_,⟨⟩⟩ := ite_none_right_eq_some.1 hstep
    exact h
  | release a =>
    obtain ⟨hheld,ht⟩ := ite_none_right_eq_some.1 hstep
    have hout := hs.held_iff.1 hheld
    have hrefs := (hs.pool.refs a).1 hout
    cases ht
    by_cases last : s.pool.refs a = 1
    · rw [freeBuffer_last last]
      refine ⟨h.1,fun b hb => h.2 b ?_⟩
      have hperm : (s.pool.freeList ++ [a] ++ s.pool.checkedOut.erase a).Perm s.pool.buffers := by
        rw [append_assoc]
        exact (perm_cons_erase hout).symm.append_left _
      exact hperm.mem_iff.1 hb
    · rw [freeBuffer_more (by omega)]
      exact h
  | resize a size moved =>
    obtain ⟨⟨hheld,_⟩,ht⟩ := ite_none_right_eq_some.1 hstep
    have hout := hs.held_iff.1 hheld
    rcases setSize_cases s.pool a size moved with hset | hset | ⟨block,rfl,hset⟩
    · rw [hset] at ht
      cases ht
      exact h
    · rw [hset] at ht
      cases ht
      refine ⟨h.1,fun b hb => h.2 b ?_⟩
      have hperm : (s.pool.checkedOut.erase a ++ [a]).Perm s.pool.checkedOut :=
        perm_append_comm.trans (perm_cons_erase hout).symm
      exact (hperm.append_left _).mem_iff.1 hb
    · rw [hset] at ht
      cases ht
      refine ⟨h.1,fun b hb => ?_⟩
      change n ≤ update s.pool.length ⟨block,0⟩ size b
      by_cases hbuf : b = ⟨block,0⟩
      · rw [hbuf,update_self]
        exact of_decide_eq_true hc
      · rw [update_of_ne hbuf]
        refine h.2 b ?_
        simp only [buffers,movesTo,mem_append,mem_singleton,hbuf,or_false] at hb ⊢
        exact hb.imp_right mem_of_mem_erase

lemma handsOutRoom_of_roomy (hs : s.Valid) (h : s.pool.Roomy n) (hc : call.ample n) : s.handsOutRoom call := by
  unfold Lease.handsOutRoom
  simp only [Option.all_eq_true,decide_eq_true_eq,h.1]
  intro t ht a ha
  refine (step_roomy hs h hc ht).2 a (mem_append_right _ (((does_of_step hs ht).valid hs).held_iff.1 ?_))
  cases call with
  | alloc =>
    obtain ⟨_,⟨⟩⟩ := ite_none_right_eq_some.1 ht
    exact mem_append_right _ (mem_toList.2 ha)
  | _ => cases ha
lemma poolCreate_roomy {kind config itemSize} (fresh : freshFor [] memory)
    (created : poolCreate kind config itemSize memory = some p) : p.Roomy itemSize := by
  obtain ⟨_,hp⟩ := ite_none_left_eq_some.1 created
  rw [← some.inj hp]
  generalize hinit : mk kind (.init config) itemSize [] 0 [] 0 false (fun _ => 0) (fun _ => 0) [] = init
  obtain ⟨added,hgrow,_⟩ := grow_eq (p := init) (fun a _ => by rw [← hinit]) fresh
  rw [hgrow]
  subst hinit
  refine ⟨rfl,fun a ha => ?_⟩
  have hadded : a ∈ added := by simpa [buffers] using ha
  exact le_of_eq (if_pos hadded).symm

lemma prxBufferNew_length {p' b size moved}
    (h : p.prxBufferNew size memory moved = (p',some b)) : p'.length b = size := by
  unfold prxBufferNew at h
  split at h
  · cases h
  · rename_i p₁ a _
    rcases setSize_cases p₁ a size moved with hset | hset | ⟨block,_,hset⟩
    · rw [hset] at h
      cases h
    · rw [hset] at h
      cases h
    · rw [hset] at h
      cases h
      exact update_self ..

/-- A pool whose clients never resize a buffer to less than its item size hands out only buffers that have it. -/
theorem handsOutRoom_of_ample (config : Option PoolConfig) (itemSize : ℕ) (memory : List (Option ℕ)) {p : Pool}
    (fresh : freshFor [] memory) (created : poolCreate .dynamic config itemSize memory = some p)
    (calls : List PoolCall) (ample : ∀ call ∈ calls, call.ample itemSize) :
    Along Lease.step (fun s call => s.handsOutRoom call) ⟨p,[]⟩ calls ∧
    Always Lease.step (fun s => ∀ size memory moved p' b,
      s.pool.prxBufferNew size memory moved = (p',some b) → size ≤ p'.length b) ⟨p,[]⟩ calls := by
  obtain ⟨hp,_,_,_,hrefs⟩ := poolCreate_eq fresh created
  have hstart : Lease.Valid ⟨p,[]⟩ := ⟨hp,fun a => (hrefs a).trans count_nil.symm⟩
  have hstep {s t : Lease} {call : PoolCall} (hs : s.Valid ∧ s.pool.Roomy itemSize) (hc : call.ample itemSize)
      (ht : s.step call = some t) : t.Valid ∧ t.pool.Roomy itemSize :=
    ⟨(does_of_step hs.1 ht).valid hs.1,step_roomy hs.1 hs.2 hc ht⟩
  refine ⟨.of_invariant hstep (fun hs hc => ?_) ⟨hstart,poolCreate_roomy fresh created⟩ (along_of_mem ample),?_⟩
  · exact handsOutRoom_of_roomy hs.1 hs.2 hc
  · exact always_of_along (fun _ _ _ => trivial)
      (fun _ _ _ _ _ _ h => Nat.le_of_eq (prxBufferNew_length h).symm) trivial along_true

theorem grownBuffer_handsOutRoom : ∃ p, poolCreate .dynamic (some ⟨1,1,0,1,true⟩) 16 [some 0] = some p ∧
    let calls := [.alloc [],.resize ⟨0,0⟩ 64 (some 9),.release ⟨9,0⟩,.alloc []]
    (run Lease.step ⟨p,[]⟩ calls).isSome ∧ Along Lease.step (fun s call => s.handsOutRoom call) ⟨p,[]⟩ calls :=
  ⟨_,rfl,by decide,(handsOutRoom_of_ample (some ⟨1,1,0,1,true⟩) 16 [some 0] (by decide) rfl _ (by decide)).1⟩

/-- The only buffer of a pool is resized to one byte and released; the next client gets that byte. -/
theorem shrunkBuffer_not_handsOutRoom : ∃ p, poolCreate .dynamic (some ⟨1,1,0,1,true⟩) 16 [some 0] = some p ∧
    let calls := [.alloc [],.resize ⟨0,0⟩ 1 (some 0),.release ⟨0,0⟩,.alloc []]
    (run Lease.step ⟨p,[]⟩ calls).isSome ∧ ¬Along Lease.step (fun s call => s.handsOutRoom call) ⟨p,[]⟩ calls :=
  ⟨_,rfl,by decide,by decide⟩

end EdgeProxy.Buffer
