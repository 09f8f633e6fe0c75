import EdgeProxy.Buffer.Pool
import EdgeProxy.Lib.Transition

/-! # The clients of a buffer pool

A pool with the references that its clients hold, under any sequence of calls. Memory allocation may fail at any point.
-/
namespace EdgeProxy.Buffer
open Lib List Function Pool

def Pool.buffers (p : Pool) : List Address :=
  p.freeList ++ p.checkedOut
def freshFor (used : List Address) (memory : List (Option ℕ)) : Bool :=
  (memory.filterMap id).Nodup ∧ used.all fun a => a.block ∉ memory.filterMap id
def freshMove (used : List Address) (a : Address) (moved : Option ℕ) : Bool :=
  moved.all fun block => ⟨block,0⟩ = a ∨ ⟨block,0⟩ ∉ used

def Pool.freshNew (p : Pool) (memory : List (Option ℕ)) (moved : Option ℕ) : Bool :=
  freshFor p.buffers memory &&
    match p.allocBuffer memory with
    | (p,some b) => freshMove p.buffers b moved
    | (_,none) => true

def Pool.addBuffers (p : Pool) (added : List Address) : Pool :=
  added.foldl Pool.addBuffer p
def Pool.lengths (p : Pool) (added : List Address) (a : Address) : ℕ :=
  if a ∈ added then p.itemSize else p.length a
@[simp] lemma lengths_nil (p : Pool) : p.lengths [] = p.length :=
  funext fun _ => if_neg not_mem_nil

lemma addBuffers_eq {p : Pool} {added} (hrefs : ∀ a ∈ added, p.refs a = 0) : p.addBuffers added = { p with
      freeList := p.freeList ++ added
      freeCount := p.freeCount + added.length
      count := p.count + added.length
      length := p.lengths added } := by
  induction added generalizing p with
  | nil => simp [addBuffers]
  | cons a added ih =>
    have hsame : update p.refs a 0 = p.refs := by
      rw [← hrefs a mem_cons_self,update_eq_self]
    have hadd : p.addBuffer a = { p with
        length := update p.length a p.itemSize
        freeList := p.freeList ++ [a]
        count := p.count + 1
        freeCount := p.freeCount + 1 } := by
      rw [addBuffer,hsame]
    have hadded := ih (p := p.addBuffer a) fun b hb => by
      rw [hadd]
      exact hrefs b (mem_cons_of_mem _ hb)
    have hlengths : (p.addBuffer a).lengths added = p.lengths (a :: added) := by
      funext b
      by_cases hb : b = a <;> simp [lengths,hadd,hb]
    change (p.addBuffer a).addBuffers added = _
    rw [hadded,hlengths,hadd]
    simp [Nat.add_comm,Nat.add_left_comm]

lemma growDynamic_eq (items : ℕ) (memory : List (Option ℕ)) (p : Pool) : ∃ n ≤ items, growDynamic items memory p =
      p.addBuffers (((memory.filterMap id).take n).map fun block => ⟨block,0⟩) := by
  induction items generalizing memory p with
  | zero => exact ⟨0,Nat.le_refl _,by simp [growDynamic,addBuffers]⟩
  | succ items ih =>
    match memory with
    | [] | none :: _ => exact ⟨0,Nat.zero_le _,by simp [growDynamic,addBuffers]⟩
    | some block :: memory =>
      obtain ⟨n,hn,hgrow⟩ := ih memory (p.addBuffer ⟨block,0⟩)
      exact ⟨n + 1,Nat.succ_le_succ hn,hgrow⟩
lemma growFixed_eq (block items index : ℕ) (p : Pool) :
    growFixed block items index p = p.addBuffers ((List.range' index items).map fun i => ⟨block,i⟩) := by
  induction items generalizing index p with
  | zero => rfl
  | succ items ih => exact ih (index + 1) _

lemma grow_addBuffers {used memory} (p : Pool) (fresh : freshFor used memory) :
    ∃ added, p.grow memory = p.addBuffers added ∧ added.length ≤ p.growItems ∧ added.Nodup ∧ ∀ a ∈ added, a ∉ used := by
  simp only [freshFor,all_eq_true,decide_eq_true_eq] at fresh
  obtain ⟨distinct,unused⟩ := fresh
  unfold grow
  cases p.kind with
  | dynamic =>
    obtain ⟨n,hn,hgrow⟩ := growDynamic_eq p.growItems memory p
    refine ⟨_,hgrow,?_,?_,?_⟩
    · rw [length_map,length_take]
      exact Nat.le_trans (Nat.min_le_left _ _) hn
    · exact (distinct.sublist (take_sublist _ _)).map fun _ _ h => congrArg Address.block h
    · intro a ha hused
      obtain ⟨block,hblock,rfl⟩ := mem_map.1 ha
      exact unused _ hused (mem_of_mem_take hblock)
  | fixed =>
    have stays : ∃ added, p = p.addBuffers added ∧ added.length ≤ p.growItems ∧ added.Nodup ∧ ∀ a ∈ added, a ∉ used :=
      ⟨[],rfl,Nat.zero_le _,nodup_nil,fun _ h => absurd h not_mem_nil⟩
    match memory with
    | [] | none :: _ => exact stays
    | some block :: memory =>
      refine ⟨_,growFixed_eq block p.growItems 0 p,?_,?_,?_⟩
      · exact Nat.le_of_eq (by rw [length_map,length_range'])
      · exact .map (fun _ _ h => congrArg Address.index h) nodup_range'
      · intro a ha hused
        obtain ⟨i,_,rfl⟩ := mem_map.1 ha
        exact unused _ hused mem_cons_self

/-- The counts are right, no buffer is linked twice, and exactly the buffers that are checked out have references. -/
structure Pool.Valid (p : Pool) : Prop where
  freeCount : p.freeCount = p.freeList.length
  count : p.count = p.freeList.length + p.checkedOut.length
  max : p.config.maxCount ≠ 0 → p.count ≤ p.config.maxCount
  nodup : p.buffers.Nodup
  refs : ∀ a, a ∈ p.checkedOut ↔ 1 ≤ p.refs a

variable {p : Pool} {a : Address} {memory : List (Option ℕ)}

lemma Pool.Valid.refs_eq_zero (hp : p.Valid) (h : a ∉ p.checkedOut) : p.refs a = 0 := by
  have hnot := mt (hp.refs a).2 h
  omega
lemma Pool.Valid.not_checkedOut (hp : p.Valid) (h : a ∈ p.freeList) : a ∉ p.checkedOut :=
  fun hout => disjoint_of_nodup_append hp.nodup h hout

lemma growItems_le (hmax : p.config.maxCount ≠ 0) (hcount : p.count ≤ p.config.maxCount) :
    p.count + p.growItems ≤ p.config.maxCount := by
  unfold growItems sizeSub
  rw [if_pos hmax,if_pos hcount]
  omega
lemma grow_eq {used : List Address} (hrefs : ∀ a, a ∉ used → p.refs a = 0) (fresh : freshFor used memory) :
    ∃ added, p.grow memory = { p with
      freeList := p.freeList ++ added
      freeCount := p.freeCount + added.length
      count := p.count + added.length
      length := p.lengths added } ∧ added.length ≤ p.growItems ∧ added.Nodup ∧ ∀ a ∈ added, a ∉ used := by
  obtain ⟨added,hgrow,hlength,hnodup,hunused⟩ := grow_addBuffers p fresh
  have hadd := addBuffers_eq fun a ha => hrefs a (hunused a ha)
  exact ⟨added,hgrow.trans hadd,hlength,hnodup,hunused⟩
def Pool.handsOut (p : Pool) (out : Address) (rest added : List Address) (length : Address → ℕ) : Pool :=
  let low : Bool := rest.length + added.length ≤ p.config.lowWatermark ∧ ¬p.empty
  { p with
    freeList := rest ++ added
    freeCount := rest.length + added.length
    checkedOut := p.checkedOut ++ [out]
    count := p.count + added.length
    empty := p.empty || low
    refs := update p.refs out 1
    length := length
    signals := p.signals ++ if low ∧ p.config.cb then [true] else [] }

/-- An allocation hands out the first free buffer; the pool grows only if that was the last one. -/
theorem allocBuffer_eq {out rest} (hp : p.Valid) (fresh : freshFor p.buffers memory)
    (hfree : p.freeList = out :: rest) :
    ∃ added, p.allocBuffer memory = (p.handsOut out rest added (p.lengths added),some out) ∧
      (rest ≠ [] → added = []) ∧ (p.config.maxCount ≠ 0 → p.count + added.length ≤ p.config.maxCount) ∧
      added.Nodup ∧ ∀ a ∈ added, a ∉ p.buffers := by
  have hcount : sizeSub p.freeCount 1 = rest.length := by
    rw [hp.freeCount,hfree]
    simp [sizeSub]
  have hrefs : ∀ a, a ∉ p.buffers → p.refs a = 0 := fun a ha =>
    hp.refs_eq_zero fun hout => ha (mem_append_right _ hout)
  have hout : p.refs out = 0 := hp.refs_eq_zero (hp.not_checkedOut (hfree ▸ mem_cons_self))
  have hcheckOut (added : List Address) : checkOut { p with
        freeList := rest ++ added
        freeCount := rest.length + added.length
        count := p.count + added.length
        length := p.lengths added } out = p.handsOut out rest added (p.lengths added) := by
    unfold checkOut handsOut signal
    rw [hout]
    generalize decide (rest.length + added.length ≤ p.config.lowWatermark ∧ ¬p.empty) = low
    cases low with
    | true | false => simp
  unfold allocBuffer
  rw [hfree]
  dsimp only
  rw [hcount]
  by_cases hrest : rest = []
  · have hempty : rest.length = 0 := length_eq_zero_iff.2 hrest
    obtain ⟨added,hgrow,hlength,hnodup,hunused⟩ :=
      grow_eq (p := { p with freeList := rest, freeCount := rest.length }) hrefs fresh
    refine ⟨added,?_,fun h => absurd hrest h,fun hmax => ?_,hnodup,hunused⟩
    · rw [if_pos hempty,hgrow]
      exact congrArg (·,some out) (hcheckOut added)
    · have hle := growItems_le hmax (hp.max hmax)
      exact Nat.le_trans (Nat.add_le_add_left hlength _) hle
  · refine ⟨[],?_,fun _ => rfl,hp.max,nodup_nil,fun _ h => absurd h not_mem_nil⟩
    rw [if_neg (mt length_eq_zero_iff.1 hrest),← hcheckOut []]
    simp

lemma handsOut_valid {out rest added length} (hp : p.Valid) (hfree : p.freeList = out :: rest)
    (hmax : p.config.maxCount ≠ 0 → p.count + added.length ≤ p.config.maxCount) (hnodup : added.Nodup)
    (hunused : ∀ a ∈ added, a ∉ p.buffers) : (p.handsOut out rest added length).Valid := by
  have hperm : (rest ++ added ++ (p.checkedOut ++ [out])).Perm (added ++ p.buffers) := by
    rw [buffers,hfree,perm_iff_count]
    simp only [count_append,count_cons,count_nil]
    omega
  refine ⟨length_append.symm,?_,hmax,?_,fun a => ?_⟩
  · have hcount := hp.count
    rw [hfree,length_cons] at hcount
    simp only [handsOut,length_append,length_cons,length_nil]
    omega
  · exact hperm.nodup_iff.2 (hnodup.append hp.nodup fun a ha hb => hunused a ha hb)
  · change a ∈ p.checkedOut ++ [out] ↔ 1 ≤ update p.refs out 1 a
    by_cases ha : a = out
    · simp [ha]
    · simp [ha,hp.refs a]

lemma addRef_valid (hp : p.Valid) (hout : a ∈ p.checkedOut) : (p.addRef a).Valid := by
  refine ⟨hp.freeCount,hp.count,hp.max,hp.nodup,fun b => ?_⟩
  change b ∈ p.checkedOut ↔ 1 ≤ update p.refs a (p.refs a + 1) b
  by_cases hb : b = a
  · simp [hb,hout]
  · simp [hb,hp.refs b]
def Pool.takesBack (p : Pool) (a : Address) : Pool :=
  let high : Bool := p.freeCount + 1 > p.config.highWatermark ∧ p.empty
  { p with
    freeList := p.freeList ++ [a]
    freeCount := p.freeCount + 1
    checkedOut := p.checkedOut.erase a
    empty := p.empty && !high
    refs := update p.refs a 0
    signals := p.signals ++ if high ∧ p.config.cb then [false] else [] }
lemma freeBuffer_last (h : p.refs a = 1) : p.freeBuffer a = p.takesBack a := by
  unfold freeBuffer takesBack signal
  simp only [h,sizeSub,Nat.le_refl,↓reduceIte,Nat.sub_self,ne_eq,not_true_eq_false]
  by_cases high : p.freeCount + 1 > p.config.highWatermark ∧ p.empty
  · rw [if_pos high,decide_eq_true high]
    simp
  · rw [if_neg high,decide_eq_false high]
    simp

lemma takesBack_valid (hp : p.Valid) (hout : a ∈ p.checkedOut) : (p.takesBack a).Valid := by
  have hperm : (p.freeList ++ [a] ++ p.checkedOut.erase a).Perm p.buffers := by
    rw [append_assoc]
    exact (perm_cons_erase hout).symm.append_left _
  have hnodup : p.checkedOut.Nodup := (nodup_append.1 hp.nodup).2.1
  refine ⟨?_,?_,hp.max,hperm.nodup_iff.2 hp.nodup,fun b => ?_⟩
  · simp [takesBack,hp.freeCount]
  · have hlength := length_erase_of_mem hout
    have hpos := length_pos_of_mem hout
    simp only [takesBack,length_append,length_cons,length_nil,hp.count]
    omega
  · change b ∈ p.checkedOut.erase a ↔ 1 ≤ update p.refs a 0 b
    rw [hnodup.mem_erase_iff]
    by_cases hb : b = a
    · simp [hb]
    · simp [hb,hp.refs b]

def Pool.drops (p : Pool) (a : Address) : Pool :=
  { p with refs := update p.refs a (p.refs a - 1) }
lemma freeBuffer_more (h : 1 < p.refs a) : p.freeBuffer a = p.drops a := by
  have hsub : sizeSub (p.refs a) 1 = p.refs a - 1 := if_pos (Nat.le_of_lt h)
  unfold freeBuffer
  rw [hsub,if_pos (by omega)]
  rfl
lemma drops_valid (hp : p.Valid) (hmore : 1 < p.refs a) : (p.drops a).Valid := by
  refine ⟨hp.freeCount,hp.count,hp.max,hp.nodup,fun b => ?_⟩
  change b ∈ p.checkedOut ↔ 1 ≤ update p.refs a (p.refs a - 1) b
  by_cases hb : b = a
  · simp only [hb,hp.refs a,update_self]
    omega
  · simp [hb,hp.refs b]
def Pool.movesTo (p : Pool) (a buf : Address) (size : ℕ) : Pool :=
  { p with
    checkedOut := p.checkedOut.erase a ++ [buf]
    refs := update (update p.refs a 0) buf (p.refs a)
    length := update p.length buf size }

lemma setSize_cases (p : Pool) (a : Address) (size : ℕ) (moved : Option ℕ) :
    p.setSize a size moved = (p,.error .notSupported) ∨
    p.setSize a size moved = ({ p with checkedOut := p.checkedOut.erase a ++ [a] },.error .outOfMemory) ∨
    ∃ block, moved = some block ∧ p.setSize a size moved = (p.movesTo a ⟨block,0⟩ size,.ok ⟨block,0⟩) := by
  unfold setSize
  cases hkind : p.kind with
  | fixed => exact .inl rfl
  | dynamic =>
    cases moved with
    | none => exact .inr (.inl rfl)
    | some block =>
      refine .inr (.inr ⟨block,rfl,?_⟩)
      simp [movesTo,hkind]

lemma relinks_valid (hp : p.Valid) (hout : a ∈ p.checkedOut) :
    Valid { p with checkedOut := p.checkedOut.erase a ++ [a] } := by
  have hperm : (p.checkedOut.erase a ++ [a]).Perm p.checkedOut :=
    perm_append_comm.trans (perm_cons_erase hout).symm
  refine ⟨hp.freeCount,?_,hp.max,(hperm.append_left _).nodup_iff.2 hp.nodup,fun b => ?_⟩
  · rw [hp.count]
    exact congrArg _ hperm.length_eq.symm
  · exact hperm.mem_iff.trans (hp.refs b)

lemma movesTo_valid {buf size} (hp : p.Valid) (hout : a ∈ p.checkedOut)
    (fresh : buf = a ∨ buf ∉ p.buffers) : (p.movesTo a buf size).Valid := by
  have hnodup : p.checkedOut.Nodup := (nodup_append.1 hp.nodup).2.1
  have hfree : buf ∉ p.freeList := by
    intro hmem
    rcases fresh with rfl | unused
    · exact hp.not_checkedOut hmem hout
    · exact unused (mem_append_left _ hmem)
  have hnew : buf ∉ p.checkedOut.erase a := by
    rw [hnodup.mem_erase_iff]
    rintro ⟨hne,hmem⟩
    rcases fresh with heq | unused
    · exact hne heq
    · exact unused (mem_append_right _ hmem)
  refine ⟨hp.freeCount,?_,hp.max,?_,fun b => ?_⟩
  · have hlength := length_erase_of_mem hout
    have hpos := length_pos_of_mem hout
    simp only [movesTo,length_append,length_cons,length_nil,hp.count]
    omega
  · have hsub : (p.freeList ++ p.checkedOut.erase a).Nodup :=
      hp.nodup.sublist (.append_left erase_sublist _)
    change (p.freeList ++ (p.checkedOut.erase a ++ [buf])).Nodup
    rw [← append_assoc]
    refine hsub.append (nodup_singleton _) fun b hb hb' => ?_
    rw [mem_singleton.1 hb'] at hb
    rcases mem_append.1 hb with h | h
    · exact hfree h
    · exact hnew h
  · change b ∈ p.checkedOut.erase a ++ [buf] ↔ 1 ≤ update (update p.refs a 0) buf (p.refs a) b
    have hrefs := (hp.refs a).1 hout
    rw [mem_append,hnodup.mem_erase_iff]
    by_cases hb : b = buf
    · simp [hb,hrefs]
    · by_cases ha : b = a
      · simp [ha,ha ▸ hb]
      · simp [hb,ha,hp.refs b]

lemma allocBuffer_spec (hp : p.Valid) (fresh : freshFor p.buffers memory) :
    p.allocBuffer memory = (p,none) ∨ ∃ p' out, p.allocBuffer memory = (p',some out) ∧ p'.Valid ∧ p.refs out = 0 ∧
      p'.refs = update p.refs out 1 := by
  cases hfree : p.freeList with
  | nil =>
    left
    rw [allocBuffer,hfree]
  | cons out =>
    obtain ⟨added,halloc,_,hmax,hnodup,hunused⟩ := allocBuffer_eq hp fresh hfree
    have hrefs := hp.refs_eq_zero (hp.not_checkedOut (hfree ▸ mem_cons_self))
    exact .inr ⟨_,out,halloc,handsOut_valid hp hfree hmax hnodup hunused,hrefs,rfl⟩
lemma freeBuffer_spec (hp : p.Valid) (live : 1 ≤ p.refs a) :
    (p.freeBuffer a).Valid ∧ (p.freeBuffer a).refs = update p.refs a (p.refs a - 1) := by
  by_cases last : p.refs a = 1
  · rw [freeBuffer_last last,last]
    exact ⟨takesBack_valid hp ((hp.refs a).2 live),rfl⟩
  · have hmore : 1 < p.refs a := by omega
    rw [freeBuffer_more hmore]
    exact ⟨drops_valid hp hmore,rfl⟩

/-- A resize fails and keeps all references, or moves them to a buffer without any. -/
theorem setSize_spec {moved} (size : ℕ) (hp : p.Valid) (live : 1 ≤ p.refs a) (fresh : freshMove p.buffers a moved) :
    (∃ p' e, p.setSize a size moved = (p',.error e) ∧ p'.Valid ∧ p'.refs = p.refs) ∨
    ∃ p' buf, p.setSize a size moved = (p',.ok buf) ∧ p'.Valid ∧ (buf = a ∨ p.refs buf = 0) ∧
      p'.refs = update (update p.refs a 0) buf (p.refs a) := by
  have hout := (hp.refs a).2 live
  rcases setSize_cases p a size moved with hset | hset | ⟨block,rfl,hset⟩
  · exact .inl ⟨_,_,hset,hp,rfl⟩
  · exact .inl ⟨_,_,hset,relinks_valid hp hout,rfl⟩
  · have hbuf : ⟨block,0⟩ = a ∨ ⟨block,0⟩ ∉ p.buffers := by simpa [freshMove] using fresh
    refine .inr ⟨_,_,hset,movesTo_valid hp hout hbuf,?_,rfl⟩
    exact hbuf.imp_right fun hnot => hp.refs_eq_zero fun hmem => hnot (mem_append_right _ hmem)

lemma prxBufferNew_spec {moved} (size : ℕ) (hp : p.Valid) (fresh : p.freshNew memory moved) :
    (∃ p', p.prxBufferNew size memory moved = (p',none) ∧ p'.Valid ∧ p'.refs = p.refs) ∨
    ∃ p' b, p.prxBufferNew size memory moved = (p',some b) ∧ p'.Valid ∧ p.refs b = 0 ∧ p'.refs = update p.refs b 1 := by
  unfold prxBufferNew
  rw [freshNew,Bool.and_eq_true] at fresh
  obtain ⟨fresh,move⟩ := fresh
  rcases allocBuffer_spec hp fresh with halloc | ⟨p₁,b,halloc,hp₁,hzero,hrefs⟩
  · rw [halloc]
    exact .inl ⟨p,rfl,hp,rfl⟩
  · have hone : p₁.refs b = 1 := by rw [hrefs,update_self]
    rw [halloc] at move ⊢
    dsimp only at ⊢
    rcases setSize_spec size hp₁ (Nat.le_of_eq hone.symm) move with
      ⟨p₂,e,hset,hp₂,hrefs₂⟩ | ⟨p₂,buf,hset,hp₂,hbuf,hrefs₂⟩
    · rw [hset]
      have hone₂ : p₂.refs b = 1 := by rw [hrefs₂,hone]
      obtain ⟨hvalid,hfree⟩ := freeBuffer_spec hp₂ (Nat.le_of_eq hone₂.symm)
      refine .inl ⟨_,rfl,hvalid,?_⟩
      rw [hfree,hone₂,hrefs₂,hrefs,update_idem,Nat.sub_self,← hzero,update_eq_self]
    · rw [hset]
      refine .inr ⟨_,buf,rfl,hp₂,?_,?_⟩
      · rcases hbuf with rfl | hbuf
        · exact hzero
        · by_cases heq : buf = b
          · rw [heq,hzero]
          · rwa [hrefs,update_of_ne heq] at hbuf
      · rw [hrefs₂,hone,hrefs,update_idem,← hzero,update_eq_self]

lemma poolCreate_eq {kind config itemSize} (fresh : freshFor [] memory)
    (h : poolCreate kind config itemSize memory = some p) :
    p.Valid ∧ p.config = .init config ∧ p.empty = false ∧ p.signals = [] ∧ ∀ a, p.refs a = 0 := by
  obtain ⟨_,hp⟩ := Option.ite_none_left_eq_some.1 h
  rw [← Option.some.inj hp]
  generalize hinit : mk kind (.init config) itemSize [] 0 [] 0 false (fun _ => 0) (fun _ => 0) [] = init
  obtain ⟨added,hgrow,hlength,hnodup,_⟩ := grow_eq (p := init) (fun a _ => by rw [← hinit]) fresh
  have hmax := growItems_le (p := init)
  rw [hgrow]
  subst hinit
  refine ⟨⟨by simp,by simp,fun hne => ?_,?_,fun a => ?_⟩,rfl,rfl,rfl,fun _ => rfl⟩
  · exact Nat.le_trans (Nat.add_le_add_left hlength _) (hmax hne (Nat.zero_le _))
  · simpa [buffers] using hnodup
  · simp

structure Lease where
  pool : Pool
  held : List Address

inductive PoolCall where
  | alloc (memory : List (Option ℕ))
  | addRef (a : Address)
  | release (a : Address)
  | resize (a : Address) (size : ℕ) (moved : Option ℕ)

/-- A call of a client, for a buffer with a reference that is not released; when a buffer moves, the references move
with it. -/
def Lease.step (s : Lease) : PoolCall → Option Lease
  | .alloc memory =>
    if freshFor s.pool.buffers memory then
      let (p,out) := s.pool.allocBuffer memory
      some { pool := p, held := s.held ++ out.toList }
    else none
  | .addRef a => if a ∈ s.held then some { pool := s.pool.addRef a, held := s.held ++ [a] } else none
  | .release a => if a ∈ s.held then some { pool := s.pool.freeBuffer a, held := s.held.erase a } else none
  | .resize a size moved =>
    if a ∈ s.held ∧ freshMove s.pool.buffers a moved then
      match s.pool.setSize a size moved with
      | (p,.error _) => some { s with pool := p }
      | (p,.ok buf) => some { pool := p, held := s.held.map fun b => if b = a then buf else b }
    else none

structure Lease.Valid (s : Lease) : Prop where
  pool : s.pool.Valid
  refs : ∀ a, s.pool.refs a = s.held.count a

variable {s t : Lease}

lemma Lease.Valid.held_iff (hs : s.Valid) : a ∈ s.held ↔ a ∈ s.pool.checkedOut := by
  rw [hs.pool.refs,hs.refs]
  exact one_le_count_iff.symm
lemma count_map_rename {buf} {held : List Address} (h : buf = a ∨ buf ∉ held) (c : Address) :
    (held.map fun b => if b = a then buf else b).count c = update (update (held.count ·) a 0) buf (held.count a) c := by
  induction held with
  | nil => simp
  | cons =>
    simp only [update_apply]
    grind

inductive Lease.Does (s : Lease) : Lease → Prop
  | stays : Does s s
  | handsOut {out : Address} {rest added : List Address} {length : Address → ℕ} :
      s.pool.freeList = out :: rest → (rest ≠ [] → added = []) →
      (s.pool.config.maxCount ≠ 0 → s.pool.count + added.length ≤ s.pool.config.maxCount) → added.Nodup →
      (∀ a ∈ added, a ∉ s.pool.buffers) → Does s ⟨s.pool.handsOut out rest added length,s.held ++ [out]⟩
  | addRef {a : Address} : a ∈ s.held → Does s ⟨s.pool.addRef a,s.held ++ [a]⟩
  | takesBack {a : Address} : a ∈ s.held → s.pool.refs a = 1 → Does s ⟨s.pool.takesBack a,s.held.erase a⟩
  | drops {a : Address} : a ∈ s.held → 1 < s.pool.refs a → Does s ⟨s.pool.drops a,s.held.erase a⟩
  | relinks {a : Address} : a ∈ s.held → Does s ⟨{ s.pool with checkedOut := s.pool.checkedOut.erase a ++ [a] },s.held⟩
  | movesTo {a buf : Address} {size : ℕ} : a ∈ s.held → buf = a ∨ buf ∉ s.pool.buffers →
      Does s ⟨s.pool.movesTo a buf size,s.held.map fun b => if b = a then buf else b⟩

lemma does_of_step {call} (hs : s.Valid) (hstep : s.step call = some t) : s.Does t := by
  cases call with
  | alloc memory =>
    obtain ⟨fresh,ht⟩ := Option.ite_none_right_eq_some.1 hstep
    have ht : t = ⟨(s.pool.allocBuffer memory).1,s.held ++ (s.pool.allocBuffer memory).2.toList⟩ :=
      (Option.some.inj ht).symm
    rw [ht]
    cases hfree : s.pool.freeList with
    | nil =>
      have halloc : s.pool.allocBuffer memory = (s.pool,none) := by
        rw [allocBuffer,hfree]
      rw [halloc,Option.toList_none,append_nil]
      exact .stays
    | cons =>
      obtain ⟨added,halloc,hgrow,hmax,hnodup,hunused⟩ := allocBuffer_eq hs.pool fresh hfree
      rw [halloc]
      exact .handsOut hfree hgrow hmax hnodup hunused
  | addRef =>
    obtain ⟨hheld,⟨⟩⟩ := Option.ite_none_right_eq_some.1 hstep
    exact .addRef hheld
  | release a =>
    obtain ⟨hheld,ht⟩ := Option.ite_none_right_eq_some.1 hstep
    have hrefs := (hs.pool.refs a).1 (hs.held_iff.1 hheld)
    cases ht
    by_cases last : s.pool.refs a = 1
    · rw [freeBuffer_last last]
      exact .takesBack hheld last
    · have hmore : 1 < s.pool.refs a := by omega
      rw [freeBuffer_more hmore]
      exact .drops hheld hmore
  | resize a size moved =>
    obtain ⟨⟨hheld,fresh⟩,ht⟩ := Option.ite_none_right_eq_some.1 hstep
    rcases setSize_cases s.pool a size moved with hset | hset | ⟨block,rfl,hset⟩ <;> rw [hset] at ht <;> cases ht
    · exact .stays
    · exact .relinks hheld
    · exact .movesTo hheld (by simpa [freshMove] using fresh)

lemma update_count_append (held : List Address) (a b : Address) :
    update (held.count ·) a (held.count a + 1) b = (held ++ [a]).count b := by
  by_cases hb : b = a
  · simp [hb]
  · simp [hb,Ne.symm hb]
lemma update_count_erase (held : List Address) (a b : Address) :
    update (held.count ·) a (held.count a - 1) b = (held.erase a).count b := by
  by_cases hb : b = a <;> simp [hb]

lemma Lease.Does.valid (hs : s.Valid) (h : s.Does t) : t.Valid := by
  have hrefs := funext hs.refs
  cases h with
  | stays => exact hs
  | @handsOut out rest added length hfree _ hmax hnodup hunused =>
    refine ⟨handsOut_valid hs.pool hfree hmax hnodup hunused,fun a => ?_⟩
    have hout := hs.pool.refs_eq_zero (hs.pool.not_checkedOut (hfree ▸ mem_cons_self))
    change update s.pool.refs out (0 + 1) a = _
    rw [← hout,hrefs]
    exact update_count_append s.held out a
  | @addRef a hheld =>
    refine ⟨addRef_valid hs.pool (hs.held_iff.1 hheld),fun b => ?_⟩
    change update s.pool.refs a (s.pool.refs a + 1) b = _
    rw [hrefs]
    exact update_count_append s.held a b
  | @takesBack a hheld hlast =>
    refine ⟨takesBack_valid hs.pool (hs.held_iff.1 hheld),fun b => ?_⟩
    change update s.pool.refs a 0 b = _
    rw [show 0 = s.pool.refs a - 1 by omega,hrefs]
    exact update_count_erase s.held a b
  | @drops a hheld hmore =>
    refine ⟨drops_valid hs.pool hmore,fun b => ?_⟩
    change update s.pool.refs a (s.pool.refs a - 1) b = _
    rw [hrefs]
    exact update_count_erase s.held a b
  | relinks hheld => exact ⟨relinks_valid hs.pool (hs.held_iff.1 hheld),hs.refs⟩
  | @movesTo a buf size hheld fresh =>
    refine ⟨movesTo_valid hs.pool (hs.held_iff.1 hheld) fresh,fun b => ?_⟩
    have hnew : buf = a ∨ buf ∉ s.held :=
      fresh.imp_right fun hnot hmem => hnot (mem_append_right _ (hs.held_iff.1 hmem))
    rw [count_map_rename hnew b,← hs.refs a,← hrefs]
    rfl

lemma Lease.Does.config (h : s.Does t) : t.pool.config = s.pool.config := by
  cases h <;> rfl
def Lease.handedOut (s : Lease) : PoolCall → Option Address
  | .alloc memory => (s.pool.allocBuffer memory).2
  | _ => none

lemma handedOut_not_held {call} (hs : s.Valid) (h : s.handedOut call = some a) : a ∉ s.held := by
  cases call with
  | alloc =>
    rw [Lease.handedOut,allocBuffer] at h
    cases hfree : s.pool.freeList with
    | nil => rw [hfree] at h; cases h
    | cons =>
      rw [hfree] at h
      cases h
      rw [hs.held_iff]
      exact hs.pool.not_checkedOut (hfree ▸ mem_cons_self)
  | _ => cases h

/-- A pool keeps its counts right and within its maximum, a buffer has the references that are held, and none that has
any is handed out. -/
theorem pool_valid_and_handedOut_free (kind : PoolKind) (config : Option PoolConfig) (itemSize : ℕ)
    (memory : List (Option ℕ)) {p : Pool} (fresh : freshFor [] memory)
    (created : poolCreate kind config itemSize memory = some p) (calls : List PoolCall) :
    Always Lease.step (fun s => s.pool.Valid ∧ (∀ a, s.pool.refs a = s.held.count a) ∧ s.pool.config = .init config)
      ⟨p,[]⟩ calls ∧
    Along Lease.step (fun s call => ∀ a, s.handedOut call = some a → a ∉ s.held) ⟨p,[]⟩ calls := by
  obtain ⟨hp,hconfig,_,_,hrefs⟩ := poolCreate_eq fresh created
  have hstart : Lease.Valid ⟨p,[]⟩ := ⟨hp,fun a => (hrefs a).trans count_nil.symm⟩
  constructor
  · have hstep {s t : Lease} {call : PoolCall} (hs : s.Valid ∧ s.pool.config = .init config) (_ : True)
        (ht : s.step call = some t) : t.Valid ∧ t.pool.config = .init config := by
      have hdoes := does_of_step hs.1 ht
      exact ⟨hdoes.valid hs.1,hdoes.config.trans hs.2⟩
    exact always_of_along hstep (fun hs => ⟨hs.1.pool,hs.1.refs,hs.2⟩) ⟨hstart,hconfig⟩ along_true
  · exact .of_invariant (fun hs _ ht => (does_of_step hs ht).valid hs) (fun hs _ _ h => handedOut_not_held hs h)
      hstart along_true

/-- A pool of at most three buffers hands out all of them, one of which is shared and moves, and takes one back. -/
theorem threeBuffers_valid : ∃ p, poolCreate .dynamic (some ⟨2,3,0,1,true⟩) 16 [some 0,some 1] = some p ∧
    let calls := [.alloc [],.addRef ⟨0,0⟩,.alloc [some 2,none],.resize ⟨0,0⟩ 64 (some 9),.alloc [],.alloc [],
      .release ⟨9,0⟩,.release ⟨9,0⟩,.alloc []]
    (run Lease.step ⟨p,[]⟩ calls).isSome ∧
    Always Lease.step (fun s => s.pool.Valid ∧ (∀ a, s.pool.refs a = s.held.count a) ∧
      s.pool.config = .init (some ⟨2,3,0,1,true⟩)) ⟨p,[]⟩ calls ∧
    Along Lease.step (fun s call => ∀ a, s.handedOut call = some a → a ∉ s.held) ⟨p,[]⟩ calls :=
  ⟨_,rfl,by decide,pool_valid_and_handedOut_free .dynamic _ 16 [some 0,some 1] (by decide) rfl _⟩

end EdgeProxy.Buffer
