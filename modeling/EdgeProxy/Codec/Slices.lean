import EdgeProxy.Codec.Memory
import EdgeProxy.Codec.Runs

/-! # Slices of the message buffer

Calls of `io_message_allocate_buffer` while one message is decoded, each followed by storing content. The slices all
point into one buffer, which the pool may move when it grows.
-/
namespace EdgeProxy.Codec
open Lib

variable {place : ℕ → Option ℕ} {mem mem' : Memory}

def storeContent (place : ℕ → Option ℕ) (d : Bytes) : Dec (Option Slice) := do
  let p ← ioMessageAllocateBuffer place d.length
  if let some q := p then modifyMemory fun mem => mem.write q d
  return p
def storeAll (place : ℕ → Option ℕ) : List Bytes → Dec (List (Option Slice))
  | [] => pure []
  | d :: ds => do
    let p ← storeContent place d
    return p :: (← storeAll place ds)
def Memory.addr (mem : Memory) : Option ℕ :=
  mem.buffer.map Block.addr

/-- The buffer only grows, and is where it was put last. -/
def Extends (place : ℕ → Option ℕ) (mem mem' : Memory) : Prop :=
  mem.bytes <+: mem'.bytes ∧ mem.allocations ≤ mem'.allocations ∧
    mem'.addr = if mem.allocations = mem'.allocations then mem.addr else place (mem'.allocations - 1)

variable {d : Bytes} {s t : Source UInt8 DecCtx}

lemma Stored.extends {p} (h : Stored place mem d p mem') : Extends place mem mem' := by
  rcases h with ⟨-,-,rfl⟩ | ⟨-,addr,hplace,-,rfl⟩
  · exact ⟨List.prefix_refl _,le_rfl,(if_pos rfl).symm⟩
  · exact ⟨⟨d,rfl⟩,Nat.le_succ _,((if_neg (Nat.ne_of_lt (Nat.lt_succ_self _))).trans hplace).symm⟩

/-- In a buffer that has grown, a slice reads as before exactly if the buffer is still at its address. -/
theorem Extends.read_iff (h : Extends place mem mem') {p} (hread : mem.read p = some d) :
    mem'.read p = some d ↔ mem'.addr = some p.addr := by
  obtain ⟨⟨e,he⟩,-⟩ := h
  unfold Memory.read Memory.addr at *
  rcases mem with ⟨_ | b,n⟩
  · cases hread
  rcases mem' with ⟨_ | b',n'⟩
  · simp
  · have he : b.bytes ++ e = b'.bytes := he
    dsimp only at hread ⊢
    split_ifs at hread
    cases hread
    by_cases haddr : b'.addr = p.addr
    · rw [← he,if_pos ⟨haddr,by simp; omega⟩]
      simp [haddr,List.drop_append_of_le_length (show p.off ≤ b.bytes.length by omega),
        List.take_append_of_le_length (show p.len ≤ (b.bytes.drop p.off).length by simp; omega)]
    · simp [haddr]

lemma ok_storeContent {p} (h : Ok (storeContent place d) s p t) : Stored place s.user.memory d p t.user.memory := by
  unfold storeContent ioMessageAllocateBuffer at h
  by_cases hd : d = []
  · subst hd
    cases h
    exact .inl ⟨rfl,rfl,rfl⟩
  · have hlen : ¬d.length = 0 := fun h => hd (List.eq_nil_of_length_eq_zero h)
    rw [if_neg hlen] at h
    simp only [ok_bind] at h
    obtain ⟨p',u,⟨_,s,⟨rfl,rfl⟩,halloc⟩,h⟩ := h
    split at halloc
    · exact absurd halloc ok_throw
    · rename_i addr haddr
      cases halloc
      cases h
      refine .inr ⟨hd,addr,haddr,by simp [Memory.tail,Memory.bytes],?_⟩
      rw [← Memory.write_tail]
      rfl

lemma storeAll_extends {ds ps} (h : Ok (storeAll place ds) s ps t) : Extends place s.user.memory t.user.memory := by
  induction ds generalizing s ps with
  | nil =>
    obtain ⟨-,rfl⟩ := ok_pure.1 h
    exact ⟨List.prefix_refl _,le_rfl,(if_pos rfl).symm⟩
  | cons d ds ih =>
    obtain ⟨p,u,hstore,h⟩ := ok_bind.1 h
    obtain ⟨ps',u',hrest,h⟩ := ok_bind.1 h
    obtain ⟨-,rfl⟩ := ok_pure.1 h
    obtain ⟨hbytes,hle,haddr⟩ := (ok_storeContent hstore).extends
    obtain ⟨hbytes',hle',haddr'⟩ := ih hrest
    exact ⟨hbytes.trans hbytes',hle.trans hle',by grind⟩

/-- Every slice still reads its content after the run exactly if the buffer never moved. -/
theorem slices_valid_iff {ds : List Bytes} {ps : List (Option Slice)}
    (h : Ok (storeAll place ds) s ps t) :
    List.Forall₂ (fun d p => bufferValue t.user.memory.read p = some d) ds ps ↔
      ∀ n, s.user.memory.allocations ≤ n → n < t.user.memory.allocations →
        place n = place s.user.memory.allocations := by
  induction ds generalizing s ps with
  | nil =>
    obtain ⟨rfl,rfl⟩ := ok_pure.1 h
    exact ⟨fun _ n hn hn' => absurd hn (Nat.not_le_of_lt hn'),fun _ => .nil⟩
  | cons d ds ih =>
    obtain ⟨p,u,hstore,h⟩ := ok_bind.1 h
    obtain ⟨ps',u',hrest,h⟩ := ok_bind.1 h
    obtain ⟨rfl,rfl⟩ := ok_pure.1 h
    have hgrown := storeAll_extends hrest
    rw [List.forall₂_cons,ih hrest]
    rcases ok_storeContent hstore with ⟨rfl,rfl,hmem⟩ | ⟨-,addr,hplace,rfl,hmem⟩
    · rw [hmem]
      exact and_iff_right rfl
    · have hread : u.user.memory.read (s.user.memory.tail addr d) = some d := by
        rw [hmem]
        exact s.user.memory.read_append addr d
      have hnext : u.user.memory.allocations = s.user.memory.allocations + 1 := by
        rw [hmem]
        rfl
      have haddr : u.user.memory.addr = some addr := by
        rw [hmem]
        rfl
      have ⟨_,hlast,hat⟩ := hgrown
      rw [haddr,← hplace,hnext] at hat
      rw [show bufferValue t.user.memory.read (some (s.user.memory.tail addr d)) =
        t.user.memory.read (s.user.memory.tail addr d) from rfl,hgrown.read_iff hread,hnext]
      change _ = some addr ∧ _ ↔ _
      rw [← hplace]
      constructor
      · rintro ⟨hsame,hmore⟩ n hn hn'
        grind
      · intro hall
        grind

/-- The pool puts the buffer at a new address each time it grows. -/
theorem twoSlices_invalid :
    ∃ ps t, Ok (storeAll some [[1],[2]]) ⟨[],⟨0,⟨none,0⟩⟩⟩ ps t ∧
      ¬List.Forall₂ (fun d p => bufferValue t.user.memory.read p = some d) [[1],[2]] ps := by
  refine ⟨_,_,rfl,?_⟩
  decide

theorem twoSlices_valid :
    List.Forall₂ (fun d p => bufferValue (Memory.read ⟨some ⟨7,[1,2]⟩,2⟩) p = some d) [[1],[2]]
      [some ⟨7,0,1⟩,some ⟨7,1,1⟩] := by
  have hrun : Ok (storeAll (fun _ => some 7) [[1],[2]]) ⟨[],⟨0,⟨none,0⟩⟩⟩ [some ⟨7,0,1⟩,some ⟨7,1,1⟩]
    ⟨[],⟨0,⟨some ⟨7,[1,2]⟩,2⟩⟩⟩ := rfl
  exact (slices_valid_iff hrun).2 fun _ _ _ => rfl

end EdgeProxy.Codec
