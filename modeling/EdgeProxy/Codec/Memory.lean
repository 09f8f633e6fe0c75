import EdgeProxy.Codec.Abstract
import EdgeProxy.Codec.Mpack

/-! # The memory of a message

What storing content leaves in the memory of the message that is being decoded.
-/
namespace EdgeProxy.Codec

lemma toList_overlay {n} (old : Vector UInt8 n) (d : Bytes) (h : d.length ≤ n) :
    (overlay old d).toList = d ++ old.toList.drop d.length := by
  apply List.ext_getElem
  · simp
    omega
  · intro i hi hi'
    simp only [overlay]
    by_cases hd : i < d.length
    · simp [hd]
    · have hle := Nat.le_of_not_lt hd
      simp [List.getElem?_eq_none hle,List.getElem_append_right hle,Nat.add_sub_cancel' hle]

lemma fixedText_overlay {n} (old : Vector UInt8 n) (t : FixedText n) :
    fixedText (overlay old (t.1 ++ [0])) = some t := by
  have ht := t.2.2
  have hlist : (overlay old (t.1 ++ [0])).toList = t.1 ++ 0 :: old.toList.drop (t.1.length + 1) := by
    rw [toList_overlay old _ (by simp; omega)]
    simp
  have hmem : 0 ∈ (overlay old (t.1 ++ [0])).toList := by simp [hlist]
  rw [fixedText,dif_pos hmem]
  congr 1
  apply Subtype.ext
  change (overlay old (t.1 ++ [0])).toList.takeWhile (· ≠ 0) = t.1
  rw [hlist]
  exact takeWhile_terminated t.2.1 _

def Memory.bytes (mem : Memory) : Bytes :=
  (mem.buffer.map Block.bytes).getD []
def Memory.append (mem : Memory) (addr : ℕ) (d : Bytes) : Memory where
  buffer := some ⟨addr,mem.bytes ++ d⟩
  allocations := mem.allocations + 1
def Memory.tail (mem : Memory) (addr : ℕ) (d : Bytes) : Slice :=
  ⟨addr,mem.bytes.length,d.length⟩

open Memory

lemma Memory.read_append (mem : Memory) (addr : ℕ) (d : Bytes) :
    (mem.append addr d).read (mem.tail addr d) = some d := by
  simp [append,tail,read]
lemma Memory.read_append_append (mem : Memory) (addr addr' : ℕ) (d d' : Bytes) :
    ((mem.append addr d).append addr' d').read (mem.tail addr d) = if addr' = addr then some d else none := by
  split_ifs with h
  · simp [append,tail,read,h,bytes]
  · simp [append,tail,read,h]
lemma Memory.write_tail (mem : Memory) (addr : ℕ) (d : Bytes) :
    (mem.append addr (List.replicate d.length 0)).write (mem.tail addr (List.replicate d.length 0)) d =
      mem.append addr d := by
  simp [append,tail,write]

/-- What reading a buffer leaves behind: its content at the end of the buffer of the message, or nothing when it is
empty. -/
def Stored (place : ℕ → Option ℕ) (mem : Memory) (d : Bytes) (p : Option Slice) (mem' : Memory) : Prop :=
  (d = [] ∧ p = none ∧ mem' = mem) ∨
    (d ≠ [] ∧ ∃ addr, place mem.allocations = some addr ∧ p = some (mem.tail addr d) ∧ mem' = mem.append addr d)

variable {place : ℕ → Option ℕ}

lemma Stored.bufferValue {mem mem' d p} (h : Stored place mem d p mem') : bufferValue mem'.read p = some d := by
  rcases h with ⟨rfl,rfl,rfl⟩ | ⟨-,addr,-,rfl,rfl⟩
  · rfl
  · exact mem.read_append addr d
def moves (place : ℕ → Option ℕ) (mem : Memory) : Bool :=
  place (mem.allocations + 1) ≠ place mem.allocations

lemma Stored.bufferValue_after {mem₁ mem₂ d d' p q} (h : Stored place mem d p mem₁) (h' : Stored place mem₁ d' q mem₂) :
    Codec.bufferValue mem₂.read p = if moves place mem ∧ d ≠ [] ∧ d' ≠ [] then none else some d := by
  rcases h' with ⟨rfl,-,rfl⟩ | ⟨hd',addr',haddr',-,rfl⟩
  · simpa using h.bufferValue
  rcases h with ⟨rfl,rfl,rfl⟩ | ⟨hd,addr,haddr,rfl,rfl⟩
  · simp [Codec.bufferValue]
  have hmoves : moves place mem ↔ addr' ≠ addr := by
    have hnext : place (mem.allocations + 1) = some addr' := haddr'
    simp [moves,haddr,hnext]
  rw [Codec.bufferValue,read_append_append]
  by_cases ha : addr' = addr
  · rw [if_pos ha,if_neg (by rw [hmoves]; exact fun h => h.1 ha)]
  · rw [if_neg ha,if_pos ⟨hmoves.2 ha,hd,hd'⟩]

end EdgeProxy.Codec
