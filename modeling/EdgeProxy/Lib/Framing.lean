import EdgeProxy.Lib.MessagePack

/-! # Framing of MessagePack input

Where the items at the front of some input end. A head says how much content and how many further items belong to its
item, so the frame of an item is found without knowing its meaning.
-/
namespace EdgeProxy.Lib.MessagePack

/-- The bytes of content and the number of items that belong to an item with this head; `none` where the head does not
say. -/
def Head.extent : Head → Option (ℕ × ℕ)
  | .nil | .bool _ | .uint _ | .int _ => some (0,0)
  | .str len | .bin len => some (len.toNat,0)
  | .array len => some (0,len.toNat)
  | .map len => some (0,2 * len.toNat)
  | .other => none

inductive Frames (lib : Library) : ℕ → Bytes → Bytes → Prop where
  | done (b : Bytes) : Frames lib 0 b b
  | item {n size count : ℕ} {b r e : Bytes} {head : Head} (hread : lib.readObject b = .ok (head,r))
      (hextent : head.extent = some (size,count)) (hsize : size ≤ r.length)
      (hrest : Frames lib (n + count) (r.drop size) e) : Frames lib (n + 1) b e

def Library.announced (lib : Library) (b : Bytes) : ℕ :=
  match lib.readObject b with
  | .ok (.array len,_) => len.toNat
  | _ => 0

structure Library.Framed (lib : Library) : Prop where
  shorter : ∀ {b r head}, lib.readObject b = .ok (head,r) → r.length < b.length
  integer : ∀ {b r v}, lib.readInteger b = .ok (v,r) →
    ∃ head, lib.readObject b = .ok (head,r) ∧ head.extent = some (0,0)
  uinteger : ∀ {b r v}, lib.readUinteger b = .ok (v,r) →
    ∃ head, lib.readObject b = .ok (head,r) ∧ head.extent = some (0,0)
  bool : ∀ {b r v}, lib.readBool b = .ok (v,r) → ∃ head, lib.readObject b = .ok (head,r) ∧ head.extent = some (0,0)
  nil : ∀ {b r v}, lib.readNil b = .ok (v,r) → lib.readObject b = .ok (.nil,r)
  strSize : ∀ {b r n}, lib.readStrSize b = .ok (n,r) → lib.readObject b = .ok (.str n,r)
  binSize : ∀ {b r n}, lib.readBinSize b = .ok (n,r) → lib.readObject b = .ok (.bin n,r)
  array : ∀ {b r n}, lib.readArray b = .ok (n,r) → lib.readObject b = .ok (.array n,r)

variable {lib : Library} {n k : ℕ} {b c e r : Bytes} {head : Head}

lemma Frames.append (h : Frames lib n b c) (h' : Frames lib k c e) : Frames lib (n + k) b e := by
  induction h with
  | done => simpa using h'
  | @item n size count b r c head hread hextent hsize _ ih =>
    rw [Nat.add_right_comm]
    refine .item hread hextent hsize ?_
    rw [Nat.add_right_comm]
    exact ih h'
lemma Frames.rest (h : Frames lib n b c) (h' : Frames lib (n + k) b e) : Frames lib k c e := by
  induction h with
  | done => simpa using h'
  | @item n size count b r c head hread hextent hsize _ ih =>
    rw [Nat.add_right_comm] at h'
    cases h' with
    | item hread' hextent' _ hrest' =>
      cases hread.symm.trans hread'
      cases hextent.symm.trans hextent'
      apply ih
      rw [Nat.add_right_comm]
      exact hrest'

lemma frames_plain (hread : lib.readObject b = .ok (head,r)) (hextent : head.extent = some (0,0)) : Frames lib 1 b r :=
  .item hread hextent (Nat.zero_le _) (.done r)
lemma frames_content {size : ℕ} (hread : lib.readObject b = .ok (head,r)) (hextent : head.extent = some (size,0))
    (hsize : size ≤ r.length) : Frames lib 1 b (r.drop size) :=
  .item hread hextent hsize (.done _)

lemma frames_array {len : UInt32} (hread : lib.readObject b = .ok (.array len,r)) :
    Frames lib 1 b e ↔ Frames lib len.toNat r e := by
  constructor
  · intro h
    cases h with
    | item hread' hextent _ hrest =>
      cases hread.symm.trans hread'
      cases hextent
      simpa using hrest
  · intro h
    refine .item hread rfl (Nat.zero_le _) ?_
    simpa using h
lemma Frames.length_le (hl : lib.Framed) (h : Frames lib n b e) : e.length + n ≤ b.length := by
  induction h with
  | done => exact Nat.le_refl _
  | item hread _ _ _ ih =>
    have hshorter := hl.shorter hread
    rw [List.length_drop] at ih
    omega
lemma Frames.iff_of_le (hl : lib.Framed) (h : Frames lib n b e) (hle : n ≤ k) : Frames lib k b e ↔ k = n := by
  obtain ⟨j,rfl⟩ := Nat.exists_eq_add_of_le hle
  constructor
  · intro h'
    have hlen := (h.rest h').length_le hl
    omega
  · intro hj
    rw [hj]
    exact h
def Library.skip (lib : Library) : ℕ → ℕ → Bytes → Option Bytes
  | _, 0, b => some b
  | 0, _ + 1, _ => none
  | fuel + 1, n + 1, b => do
    let (head,r) ← (lib.readObject b).toOption
    let (size,count) ← head.extent
    if size ≤ r.length then lib.skip fuel (n + count) (r.drop size) else none

lemma frames_of_skip (fuel : ℕ) (h : lib.skip fuel n b = some e) : Frames lib n b e := by
  induction fuel generalizing n b with
  | zero =>
    cases n with
    | zero =>
      cases h
      exact .done _
    | succ => cases h
  | succ fuel ih =>
    cases n with
    | zero =>
      cases h
      exact .done _
    | succ =>
      simp only [Library.skip,bind,Option.bind_eq_some_iff] at h
      obtain ⟨⟨head,r⟩,hread,⟨size,count⟩,hextent,h⟩ := h
      split_ifs at h with hsize
      refine .item ?_ hextent hsize (ih h)
      cases hobject : lib.readObject b with
      | error =>
        rw [hobject] at hread
        cases hread
      | ok =>
        rw [hobject] at hread
        cases hread
        rfl

lemma sized_shorter {k : ℕ} {f : ℕ → Head} (h : sized k f b = .ok (head,r)) : r.length ≤ b.length := by
  unfold sized readBe at h
  split_ifs at h
  · cases h
    rw [List.length_drop]
    exact Nat.sub_le _ _
  · cases h
lemma readTagged_shorter {tag : ℕ} (h : readTagged b tag = .ok (head,r)) : r.length ≤ b.length := by
  unfold readTagged at h
  split at h
  all_goals first
    | exact sized_shorter h
    | cases h
      exact Nat.le_refl _
lemma readHead_shorter (h : readHead b = .ok (head,r)) : r.length < b.length := by
  cases b with
  | nil => cases h
  | cons =>
    simp only [readHead] at h
    rw [List.length_cons,Nat.lt_succ_iff]
    split_ifs at h
    all_goals first
      | exact readTagged_shorter h
      | cases h
        exact Nat.le_refl _

lemma head_of_readAs {α : Type} {select : Head → Option α} {a : α} (h : readAs select b = .ok (a,r)) :
    ∃ head, readHead b = .ok (head,r) ∧ select head = some a := by
  unfold readAs at h
  cases hread : readHead b with
  | error =>
    rw [hread] at h
    cases h
  | ok p =>
    rw [hread] at h
    cases hselect : select p.1 with
    | none =>
      simp only [Except.bind,hselect] at h
      cases h
    | some =>
      simp only [Except.bind,hselect] at h
      cases h
      exact ⟨p.1,rfl,hselect⟩

lemma plain_of_readAs {α : Type} {select : Head → Option α} {a : α}
    (hselect : ∀ head, select head = some a → head.extent = some (0,0)) (h : readAs select b = .ok (a,r)) :
    ∃ head, readHead b = .ok (head,r) ∧ head.extent = some (0,0) := by
  obtain ⟨head,hread,hhead⟩ := head_of_readAs h
  exact ⟨head,hread,hselect head hhead⟩
lemma readHead_of_readAs {α : Type} {select : Head → Option α} {a : α} {head : Head}
    (hselect : ∀ head', select head' = some a → head' = head) (h : readAs select b = .ok (a,r)) :
    readHead b = .ok (head,r) := by
  obtain ⟨head',hread,hhead⟩ := head_of_readAs h
  rw [← hselect head' hhead]
  exact hread
lemma format_framed : format.Framed where
  shorter := readHead_shorter
  integer := plain_of_readAs fun head h => by cases head <;> first | rfl | cases h
  uinteger := plain_of_readAs fun head h => by cases head <;> first | rfl | cases h
  bool := plain_of_readAs fun head h => by cases head <;> first | rfl | cases h
  nil := readHead_of_readAs fun head h => by cases head <;> first | rfl | cases h
  strSize := readHead_of_readAs fun head h => by cases head <;> cases h; rfl
  binSize := readHead_of_readAs fun head h => by cases head <;> cases h; rfl
  array := readHead_of_readAs fun head h => by cases head <;> cases h; rfl

end EdgeProxy.Lib.MessagePack
