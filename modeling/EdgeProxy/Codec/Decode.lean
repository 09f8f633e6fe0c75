import EdgeProxy.Codec.Memory
import EdgeProxy.Codec.Runs
import EdgeProxy.Codec.Wire

/-! # Reading items

A reader takes exactly the bytes of some items, whatever follows them, and counts them off in the member counter of its
context. The readers of the MessagePack codec do for every library that reads back what it writes.
-/
namespace EdgeProxy.Codec

open Lib Lib.MessagePack Item Nat Blob
open List hiding Vector

variable {lib : Library} {α β : Type}

def Reads (lib : Library) (m : Dec α) (items : List Item) (mem : Memory) (a : α) (mem' : Memory) : Prop :=
  ∀ k, Consumes m (Item.serList lib items) ⟨k + items.length,mem⟩ a ⟨k,mem'⟩
lemma consumes_get (f : Source UInt8 DecCtx → Dec α) {b s s' a}
    (h : ∀ rest, Ok (f ⟨b ++ rest,s⟩) ⟨b ++ rest,s⟩ a ⟨rest,s'⟩) : Consumes (get >>= f) b s a s' := by
  intro rest
  exact h rest
lemma consumes_cmpRead {read b} {a : α}
    (h : ∀ rest, read (b ++ rest) = .ok (a,rest)) (s : DecCtx) : Consumes (cmpRead read) b s a s := by
  refine consumes_get _ fun rest => ?_
  simp only [h]
  rfl
lemma consumes_cmpStreamRead (d : Bytes) (s : DecCtx) : Consumes (cmpStreamRead d.length) d s d s := by
  refine consumes_get _ fun rest => ?_
  simp only [length_append,le_add_right,drop_left,take_left]
  rfl

lemma consumes_readBegin (k : ℕ) (mem : Memory) : Consumes mpackReadBegin [] ⟨k + 1,mem⟩ () ⟨k,mem⟩ := by
  intro rest
  rfl
def Fills (allocator : Allocator Dec β) (size : ℕ) (d : Bytes) (mem : Memory) (p : β) (mem' : Memory) : Prop :=
  ∀ k, ∃ store mem₁, Consumes (allocator.alloc size) [] ⟨k,mem⟩ store ⟨k,mem₁⟩ ∧
    Consumes (store d) [] ⟨k,mem₁⟩ p ⟨k,mem'⟩

variable {m : Dec α} {f : α → Dec β} {is js : List Item} {mem mem₁ mem₂ : Memory} {a : α} {b : β}

lemma reads_pure (a : α) (mem : Memory) : Reads lib (pure a) [] mem a mem := by
  intro k
  exact consumes_pure a (DecCtx.mk k mem)
lemma Reads.bind (h : Reads lib m is mem a mem₁) (h' : Reads lib (f a) js mem₁ b mem₂) :
    Reads lib (m >>= f) (is ++ js) mem b mem₂ := by
  intro k
  rw [serList_append,length_append,add_comm is.length,← add_assoc]
  exact (h (k + js.length)).bind (h' k)

lemma reads_single {i} (h : ∀ k, Consumes m (i.ser lib) ⟨k + 1,mem⟩ a ⟨k,mem₁⟩) : Reads lib m [i] mem a mem₁ := by
  intro k
  simpa using h k
def Decodes (lib : Library) (m : Dec α) (items : List Item) (mem : Memory) (P : α → Memory → Prop) : Prop :=
  ∃ a mem', Reads lib m items mem a mem' ∧ P a mem'
def Fails (lib : Library) (m : Dec α) (items : List Item) (mem : Memory) : Prop :=
  ∀ k rest a t, ¬Ok m ⟨Item.serList lib items ++ rest,⟨k + items.length,mem⟩⟩ a t

variable {P : α → Memory → Prop} {Q : β → Memory → Prop} {i : Item}

lemma Decodes.imp {P'} (h : Decodes lib m is mem P) (hP : ∀ a mem', P a mem' → P' a mem') :
    Decodes lib m is mem P' := by
  obtain ⟨a,mem',hr,hp⟩ := h
  exact ⟨a,mem',hr,hP a mem' hp⟩
lemma Reads.item (h : Reads lib m [i] mem a mem₁) (h' : Decodes lib (f a) js mem₁ Q) :
    Decodes lib (m >>= f) (i :: js) mem Q := by
  obtain ⟨b,mem₂,hr,hq⟩ := h'
  exact ⟨b,mem₂,h.bind hr,hq⟩
lemma Decodes.item (h : Decodes lib m [i] mem P) (h' : ∀ a mem', P a mem' → Decodes lib (f a) js mem' Q) :
    Decodes lib (m >>= f) (i :: js) mem Q := by
  obtain ⟨a,mem₁,hr,hp⟩ := h
  exact hr.item (h' a mem₁ hp)
lemma Reads.item_fails (h : Reads lib m [i] mem a mem₁) (h' : Fails lib (f a) js mem₁) :
    Fails lib (m >>= f) (i :: js) mem := by
  intro k rest b u hok
  obtain ⟨a',t,hm,hf⟩ := ok_bind.1 hok
  have hm' := h (k + js.length) (serList lib js ++ rest)
  simp only [serList_cons,append_assoc] at hm hm'
  obtain ⟨rfl,rfl⟩ := hm.det hm'
  exact h' k rest b u hf
lemma Decodes.item_fails (h : Decodes lib m [i] mem P) (h' : ∀ a mem', P a mem' → Fails lib (f a) js mem') :
    Fails lib (m >>= f) (i :: js) mem := by
  obtain ⟨a,mem₁,hr,hp⟩ := h
  exact hr.item_fails (h' a mem₁ hp)
lemma Fails.bind (h : Fails lib m [i] mem) : Fails lib (m >>= f) (i :: js) mem := by
  intro k rest b u hok
  obtain ⟨a,t,hm,-⟩ := ok_bind.1 hok
  refine h (k + js.length) (serList lib js ++ rest) a t ?_
  simpa [add_assoc] using hm
def Opens (lib : Library) (m : Dec α) (i : Item) (body : Dec α) (is : List Item) (mem : Memory) : Prop :=
  ∀ k rest a t, Ok m ⟨Item.serList lib [i] ++ rest,⟨k + 1,mem⟩⟩ a t ↔
    ∃ u, Ok body ⟨Item.serList lib is ++ rest,⟨is.length,mem⟩⟩ a u ∧ t = moved u u.input k
lemma Opens.decodes {body} (h : Opens lib m i body is mem) (hbody : Decodes lib body is mem P) :
    Decodes lib m [i] mem P := by
  obtain ⟨a,mem',hr,hp⟩ := hbody
  refine ⟨a,mem',fun k rest => (h k rest a _).2 ⟨⟨rest,⟨0,mem'⟩⟩,?_,rfl⟩,hp⟩
  simpa using hr 0 rest
lemma Opens.fails {body} (h : Opens lib m i body is mem) (hbody : Fails lib body is mem) : Fails lib m [i] mem := by
  intro k rest a t hok
  obtain ⟨u,hu,-⟩ := (h k rest a t).1 hok
  exact hbody 0 rest a u (by simpa using hu)

section

variable (hl : lib.ReadsBack) (place : ℕ → Option ℕ) (name : Option String) (mem : Memory)
include hl

lemma reads_uint (v : UInt64) : Reads lib ((mpackDecoder lib place).decUint name) [.uint v] mem v mem :=
  reads_single fun k => (consumes_readBegin k mem).bind_nil
    (consumes_cmpRead (fun rest => by exact hl.uinteger v rest) _)
lemma reads_bool (v : Bool) : Reads lib ((mpackDecoder lib place).decBool name) [.bool v] mem v mem :=
  reads_single fun k => (consumes_readBegin k mem).bind_nil
    (consumes_cmpRead (fun rest => by exact hl.bool v rest) _)

lemma reads_int32 (v : Int32) : Reads lib ((mpackDecoder lib place).decodeInt32 name) [int32 v] mem v mem := by
  have hint : Reads lib ((mpackDecoder lib place).decInt name) [int32 v] mem v.toInt64 mem :=
    reads_single fun k => (consumes_readBegin k mem).bind_nil
      (consumes_cmpRead (fun rest => by exact hl.integer v.toInt64 rest) _)
  refine hint.bind ?_
  simpa using reads_pure v mem
lemma reads_narrow {f} (v : UInt64) {a : α} (hf : f v = pure a) :
    Reads lib ((mpackDecoder lib place).decUint name >>= f) [.uint v] mem a mem := by
  refine (reads_uint hl place name mem v).bind ?_
  simpa [hf] using reads_pure a mem

/-- The reader of binary content asks for memory unless the content is empty. -/
theorem reads_bin (allocator : Allocator Dec β) (d : Bytes) (p : β) (mem' : Memory)
    (hnil : castLength d = [] → p = allocator.null ∧ mem' = mem)
    (hfill : castLength d ≠ [] → Fills allocator (truncate32 d).size.toNat (castLength d) mem p mem') :
    Reads lib ((mpackDecoder lib place).decBin name allocator) [bin d] mem p mem' := by
  refine reads_single fun k => ?_
  have hlen : (truncate32 d).size.toNat = (castLength d).length := size_toNat _
  have hser : (bin d).ser lib = lib.writeBinMarker (truncate32 d).size ++ castLength d := by
    rfl
  rw [hser]
  refine (consumes_readBegin k mem).bind_nil ((consumes_cmpRead (hl.binSize _) _).bind ?_)
  by_cases h : castLength d = []
  · obtain ⟨rfl,rfl⟩ := hnil h
    have hz : (truncate32 d).size = 0 := UInt32.toNat_inj.1 (by rw [hlen,h]; rfl)
    rw [if_pos hz,h]
    exact consumes_pure _ _
  · have hz : (truncate32 d).size ≠ 0 := fun hz => h (eq_nil_of_length_eq_zero (by rw [← hlen,hz]; rfl))
    obtain ⟨store,mem₁,ha,hs⟩ := hfill h k
    rw [if_neg hz]
    refine ha.bind_nil ?_
    rw [hlen]
    simpa using (consumes_cmpStreamRead (castLength d) _).bind hs

lemma reads_string (allocator : Allocator Dec β) (t : Bytes) (p : β) (mem' : Memory)
    (hfill : Fills allocator ((truncate32 t).size + 1).toNat (castLength t ++ [0]) mem p mem') :
    Reads lib ((mpackDecoder lib place).decString name allocator) [str t] mem p mem' := by
  refine reads_single fun k => ?_
  have hlen : (truncate32 t).size.toNat = (castLength t).length := size_toNat _
  have hser : (str t).ser lib = lib.writeStrMarker (truncate32 t).size ++ castLength t := by
    rfl
  rw [hser]
  refine (consumes_readBegin k mem).bind_nil ((consumes_cmpRead (hl.strSize _) _).bind ?_)
  obtain ⟨store,mem₁,ha,hs⟩ := hfill k
  refine ha.bind_nil ?_
  rw [hlen]
  simpa using Consumes.bind (f := fun d => store (d ++ [0])) (consumes_cmpStreamRead (castLength t) _) hs

lemma opens_object (body : Bool → Dec α) {members} (hlen : members.length + 1 < 2 ^ 32) :
    Opens lib ((mpackDecoder lib place).decObject name body) (obj members) (body false) members mem := by
  intro k rest a t
  have hser : serList lib [obj members] ++ rest =
      lib.writeArray (.ofNat (members.length + 1)) ++ (lib.writeNil ++ (serList lib members ++ rest)) := by
    simp [obj,ser]
  have hsize : (UInt32.ofNat (members.length + 1)).toNat = members.length + 1 := by
    rw [UInt32.toNat_ofNat',mod_eq_of_lt hlen]
  rw [hser]
  refine (consumes_readBegin k mem).ok_bind.trans ((consumes_cmpRead (hl.objectArray _) _).ok_bind.trans ?_)
  refine ok_nested_iff.trans (exists_congr fun u => and_congr_left fun _ => ?_)
  rw [hsize]
  exact (consumes_readBegin _ mem).ok_bind.trans (consumes_cmpRead hl.nil _).ok_bind

lemma opens_null (body : Bool → Dec α) :
    Opens lib ((mpackDecoder lib place).decObject name body) .nil (body true) [] mem := by
  intro k rest a t
  have hser : serList lib [.nil] ++ rest = lib.writeNil ++ rest := by simp [ser]
  rw [hser]
  refine (consumes_readBegin k mem).ok_bind.trans ((consumes_cmpRead hl.objectNil _).ok_bind.trans ?_)
  exact ok_nested_iff
lemma opens_array (body : ℕ → Dec α) {items} (hlen : items.length < 2 ^ 32) :
    Opens lib ((mpackDecoder lib place).decArray name body) (.arr items) (body items.length) items mem := by
  intro k rest a t
  have hser : serList lib [.arr items] ++ rest =
      lib.writeArray (.ofNat items.length) ++ (serList lib items ++ rest) := by
    simp [ser]
  have hsize : (UInt32.ofNat items.length).toNat = items.length := by
    rw [UInt32.toNat_ofNat',mod_eq_of_lt hlen]
  rw [hser]
  refine (consumes_readBegin k mem).ok_bind.trans ((consumes_cmpRead (hl.array _) _).ok_bind.trans ?_)
  rw [hsize]
  exact ok_nested_iff

end

section

lemma fills_fixed {n} (old : Vector UInt8 n) (size : ℕ) (d : Bytes) (mem : Memory) (hsize : size ≤ n)
    (hd : d.length ≤ n) : Fills (fixedValidator old) size d mem (overlay old d) mem := by
  refine fun k => ⟨fun d => if d.length ≤ n then pure (overlay old d) else throw .undefined,mem,?_,?_⟩
  · simp only [fixedValidator,hsize]
    exact consumes_pure _ _
  · simp only [hd]
    exact consumes_pure _ _

variable (hl : lib.ReadsBack) (place : ℕ → Option ℕ) (name : Option String) (mem : Memory)
include hl

lemma reads_binFixed {n} (old v : Vector UInt8 n) (hn : n < 2 ^ 32) (hpos : n ≠ 0) :
    Reads lib ((mpackDecoder lib place).decodeBinFixed name old) [bin v.toList] mem v mem := by
  have hcast : castLength v.toList = v.toList := castLength_of_lt (by simpa using hn)
  refine reads_bin hl place name mem _ v.toList v mem ?_ ?_
  · intro h
    rw [hcast] at h
    exact absurd (by simpa using congrArg List.length h) hpos
  · intro _
    have hfill := fills_fixed old (truncate32 v.toList).size.toNat v.toList mem
      (by rw [size_toNat]; simp [truncate32,hcast]) (by simp)
    rw [overlay_toList] at hfill
    rwa [hcast]
lemma reads_stringFixed {n} (old : Vector UInt8 n) (t : FixedText n) (hn : n < 2 ^ 32) :
    Reads lib ((mpackDecoder lib place).decodeStringFixed name old) [str t.1] mem (overlay old (t.1 ++ [0])) mem := by
  have ht := t.2.2
  have hcast : castLength t.1 = t.1 := castLength_of_lt (by omega)
  have hsize : ((truncate32 t.1).size + 1).toNat = t.1.length + 1 := by
    have : (truncate32 t.1).size.toNat = t.1.length := by rw [size_toNat]; simp [truncate32,hcast]
    rw [UInt32.toNat_add,this]
    exact mod_eq_of_lt (by simp; omega)
  refine reads_string hl place name mem _ t.1 _ mem ?_
  rw [hcast]
  exact fills_fixed old _ _ mem (by omega) (by simp; omega)

end

lemma consumes_allocate (place : ℕ → Option ℕ) (size k : ℕ) (mem : Memory) (addr : ℕ)
    (hplace : place mem.allocations = some addr) (hpos : size ≠ 0) :
    Consumes (ioMessageAllocateBuffer place size) [] ⟨k,mem⟩
      (some (mem.tail addr (List.replicate size 0))) ⟨k,mem.append addr (List.replicate size 0)⟩ := by
  unfold ioMessageAllocateBuffer
  rw [if_neg hpos]
  refine consumes_get _ fun rest => ?_
  simp only [hplace,Memory.tail,length_replicate]
  rfl
lemma fills_message (place : ℕ → Option ℕ) (size : ℕ) (d : Bytes) (mem : Memory) (addr : ℕ)
    (hplace : place mem.allocations = some addr) (hsize : size = d.length) (hd : d ≠ []) :
    Fills (ioMessageAllocator place) size d mem (some (mem.tail addr d)) (mem.append addr d) := by
  have hpos : size ≠ 0 := by
    rw [hsize]
    exact fun h => hd (eq_nil_of_length_eq_zero h)
  have hptr : mem.tail addr (.replicate size 0) = mem.tail addr d := by
    simp [Memory.tail,hsize]
  refine fun k => ⟨_,_,(consumes_allocate place _ k mem addr hplace hpos).bind_nil (consumes_pure _ _),?_⟩
  intro rest
  rw [← Memory.write_tail mem addr d,← hptr,hsize]
  rfl

lemma fails_string (hl : lib.ReadsBack) (place : ℕ → Option ℕ) (name : Option String) (mem : Memory)
    (t : Text) (h : t.Wraps) : Fails lib ((mpackDecoder lib place).decodeStringDefault name) [str t.1] mem := by
  intro k rest a u hok
  have hser : serList lib [str t.1] ++ rest = lib.writeStrMarker (truncate32 t.1).size ++ (castLength t.1 ++ rest) := by
    simp only [str,serList_cons,ser,append_assoc]
    rfl
  have hsize : ((truncate32 t.1).size + 1).toNat = 0 := by
    have hlen : (truncate32 t.1).size.toNat = (castLength t.1).length := size_toNat _
    rw [UInt32.toNat_add,hlen]
    change ((castLength t.1).length + 1) % 2 ^ 32 = 0
    rw [show (castLength t.1).length + 1 = 2 ^ 32 from h,mod_self]
  rw [hser] at hok
  obtain ⟨_,_,hbegin,hok⟩ := ok_bind.1 hok
  obtain ⟨-,rfl⟩ := hbegin.det (consumes_readBegin k mem _)
  obtain ⟨_,_,hread,hok⟩ := ok_bind.1 hok
  obtain ⟨rfl,rfl⟩ := hread.det (consumes_cmpRead (hl.strSize _) _ _)
  obtain ⟨store,_,halloc,hok⟩ := ok_bind.1 hok
  obtain ⟨_,_,hnull,halloc⟩ := ok_bind.1 halloc
  rw [hsize] at hnull
  cases hnull
  obtain ⟨rfl,rfl⟩ := ok_pure.1 halloc
  obtain ⟨_,_,-,hok⟩ := ok_bind.1 hok
  exact ok_throw hok

variable {place : ℕ → Option ℕ}

lemma decodes_binDefault (hl : lib.ReadsBack) (name : Option String) (mem : Memory) (d : Bytes)
    (hplace : ∀ n, (place n).isSome) :
    Decodes lib ((mpackDecoder lib place).decodeBinDefault name) [bin d] mem (Stored place mem (castLength d)) := by
  obtain ⟨addr,haddr⟩ := Option.isSome_iff_exists.1 (hplace mem.allocations)
  by_cases hd : castLength d = []
  · exact ⟨none,mem,reads_bin hl place name mem _ d _ _ (fun _ => ⟨rfl,rfl⟩) fun h => absurd hd h,.inl ⟨hd,rfl,rfl⟩⟩
  · refine ⟨_,_,reads_bin hl place name mem _ d _ _ (fun h => absurd h hd) fun _ =>
      fills_message place _ _ mem addr haddr (size_toNat _) hd,.inr ⟨hd,addr,haddr,rfl,rfl⟩⟩
lemma decodes_stringDefault (hl : lib.ReadsBack) (name : Option String) (mem : Memory) (t : Text)
    (hplace : ∀ n, (place n).isSome) (ht : ¬t.Wraps) :
    Decodes lib ((mpackDecoder lib place).decodeStringDefault name) [str t.1] mem
      fun p mem' => ∃ s, p = some s ∧ mem'.read s = some (t.cut.1 ++ [0]) := by
  obtain ⟨addr,haddr⟩ := Option.isSome_iff_exists.1 (hplace mem.allocations)
  have hsize : ((truncate32 t.1).size + 1).toNat = (castLength t.1 ++ [0]).length := by
    have hlen : (truncate32 t.1).size.toNat = (castLength t.1).length := size_toNat _
    have hlt := length_castLength_lt t.1
    rw [UInt32.toNat_add,hlen,length_append]
    exact mod_eq_of_lt (by unfold Text.Wraps at ht; change _ + 1 < _; omega)
  exact ⟨_,_,reads_string hl place name mem _ t.1 _ _ (fills_message place _ _ mem addr haddr hsize (by simp)),
    _,rfl,mem.read_append addr _⟩

end EdgeProxy.Codec
