import EdgeProxy.Codec.Related
import EdgeProxy.Codec.Runs
import EdgeProxy.Lib.Framing

/-! # Member counts and the input

The MessagePack decoder counts the members of an object, but does not look at the count when the object is done. Every
object is read up to its end exactly if each announces the members that its decoder reads; a surplus is read as the next
member of the object around it.
-/
namespace EdgeProxy.Codec

open Base Lib Lib.MessagePack
open List hiding Vector

variable {lib : Library} {α β : Type}

section

/-- An object or array as it was read: the input at its first byte, the input after it, and the number of elements, with
the place holder of an object. -/
structure Extent where
  start : Bytes
  stop : Bytes
  held : ℕ

def Extent.Exact (lib : Library) (e : Extent) : Prop :=
  Frames lib 1 e.start e.stop
def Extent.Counted (lib : Library) (e : Extent) : Prop :=
  lib.announced e.start = e.held
instance (e : Extent) : Decidable (e.Counted lib) :=
  inferInstanceAs (Decidable (_ = _))
abbrev Traced := StateT (List Extent) Dec

def traced (x : Dec α) : Traced α :=
  fun log => do
    let a ← x
    pure (a,log)
def Allocator.untraced (allocator : Allocator Traced β) (log : List Extent) : Allocator Dec (β × List Extent) where
  null := (allocator.null,log)
  alloc size := do
    let store ← allocator.alloc size log
    pure fun d => store.1 d store.2

variable (lib)

def tracedReadObject (name : Option String) (object : Bool → Traced α) : Traced α :=
  fun log => do
    let start ← get
    mpackReadObject lib name fun isNull => do
      let first ← getIndex
      let a ← object isNull log
      let stop ← get
      pure (a.1,⟨start.input,stop.input,if isNull then 0 else first - stop.user.index + 1⟩ :: a.2)
def tracedReadArray (name : Option String) (array : ℕ → Traced α) : Traced α :=
  fun log => do
    let start ← get
    mpackReadArray lib name fun size => do
      let a ← array size log
      let stop ← get
      pure (a.1,⟨start.input,stop.input,size - stop.user.index⟩ :: a.2)

def tracedDecoder (place : ℕ → Option ℕ) : Decoder Traced Slice where
  codecId := .mpack
  decInt name := traced (mpackReadInteger lib name)
  decUint name := traced (mpackReadUinteger lib name)
  decBool name := traced (mpackReadBool lib name)
  decString name allocator := fun log => mpackReadString lib name (allocator.untraced log)
  decBin name allocator := fun log => mpackReadBin lib name (allocator.untraced log)
  decObject := tracedReadObject lib
  decTypeBegin := traced mpackReadTypeBegin
  decTypeEnd := traced mpackReadTypeEnd
  encTypeEnd := traced (pure ())
  decArray := tracedReadArray lib
  defaultAllocator :=
    { null := (ioMessageAllocator place).null
      alloc := fun size => traced do
        let store ← (ioMessageAllocator place).alloc size
        pure fun d => traced (store d) }

end

section

/-- If the objects that were read announce what was read, the input taken is as many items as the counter says; and they
do so exactly if they were read up to their ends. -/
structure Measured (lib : Library) (s t : Source UInt8 DecCtx) (log : List Extent) : Prop where
  index_le : t.user.index ≤ s.user.index
  frames : (∀ e ∈ log, e.Counted lib) → Frames lib (s.user.index - t.user.index) s.input t.input
  exact_iff : (∀ e ∈ log, e.Exact lib) ↔ ∀ e ∈ log, e.Counted lib

variable {s t u : Source UInt8 DecCtx} {log : List Extent}

lemma Measured.append {new} (h : Measured lib s t log) (h' : Measured lib t u new) : Measured lib s u (new ++ log) where
  index_le := h'.index_le.trans h.index_le
  frames hcounted := by
    have hlog := h.frames fun e he => hcounted e (mem_append_right new he)
    have hnew := h'.frames fun e he => hcounted e (mem_append_left log he)
    have hsum : s.user.index - u.user.index = s.user.index - t.user.index + (t.user.index - u.user.index) := by
      have := h.index_le
      have := h'.index_le
      omega
    rw [hsum]
    exact hlog.append hnew
  exact_iff := by
    simp only [forall_mem_append]
    exact and_congr h'.exact_iff h.exact_iff

lemma measured_nil (hindex : t.user.index ≤ s.user.index)
    (hframes : Frames lib (s.user.index - t.user.index) s.input t.input) : Measured lib s t [] where
  index_le := hindex
  frames _ := hframes
  exact_iff := ⟨fun _ => forall_mem_nil _,fun _ => forall_mem_nil _⟩
lemma measured_same (hindex : t.user.index = s.user.index) (hinput : t.input = s.input) : Measured lib s t [] := by
  apply measured_nil hindex.le
  rw [hindex,hinput,Nat.sub_self]
  exact .done _
lemma measured_one (hindex : 0 < s.user.index) (hnext : t.user.index = s.user.index - 1)
    (hframes : Frames lib 1 s.input t.input) : Measured lib s t [] := by
  apply measured_nil (by omega)
  rw [hnext,Nat.sub_sub_self hindex]
  exact hframes
lemma ok_traced_bind {x} {f : α → Traced β} {a log' r}
    (h : Ok (x log) s (a,log') t) (h' : Ok (f a log') t r u) : Ok ((x >>= f) log) s r u := by
  change Ok (x log >>= fun p => f p.1 p.2) s r u
  exact ok_bind.2 ⟨(a,log'),t,h,h'⟩

variable (lib) in
/-- Whenever the decoder succeeds, the decoder with a trace returns the same, and the trace measures the run. -/
def traces : ProgramRelation Stop Traced Dec where
  holds {α} x y := ∀ (s t : Source UInt8 DecCtx) (a : α) (log : List Extent), Ok y s a t →
    ∃ new, Ok (x log) s (a,new ++ log) t ∧ Measured lib s t new
  pure a s t b log h := by
    obtain ⟨rfl,rfl⟩ := ok_pure.1 h
    exact ⟨[],rfl,measured_same rfl rfl⟩
  throw e s t a log h := absurd h ok_throw
  bind hx hf s t b log h := by
    obtain ⟨a,u,hy,hg⟩ := ok_bind.1 h
    obtain ⟨new,hok,hmeasured⟩ := hx s u a log hy
    obtain ⟨new',hok',hmeasured'⟩ := hf a u t b (new ++ log) hg
    refine ⟨new' ++ new,?_,hmeasured.append hmeasured'⟩
    rw [append_assoc]
    exact ok_traced_bind hok hok'

variable (hl : lib.Framed)

lemma ok_traced {x} {a : α} (h : Ok x s a t) : Ok (traced x log) s (a,log) t :=
  ok_bind.2 ⟨a,t,h,rfl⟩
lemma traces_traced {x : Dec α} (h : ∀ s a t, Ok x s a t → Measured lib s t []) : (traces lib).holds (traced x) x :=
  fun s t a _ hok => ⟨[],ok_traced hok,h s a t hok⟩

lemma traces_unit : (traces lib).holds (traced (pure ())) (pure ()) := by
  refine traces_traced fun s _ t h => ?_
  cases (ok_pure.1 h).2
  exact measured_same rfl rfl
lemma measured_read {read} {a : α}
    (hread : ∀ {b r v}, read b = .ok (v,r) → ∃ head, lib.readObject b = .ok (head,r) ∧ head.extent = some (0,0))
    (h : Ok (mpackReadBegin >>= fun _ => cmpRead read) s a t) : Measured lib s t [] := by
  obtain ⟨_,_,hbegin,h⟩ := ok_bind.1 h
  obtain ⟨hindex,rfl⟩ := ok_mpackReadBegin.1 hbegin
  obtain ⟨r,hok,rfl⟩ := ok_cmpRead.1 h
  obtain ⟨head,hobject,hextent⟩ := hread hok
  exact measured_one hindex rfl (frames_plain hobject hextent)
def Allocator.Quiet (allocator : Allocator Dec β) : Prop :=
  ∀ {size s store u}, Ok (allocator.alloc size) s store u → u.input = s.input ∧ u.user.index = s.user.index ∧
    ∀ {d s b t}, Ok (store d) s b t → t.input = s.input ∧ t.user.index = s.user.index

structure Allocator.Traces (allocator : Allocator Traced β) (plain : Allocator Dec β) : Prop where
  null : allocator.null = plain.null
  alloc : ∀ {size s store u} log, Ok (plain.alloc size) s store u → ∃ store',
    Ok (allocator.alloc size log) s (store',log) u ∧ ∀ {d s b t}, Ok (store d) s b t → Ok (store' d log) s (b,log) t

variable {allocator : Allocator Traced β} {plain : Allocator Dec β}

lemma traces_stored {size limit} {f : List UInt8 → List UInt8} {b} (hquiet : plain.Quiet) (h : allocator.Traces plain)
    (hok : Ok (do let store ← plain.alloc size; let d ← cmpStreamRead limit; store (f d)) s b t) :
    Ok (do let store ← (allocator.untraced log).alloc size; let d ← cmpStreamRead limit; store (f d)) s (b,log) t ∧
      t.user.index = s.user.index ∧ limit ≤ s.input.length ∧ t.input = s.input.drop limit := by
  simp only [ok_bind,ok_cmpStreamRead] at hok
  obtain ⟨store,u,halloc,_,_,⟨hlen,rfl,rfl⟩,hstore⟩ := hok
  obtain ⟨hinput,hcount,hquiet⟩ := hquiet halloc
  obtain ⟨store',halloc',hstore'⟩ := h.alloc log halloc
  obtain ⟨hinput',hcount'⟩ := hquiet hstore
  rw [hcount',hinput',← hinput]
  simp only [ok_bind,ok_cmpStreamRead]
  exact ⟨⟨fun d => store' d log,u,ok_bind.2 ⟨_,u,halloc',rfl⟩,_,_,⟨hlen,rfl,rfl⟩,hstore' hstore⟩,hcount,hlen,rfl⟩

include hl in
lemma traces_string (name : Option String) (hquiet : plain.Quiet) (h : allocator.Traces plain) :
    (traces lib).holds (fun log => mpackReadString lib name (allocator.untraced log))
      (mpackReadString lib name plain) := by
  intro s t b log hok
  obtain ⟨_,_,hbegin,hok⟩ := ok_bind.1 hok
  obtain ⟨_,_,hsize,hok⟩ := ok_bind.1 hok
  obtain ⟨hindex,rfl⟩ := ok_mpackReadBegin.1 hbegin
  obtain ⟨_,hread,rfl⟩ := ok_cmpRead.1 hsize
  obtain ⟨hok,hcount,hlen,hinput⟩ := traces_stored hquiet h hok
  refine ⟨[],ok_bind.2 ⟨_,_,hbegin,ok_bind.2 ⟨_,_,hsize,hok⟩⟩,measured_one hindex hcount ?_⟩
  rw [hinput]
  exact frames_content (hl.strSize hread) rfl hlen

include hl in
lemma traces_bin (name : Option String) (hquiet : plain.Quiet) (h : allocator.Traces plain) :
    (traces lib).holds (fun log => mpackReadBin lib name (allocator.untraced log)) (mpackReadBin lib name plain) := by
  intro s t b log hok
  obtain ⟨_,_,hbegin,hok⟩ := ok_bind.1 hok
  obtain ⟨_,_,hsize,hok⟩ := ok_bind.1 hok
  obtain ⟨hindex,rfl⟩ := ok_mpackReadBegin.1 hbegin
  obtain ⟨_,hread,rfl⟩ := ok_cmpRead.1 hsize
  split_ifs at hok with hzero
  · obtain ⟨rfl,rfl⟩ := hok
    refine ⟨[],ok_bind.2 ⟨_,_,hbegin,ok_bind.2 ⟨_,_,hsize,?_⟩⟩,
      measured_one hindex rfl (frames_plain (hl.binSize hread) (by rw [hzero]; rfl))⟩
    rw [if_pos hzero,← h.null]
    rfl
  · obtain ⟨hok,hcount,hlen,hinput⟩ := traces_stored hquiet h hok
    refine ⟨[],ok_bind.2 ⟨_,_,hbegin,ok_bind.2 ⟨_,_,hsize,by rwa [if_neg hzero]⟩⟩,measured_one hindex hcount ?_⟩
    rw [hinput]
    exact frames_content (hl.binSize hread) rfl hlen

lemma quiet_fixedValidator {n} (old : Vector UInt8 n) : (fixedValidator old : Allocator Dec _).Quiet := by
  intro size s store u h
  unfold fixedValidator at h
  dsimp only at h
  split_ifs at h
  · obtain ⟨rfl,rfl⟩ := ok_pure.1 h
    refine ⟨rfl,rfl,?_⟩
    intro d s b t h
    dsimp only at h
    split_ifs at h
    · obtain ⟨-,rfl⟩ := ok_pure.1 h
      exact ⟨rfl,rfl⟩
    · exact absurd h ok_throw
  · exact absurd h ok_throw

lemma traces_fixedValidator {n} (old : Vector UInt8 n) :
    (fixedValidator old : Allocator Traced _).Traces (fixedValidator old) where
  null := rfl
  alloc {size s store u} log h := by
    unfold fixedValidator at h ⊢
    dsimp only at h ⊢
    split_ifs at h ⊢
    · obtain ⟨rfl,rfl⟩ := ok_pure.1 h
      refine ⟨_,rfl,?_⟩
      intro d s b t h
      dsimp only at h
      split_ifs at h ⊢
      · obtain ⟨rfl,rfl⟩ := ok_pure.1 h
        rfl
      · exact absurd h ok_throw
    · exact absurd h ok_throw

lemma quiet_modifyMemory {f a} (h : Ok (modifyMemory f) s a t) : t.input = s.input ∧ t.user.index = s.user.index := by
  cases ok_modify.1 h
  exact ⟨rfl,rfl⟩

lemma quiet_ioMessageAllocateBuffer {place size p}
    (h : Ok (ioMessageAllocateBuffer place size) s p t) : t.input = s.input ∧ t.user.index = s.user.index := by
  unfold ioMessageAllocateBuffer at h
  split_ifs at h
  · obtain ⟨-,rfl⟩ := ok_pure.1 h
    exact ⟨rfl,rfl⟩
  · obtain ⟨_,_,hget,hplace⟩ := ok_bind.1 h
    obtain ⟨rfl,rfl⟩ := ok_get.1 hget
    dsimp only at hplace
    split at hplace
    · exact absurd hplace ok_throw
    · obtain ⟨_,_,hmodify,hreturn⟩ := ok_bind.1 hplace
      obtain ⟨-,rfl⟩ := ok_pure.1 hreturn
      exact quiet_modifyMemory hmodify

lemma quiet_ioMessageAllocator (place : ℕ → Option ℕ) : (ioMessageAllocator place).Quiet := by
  intro size s store u h
  obtain ⟨p,v,halloc,h⟩ := ok_bind.1 h
  have hquiet := quiet_ioMessageAllocateBuffer halloc
  cases p with
  | none =>
    obtain ⟨rfl,rfl⟩ := ok_pure.1 h
    exact ⟨hquiet.1,hquiet.2,fun h => absurd h ok_throw⟩
  | some =>
    obtain ⟨rfl,rfl⟩ := ok_pure.1 h
    refine ⟨hquiet.1,hquiet.2,?_⟩
    intro d s b t h
    obtain ⟨_,_,hmodify,h⟩ := ok_bind.1 h
    obtain ⟨-,rfl⟩ := ok_pure.1 h
    exact quiet_modifyMemory hmodify

lemma traces_ioMessageAllocator (place : ℕ → Option ℕ) :
    (tracedDecoder lib place).defaultAllocator.Traces (ioMessageAllocator place) where
  null := rfl
  alloc _ h := ⟨_,ok_traced (ok_bind.2 ⟨_,_,h,rfl⟩),ok_traced⟩

lemma measured_null {r new} (hindex : 0 < s.user.index)
    (hread : lib.readObject s.input = .ok (.nil,r)) (h : Measured lib (moved s r 0) u new) :
    Measured lib s (moved u u.input (s.user.index - 1)) (⟨s.input,u.input,0⟩ :: new) := by
  have hcounted : Extent.Counted lib ⟨s.input,u.input,0⟩ := by
    simp [Extent.Counted,Library.announced,hread]
  have hframes : (∀ e ∈ new, e.Counted lib) → Frames lib 1 s.input u.input := by
    intro hnew
    have hrest := h.frames hnew
    rw [moved_index,Nat.zero_sub] at hrest
    exact (frames_plain hread rfl).append hrest
  refine ⟨Nat.sub_le _ _,?_,?_⟩
  · intro hall
    rw [moved_index,Nat.sub_sub_self hindex]
    exact hframes (forall_mem_of_forall_mem_cons hall)
  · rw [forall_mem_cons,forall_mem_cons,h.exact_iff]
    exact ⟨fun hall => ⟨hcounted,hall.2⟩,fun hall => ⟨hframes hall.2,hall.2⟩⟩

include hl in
/-- An array of which the first `held` elements were read. -/
theorem measured_array {size r held new} (hindex : 0 < s.user.index)
    (hread : lib.readObject s.input = .ok (.array size,r)) (hheld : held ≤ size.toNat)
    (hframes : (∀ e ∈ new, e.Counted lib) → Frames lib held r u.input)
    (hexact : (∀ e ∈ new, e.Exact lib) ↔ ∀ e ∈ new, e.Counted lib) :
    Measured lib s (moved u u.input (s.user.index - 1)) (⟨s.input,u.input,held⟩ :: new) := by
  have hiff : (∀ e ∈ new, e.Counted lib) →
      (Extent.Exact lib ⟨s.input,u.input,held⟩ ↔ Extent.Counted lib ⟨s.input,u.input,held⟩) := by
    intro hnew
    simp only [Extent.Exact,Extent.Counted,Library.announced,hread]
    rw [frames_array hread]
    exact (hframes hnew).iff_of_le hl hheld
  refine ⟨Nat.sub_le _ _,?_,?_⟩
  · intro hall
    rw [forall_mem_cons] at hall
    rw [moved_index,Nat.sub_sub_self hindex]
    exact (hiff hall.2).2 hall.1
  · rw [forall_mem_cons,forall_mem_cons,hexact]
    exact ⟨fun hall => ⟨(hiff hall.2).1 hall.1,hall.2⟩,fun hall => ⟨(hiff hall.2).2 hall.1,hall.2⟩⟩

include hl in
lemma traces_object (name : Option String) {object} {object' : Bool → Dec α}
    (h : ∀ isNull, (traces lib).holds (object isNull) (object' isNull)) :
    (traces lib).holds (tracedReadObject lib name object) (mpackReadObject lib name object') := by
  intro s t a log hok
  obtain ⟨hindex,u,rfl,⟨r,hread,hbody⟩ | ⟨size,r,r',hread,hsize,hnil,hbody⟩⟩ := ok_mpackReadObject.1 hok
  · obtain ⟨new,hok,hmeasured⟩ := h true _ _ _ log hbody
    refine ⟨⟨s.input,u.input,0⟩ :: new,?_,measured_null hindex hread hmeasured⟩
    refine ok_bind.2 ⟨s,s,ok_get.2 ⟨rfl,rfl⟩,ok_mpackReadObject.2 ⟨hindex,u,rfl,.inl ⟨r,hread,?_⟩⟩⟩
    exact ok_bind.2 ⟨_,_,rfl,ok_bind.2 ⟨_,u,hok,rfl⟩⟩
  · obtain ⟨new,hok,hmeasured⟩ := h false _ _ _ log hbody
    refine ⟨⟨s.input,u.input,size.toNat - 1 - u.user.index + 1⟩ :: new,?_,
      measured_array hl hindex hread (by omega) ?_ hmeasured.exact_iff⟩
    · refine ok_bind.2 ⟨s,s,ok_get.2 ⟨rfl,rfl⟩,ok_mpackReadObject.2 ⟨hindex,u,rfl,.inr ⟨size,r,r',hread,hsize,hnil,?_⟩⟩⟩
      exact ok_bind.2 ⟨_,_,rfl,ok_bind.2 ⟨_,u,hok,rfl⟩⟩
    · intro hnew
      rw [Nat.add_comm]
      exact (frames_plain (hl.nil hnil) rfl).append (hmeasured.frames hnew)

include hl in
lemma traces_array (name : Option String) {array} {array' : ℕ → Dec α}
    (h : ∀ size, (traces lib).holds (array size) (array' size)) :
    (traces lib).holds (tracedReadArray lib name array) (mpackReadArray lib name array') := by
  intro s t a log hok
  obtain ⟨hindex,size,r,u,hread,hbody,rfl⟩ := ok_mpackReadArray.1 hok
  obtain ⟨new,hok,hmeasured⟩ := h size.toNat _ _ _ log hbody
  refine ⟨⟨s.input,u.input,size.toNat - u.user.index⟩ :: new,?_,
    measured_array hl hindex (hl.array hread) (Nat.sub_le _ _) hmeasured.frames hmeasured.exact_iff⟩
  refine ok_bind.2 ⟨s,s,ok_get.2 ⟨rfl,rfl⟩,ok_mpackReadArray.2 ⟨hindex,size,r,u,hread,?_,rfl⟩⟩
  exact ok_bind.2 ⟨_,u,hok,rfl⟩

include hl in
lemma tracedDecoder_related (place : ℕ → Option ℕ) :
    (tracedDecoder lib place).Related (traces lib) (mpackDecoder lib place) where
  codecId := ⟨rfl,rfl⟩
  decInt _ := traces_traced fun _ _ _ => measured_read hl.integer
  decUint _ := traces_traced fun _ _ _ => measured_read hl.uinteger
  decBool _ := traces_traced fun _ _ _ => measured_read hl.bool
  stringFixed name old := traces_string hl name (quiet_fixedValidator old) (traces_fixedValidator old)
  stringDefault name := traces_string hl name (quiet_ioMessageAllocator place) (traces_ioMessageAllocator place)
  binFixed name old := traces_bin hl name (quiet_fixedValidator old) (traces_fixedValidator old)
  binDefault name := traces_bin hl name (quiet_ioMessageAllocator place) (traces_ioMessageAllocator place)
  decObject := traces_object hl
  decTypeBegin := traces_unit
  decTypeEnd := traces_unit
  encTypeEnd := traces_unit
  decArray := traces_array hl

end

/-- Every object of a message is read up to its end exactly if it announces as many members as its decoder reads. -/
theorem strict_iff_counted (hl : lib.Framed) {place : ℕ → Option ℕ} {stale : Property Slice} {old msg : IoMessage Slice}
    {s t : Source UInt8 DecCtx} (hok : Ok (decodeMessageObject (mpackDecoder lib place) stale old) s msg t) :
    ∃ log, Ok (decodeMessageObject (tracedDecoder lib place) stale old []) s (msg,log) t ∧
      ((∀ e ∈ log, e.Exact lib) ↔ ∀ e ∈ log, e.Counted lib) := by
  obtain ⟨log,htraced,hmeasured⟩ := (tracedDecoder_related hl place).decodeMessageObject stale old s t msg [] hok
  rw [append_nil] at htraced
  exact ⟨log,htraced,hmeasured.exact_iff⟩

def wireId (b : UInt8) : Bytes :=
  0xc4 :: 16 :: List.replicate 16 b
def closeRequestInput : Bytes :=
  [0x99,0xc0,0xce,0x00,0x02,0x01,0x00] ++ ([0x92,0xc0] ++ wireId 0x01) ++ ([0x92,0xc0] ++ wireId 0x02) ++
    ([0x92,0xc0] ++ wireId 0x03) ++ [0x00,0xc2,0x15,0xc0]

theorem closeRequestInput_strict :
    ∃ msg t log, Ok (decodeMessageObject (mpackDecoder format fun _ => some 0) .zero .zero)
      ⟨closeRequestInput,⟨1,⟨none,0⟩⟩⟩ msg t ∧
      Ok (decodeMessageObject (tracedDecoder format fun _ => some 0) .zero .zero [])
        ⟨closeRequestInput,⟨1,⟨none,0⟩⟩⟩ (msg,log) t ∧
      (∀ e ∈ log, e.Counted format) ∧ ∀ e ∈ log, e.Exact format := by
  obtain ⟨msg,t,hok,-⟩ := ok_of_checkRun (x := decodeMessageObject (mpackDecoder format fun _ => some 0) .zero .zero)
    (s := ⟨closeRequestInput,⟨1,⟨none,0⟩⟩⟩) (p := fun _ _ => true) (by decide +kernel)
  obtain ⟨log,htraced,hiff⟩ := strict_iff_counted format_framed hok
  obtain ⟨r,t',hrun,hcheck⟩ := ok_of_checkRun
    (x := decodeMessageObject (tracedDecoder format fun _ => some 0) .zero .zero [])
    (s := ⟨closeRequestInput,⟨1,⟨none,0⟩⟩⟩) (p := fun r _ => r.2.all fun e => e.Counted format) (by decide +kernel)
  obtain ⟨rfl,rfl⟩ := hrun.det htraced
  have hcounted : ∀ e ∈ log, e.Counted format := by simpa using hcheck
  exact ⟨msg,_,log,hok,htraced,hcounted,hiff.2 hcounted⟩

def surplusMemberInput : Bytes :=
  [0x99,0xc0,0xce,0x00,0x02,0x01,0x00] ++ ([0x93,0xc0] ++ wireId 0x01 ++ ([0x92,0xc0] ++ wireId 0xaa)) ++
    ([0x92,0xc0] ++ wireId 0x02) ++ [0x00,0xc2,0x15,0xc0,0xc0]

/-- A surplus member of the source id is taken for the proxy id, and the proxy id for the target id. -/
theorem surplusMember_not_strict : Frames format 1 surplusMemberInput [] ∧
    ∃ msg t log, Ok (decodeMessageObject (mpackDecoder format fun _ => some 0) .zero .zero)
      ⟨surplusMemberInput,⟨1,⟨none,0⟩⟩⟩ msg t ∧
      Ok (decodeMessageObject (tracedDecoder format fun _ => some 0) .zero .zero [])
        ⟨surplusMemberInput,⟨1,⟨none,0⟩⟩⟩ (msg,log) t ∧
      msg.proxyId.u8 = .replicate 16 0xaa ∧ msg.targetId.u8 = .replicate 16 0x02 ∧ ¬∀ e ∈ log, e.Exact format := by
  refine ⟨frames_of_skip 20 (by decide +kernel),?_⟩
  obtain ⟨msg,t,hok,hids⟩ := ok_of_checkRun (x := decodeMessageObject (mpackDecoder format fun _ => some 0) .zero .zero)
    (s := ⟨surplusMemberInput,⟨1,⟨none,0⟩⟩⟩)
    (p := fun msg _ => msg.proxyId.u8 = .replicate 16 0xaa ∧ msg.targetId.u8 = .replicate 16 0x02) (by decide +kernel)
  obtain ⟨log,htraced,hmeasured⟩ :=
    (tracedDecoder_related format_framed fun _ => some 0).decodeMessageObject .zero .zero _ t msg [] hok
  obtain ⟨r,t',hrun,hcheck⟩ := ok_of_checkRun
    (x := decodeMessageObject (tracedDecoder format fun _ => some 0) .zero .zero [])
    (s := ⟨surplusMemberInput,⟨1,⟨none,0⟩⟩⟩) (p := fun r _ => !r.2.all fun e => e.Counted format) (by decide +kernel)
  rw [append_nil] at htraced
  obtain ⟨rfl,rfl⟩ := hrun.det htraced
  have hids := of_decide_eq_true hids
  refine ⟨msg,_,log,hok,htraced,hids.1,hids.2,fun hexact => ?_⟩
  have hcounted : (log.all fun e => e.Counted format) := by simpa using hmeasured.exact_iff.1 hexact
  rw [hcounted] at hcheck
  cases hcheck

end EdgeProxy.Codec
