import EdgeProxy.Codec.Decode
import EdgeProxy.Codec.DecodeMessage
import EdgeProxy.Codec.Encode
import EdgeProxy.Codec.Json

/-! # The JSON codec writes and reads documents

Both halves of the JSON codec follow its format: what is read back is the message, with its 64-bit numbers rounded, for
any library that gives back the values and the binary content it is given.
-/
namespace EdgeProxy.Codec

open Base Lib Json.WellFormed Option
open List hiding Vector

variable {τ : Type}

def JsonLibrary.Sound (lib : JsonLibrary τ) : Json → Prop :=
  Json.WellFormed (fun s => lib.accepts s ∧ 0 ∉ s) fun q => ∃ z, q = toDouble z

/-- Parson parses the text of a value to the value, and base64 decodes what it encoded. -/
structure JsonLibrary.Preserves (lib : JsonLibrary τ) : Prop where
  parse : ∀ {v}, lib.Sound v → ∃ text, lib.serialize v = some text ∧ lib.parse text = some v
  base64 : ∀ {d s}, d ≠ [] → lib.base64Encode d = some s → s ≠ [] ∧ 0 ∉ s ∧ lib.base64Decode s = some d

variable (lib : JsonLibrary τ)

/-- Binary content that base64 does not encode has no sound value. -/
def jsonBin (d : Bytes) : Json :=
  if d = [] then .string [] else .string ((lib.base64Encode d).getD [0])

def jsonFormat : Format Json where
  null := .null
  bool := .bool
  int v := .number (toDouble v.toInt)
  uint v := .number (toDouble v.toNat)
  str := .string
  bin := jsonBin lib
  ref r := .string (ioRefToSTRING r)
  obj := .object
  arr := .array

/-- A 64-bit number is rounded to 53 significant bits, and does not arrive if that takes it out of its range. -/
def jsonChannel : Channel where
  uint v := if roundTo 53 v.toNat < 2 ^ 64 then some (.ofNat (roundTo 53 v.toNat)) else none
  bytes := id
  text := some

variable {lib : JsonLibrary τ} {x y : JsonEnc Unit}

def JsonWrites (lib : JsonLibrary τ) (x : JsonEnc Unit) (w : Option (List (String × Json))) : Prop :=
  ∀ ms t, Ok x (.object ms) () t → ∃ new, w = some new ∧ t = .object (setMembers ms new) ∧ ∀ m ∈ new, lib.Sound m.2
def JsonBuilds (lib : JsonLibrary τ) (x : JsonEnc Unit) (w : Option (List (String × Json))) : Prop :=
  ∀ t, Ok x (.object []) () t → ∃ new, w = some new ∧ t = .object new ∧ lib.Sound (.object new)
def JsonAppends (lib : JsonLibrary τ) (x : JsonEnc Unit) (w : Option (List Json)) : Prop :=
  ∀ is t, Ok x (.array is) () t → ∃ new, w = some new ∧ t = .array (is ++ new) ∧ ∀ v ∈ new, lib.Sound v

lemma jsonWrites_value (name : String) {v} (hv : lib.Sound v) :
    JsonWrites lib (jsonWriteValue (some name) v) (some [(name,v)]) := by
  intro ms t hok
  cases hok
  exact ⟨_,rfl,rfl,by simpa using hv⟩
lemma jsonWrites_throw (e : Stop) (w : Option (List (String × Json))) : JsonWrites lib (throw e) w :=
  fun _ _ hok => (ok_throw hok).elim
lemma jsonWrites_nil : JsonWrites lib (pure ()) (some []) := by
  intro ms t hok
  obtain ⟨-,rfl⟩ := ok_pure.1 hok
  exact ⟨[],rfl,rfl,nofun⟩

variable {w : Option (List (String × Json))}

lemma JsonWrites.seq {w'} (h : JsonWrites lib x w) (h' : JsonWrites lib y w') :
    JsonWrites lib (x >>= fun _ => y) (w.bind fun a => w'.map (a ++ ·)) := by
  intro ms u hok
  obtain ⟨⟨⟩,t,hx,hy⟩ := ok_bind.1 hok
  obtain ⟨new,rfl,rfl,hnew⟩ := h ms t hx
  obtain ⟨new',rfl,rfl,hnew'⟩ := h' _ u hy
  refine ⟨new ++ new',rfl,congrArg Json.object foldl_append.symm,fun m hm => ?_⟩
  exact (mem_append.1 hm).elim (hnew m) (hnew' m)
lemma JsonWrites.builds (h : JsonWrites lib x w) (hnamed : ∀ ms ∈ w, Named ms) : JsonBuilds lib x w := by
  intro t hok
  obtain ⟨new,rfl,rfl,hnew⟩ := h [] t hok
  have hnodup := (hnamed new rfl).2
  refine ⟨new,rfl,?_,object hnodup hnew⟩
  rw [setMembers_of_nodup hnodup]
  rfl
lemma ok_jsonBuild {start outer t f g} (h : Ok (get >>= g) outer () t)
    (hg : g outer = jsonBuild start x >>= f) : ∃ value, Ok x start () value ∧ Ok (f value) outer () t := by
  obtain ⟨_,_,hget,hok⟩ := ok_bind.1 h
  obtain ⟨rfl,rfl⟩ := ok_get.1 hget
  simp only [hg,jsonBuild,ok_bind,ok_set] at hok
  obtain ⟨_,_,⟨_,_,⟨rfl,rfl⟩,_,_,rfl,⟨⟩,_,hx,_,_,⟨rfl,rfl⟩,_,_,rfl,rfl,rfl⟩,hf⟩ := hok
  exact ⟨_,hx,hf⟩
lemma zero_notMem_of_cstr {memory s} (h : cstr memory = some s) : 0 ∉ s := by
  unfold cstr at h
  split_ifs at h
  cases h
  intro hmem
  simpa using mem_takeWhile_imp hmem

lemma jsonWrites_string (lib : JsonLibrary τ) (name : String) (s : Option Bytes) :
    JsonWrites lib (jsonWriteString lib (some name) s) ((s.bind cstr).map fun t => [(name,.string t)]) := by
  unfold jsonWriteString
  cases s with
  | none => exact jsonWrites_throw _ _
  | some memory =>
    rw [bind_some]
    dsimp only
    cases hstr : cstr memory with
    | none => exact jsonWrites_throw _ _
    | some s =>
      dsimp only
      by_cases haccepts : lib.accepts s
      · rw [if_pos haccepts]
        exact jsonWrites_value name (string ⟨haccepts,zero_notMem_of_cstr hstr⟩)
      · rw [if_neg haccepts]
        exact jsonWrites_throw _ _

lemma jsonWrites_bin (hlib : lib.Preserves) (name : String) (d : Bytes) :
    JsonWrites lib (jsonWriteBin lib (some name) d) (some [(name,jsonBin lib d)]) := by
  unfold jsonWriteBin jsonBin
  by_cases hd : d = []
  · rw [if_pos hd,if_pos hd]
    exact jsonWrites_string lib name (some [0])
  · rw [if_neg hd,if_neg hd]
    cases hbase : lib.base64Encode d with
    | none => exact jsonWrites_throw _ _
    | some s =>
      have hwrites := jsonWrites_string lib name (some (s ++ [0]))
      rwa [bind_some,cstr_terminated (hlib.base64 hd hbase).2.1] at hwrites
lemma jsonWrites_object (name : String) (h : JsonBuilds lib x w) :
    JsonWrites lib (jsonWriteObject (some name) false x) (w.map fun ms => [(name,.object ms)]) := by
  intro ms t hok
  obtain ⟨value,hx,hok⟩ := ok_jsonBuild hok rfl
  obtain ⟨new,rfl,rfl,hnew⟩ := h value hx
  exact jsonWrites_value name hnew ms t hok
lemma jsonWrites_null (name : String) :
    JsonWrites lib (jsonWriteObject (some name) true (pure ())) (some [(name,.null)]) := by
  intro ms t hok
  cases hok
  exact jsonWrites_value name null ms _ rfl
lemma jsonWrites_array (name : String) {w} (k : ℕ) (h : JsonAppends lib x w) :
    JsonWrites lib (jsonWriteArray (some name) k x) (w.map fun is => [(name,.array is)]) := by
  intro ms t hok
  obtain ⟨value,hx,hok⟩ := ok_jsonBuild hok rfl
  obtain ⟨new,rfl,rfl,hnew⟩ := h [] value hx
  exact jsonWrites_value name (array hnew) ms t hok
lemma jsonAppends_nil : JsonAppends lib (pure ()) (some []) := by
  intro is t hok
  obtain ⟨-,rfl⟩ := ok_pure.1 hok
  exact ⟨[],rfl,by rw [append_nil],nofun⟩
lemma JsonAppends.element {w'} (h : JsonBuilds lib x w) (h' : JsonAppends lib y w') :
    JsonAppends lib (jsonWriteObject none false x >>= fun _ => y) (w.bind fun ms => w'.map (.object ms :: ·)) := by
  intro is t hok
  obtain ⟨⟨⟩,_,hobject,hy⟩ := ok_bind.1 hok
  obtain ⟨value,hx,hobject⟩ := ok_jsonBuild hobject rfl
  obtain ⟨new,rfl,rfl,hnew⟩ := h value hx
  cases hobject
  obtain ⟨new',rfl,rfl,hnew'⟩ := h' _ t hy
  refine ⟨_,rfl,by rw [append_assoc]; rfl,fun v hv => ?_⟩
  rcases mem_cons.1 hv with rfl | hv
  · exact hnew
  · exact hnew' v hv
lemma jsonWrites_ref (r : IoRef) :
    JsonWrites lib (ioEncodeRef (jsonEncoder lib) r) (some (r.members (jsonFormat lib))) := by
  have hwrites := jsonWrites_string lib "id" (some (ioRefToSTRING r ++ [0]))
  rw [bind_some,cstr_terminated (zero_notMem_ioRefToSTRING r)] at hwrites
  exact hwrites.seq jsonWrites_nil

def jsonEncoderSpec (hlib : lib.Preserves) : (jsonEncoder lib).Spec (jsonFormat lib) where
  members := JsonWrites lib
  record := JsonBuilds lib
  items := JsonAppends lib
  uint name _ := jsonWrites_value name (Json.WellFormed.number ⟨_,rfl⟩)
  int32 name _ := jsonWrites_value name (Json.WellFormed.number ⟨_,rfl⟩)
  bool name v := jsonWrites_value name (Json.WellFormed.bool v)
  string name s := jsonWrites_string lib name s
  bin name d := jsonWrites_bin hlib name d
  null name := jsonWrites_null name
  object name _ _ h := jsonWrites_object name h
  array name _ _ k h _ := jsonWrites_array name k h
  stop e := jsonWrites_throw e none
  seq h h' := h.seq h'
  ending := jsonWrites_nil
  type h hk := h.builds fun ms hms => (hk ms hms).2
  ref r := (jsonWrites_ref r).builds (by simp [Named,IoRef.members])
  stopRecord e := fun _ hok => (ok_throw hok).elim
  nil := jsonAppends_nil
  element h h' := JsonAppends.element h h'

lemma ofDouble_toDouble (z : ℤ) : ofDouble (toDouble z) = roundInt 53 z := by
  simp [ofDouble,toDouble]
lemma ofDouble_of_lt {z} (h : z.natAbs < 2 ^ 53) : ofDouble (toDouble z) = z := by
  rw [ofDouble_toDouble,roundInt_of_significant (significant_of_lt h)]

variable {α α' γ γ' : Type} {x : JsonDec α} {f : α → JsonDec α'} {ms : List (String × Json)}
  {i : String × Json} {mem : Memory} {d : Option γ} {P : γ → α → Memory → Prop} {Q : γ' → α' → Memory → Prop}
  {context v : Json} {k : ℕ} {palPton : Bytes → Except PrxError SocketAddress} {place : ℕ → Option ℕ}

def JsonGives (lib : JsonLibrary τ) (x : JsonDec α) (ms : List (String × Json)) (mem : Memory) (d : Option γ)
    (P : γ → α → Memory → Prop) : Prop :=
  (∀ m ∈ ms, lib.Sound m.2) → ∀ context k, (∀ m ∈ ms, context.member m.1 = some m.2) →
    Outcome x ⟨context,k,mem⟩ d fun g a t => t = ⟨context,k,t.memory⟩ ∧ P g a t.memory
def JsonGivesItems (lib : JsonLibrary τ) (x : JsonDec α) (is : List Json) (mem : Memory) (d : Option γ)
    (P : γ → α → Memory → Prop) : Prop :=
  (∀ v ∈ is, lib.Sound v) → ∀ all k, all.drop k = is → Outcome x ⟨.array all,k,mem⟩ d fun g a t => P g a t.memory
lemma ok_jsonValue {name} (h : context.member name = some v) :
    Ok (jsonValue (some name)) ⟨context,k,mem⟩ (some v) ⟨context,k,mem⟩ := by
  simp only [jsonValue,ok_bind,ok_get,ok_pure]
  exact ⟨_,_,⟨rfl,rfl⟩,h.symm,rfl⟩
lemma jsonGives_member {name} (h : lib.Sound v → ∀ context k, context.member name = some v →
      Outcome x ⟨context,k,mem⟩ d fun g a t => t = ⟨context,k,t.memory⟩ ∧ P g a t.memory) :
    JsonGives lib x [(name,v)] mem d P := by
  intro hsound context k hmember
  exact h (hsound _ mem_cons_self) context k (hmember _ mem_cons_self)
lemma jsonGives_of_ok {name a}
    (h : lib.Sound v → ∀ context k, context.member name = some v → Ok x ⟨context,k,mem⟩ a ⟨context,k,mem⟩) :
    JsonGives lib x [(name,v)] mem (some a) fun v a mem' => a = v ∧ mem' = mem :=
  jsonGives_member fun hsound context k hmember => (h hsound context k hmember).outcome ⟨rfl,rfl,rfl⟩
lemma JsonGives.bind {e} (h : JsonGives lib x [i] mem d P)
    (h' : ∀ g a mem', g ∈ d → P g a mem' → JsonGives lib (f a) ms mem' (e g) Q) :
    JsonGives lib (x >>= f) (i :: ms) mem (d.bind e) Q := by
  intro hsound context k hmember
  have hfirst := h (fun m hm => hsound m (by simp_all)) context k fun m hm => hmember m (by simp_all)
  refine hfirst.bind ?_
  rintro g a t hg ⟨ht,hp⟩
  rw [ht]
  exact h' g a t.memory hg hp (fun m hm => hsound m (mem_cons_of_mem _ hm)) context k
    fun m hm => hmember m (mem_cons_of_mem _ hm)
lemma JsonGives.map {g} {f : α → α'} {Q : γ' → α' → Memory → Prop} (h : JsonGives lib x ms mem d P)
    (hq : ∀ v a mem', P v a mem' → Q (g v) (f a) mem') :
    JsonGives lib (x >>= fun a => pure (f a)) ms mem (d.map g) Q := by
  intro hsound context k hmember
  rw [map_eq_bind]
  refine (h hsound context k hmember).bind ?_
  rintro v a t - ⟨ht,hp⟩
  exact (ok_pure.2 ⟨rfl,rfl⟩).outcome ⟨ht,hq v a t.memory hp⟩
lemma jsonGives_pure {a g} (h : P g a mem) : JsonGives lib (pure a) [] mem (some g) P :=
  fun _ _ _ _ => (ok_pure.2 ⟨rfl,rfl⟩).outcome ⟨rfl,h⟩

variable (name : String)

lemma ok_jsonReadNumber {q} (h : context.member name = some (.number q)) :
    Ok (jsonReadNumber (some name)) ⟨context,k,mem⟩ q ⟨context,k,mem⟩ :=
  ok_bind.2 ⟨_,_,ok_jsonValue h,rfl⟩

lemma jsonGives_uint (v : UInt64) :
    JsonGives lib (jsonReadUinteger (some name)) [(name,.number (toDouble v.toNat))] mem (jsonChannel.uint v)
      fun v a mem' => a = v ∧ mem' = mem := by
  refine jsonGives_member fun _ context k hmember => (ok_jsonReadNumber name hmember).then ?_
  have hdouble : ofDouble (toDouble v.toNat) = roundTo 53 v.toNat := by
    rw [ofDouble_toDouble,roundInt_natCast]
  unfold jsonChannel
  dsimp only
  rw [hdouble]
  by_cases hlt : roundTo 53 v.toNat < 2 ^ 64
  · rw [if_pos ⟨Int.natCast_nonneg _,by exact_mod_cast hlt⟩,if_pos hlt]
    exact (ok_pure.2 ⟨rfl,rfl⟩).outcome ⟨rfl,rfl,rfl⟩
  · rw [if_neg fun h => hlt (by exact_mod_cast h.2),if_neg hlt]
    exact outcome_throw _

lemma jsonGives_int32 (v : Int32) :
    JsonGives lib ((jsonDecoder lib palPton place).decodeInt32 (some name)) [(name,(jsonFormat lib).int32 v)] mem
      (some v) fun v a mem' => a = v ∧ mem' = mem := by
  refine jsonGives_of_ok fun _ context k hmember => ?_
  have hlt := v.toInt_lt
  have hle := v.le_toInt
  have hdouble : ofDouble (toDouble v.toInt64.toInt) = v.toInt := by
    rw [Int32.toInt_toInt64]
    exact ofDouble_of_lt (by omega)
  have hread : Ok (jsonReadInteger (some name)) ⟨context,k,mem⟩ v.toInt64 ⟨context,k,mem⟩ := by
    refine ok_bind.2 ⟨_,_,ok_jsonReadNumber name hmember,?_⟩
    rw [hdouble,if_pos (by omega)]
    rfl
  refine ok_bind.2 ⟨_,_,hread,?_⟩
  simp

lemma ok_jsonReadUinteger {v} (h : v.toNat < 2 ^ 53)
    (hmember : context.member name = some (.number (toDouble v.toNat))) :
    Ok (jsonReadUinteger (some name)) ⟨context,k,mem⟩ v ⟨context,k,mem⟩ := by
  have hdouble : ofDouble (toDouble v.toNat) = v.toNat := ofDouble_of_lt (by exact h)
  refine ok_bind.2 ⟨_,_,ok_jsonReadNumber name hmember,?_⟩
  rw [hdouble,if_pos (by omega)]
  simp
lemma jsonGives_narrow {f v} {a : α} (h : v.toNat < 2 ^ 53) (hf : f v = pure a) :
    JsonGives lib (jsonReadUinteger (some name) >>= f) [(name,.number (toDouble v.toNat))] mem (some a)
      fun v a mem' => a = v ∧ mem' = mem :=
  jsonGives_of_ok fun _ _ _ hmember => ok_bind.2 ⟨_,_,ok_jsonReadUinteger name h hmember,by rw [hf]; rfl⟩

variable {β : Type} {mem' : Memory} {n : ℕ}

lemma jsonReads_string {allocator s} {p : β} (hmember : context.member name = some (.string s))
    (hfill : ∃ store mem₁, Ok (allocator.alloc (s.length + 1)) ⟨context,k,mem⟩ store ⟨context,k,mem₁⟩ ∧
      Ok (store (s ++ [0])) ⟨context,k,mem₁⟩ p ⟨context,k,mem'⟩) :
    Ok (jsonReadString (some name) allocator) ⟨context,k,mem⟩ p ⟨context,k,mem'⟩ := by
  obtain ⟨store,mem₁,halloc,hstore⟩ := hfill
  exact ok_bind.2 ⟨_,_,ok_jsonValue hmember,ok_bind.2 ⟨_,_,halloc,hstore⟩⟩

lemma jsonReads_bin (hlib : lib.Preserves) {allocator d} {p : β}
    (hsound : lib.Sound (jsonBin lib d)) (hmember : context.member name = some (jsonBin lib d))
    (hnil : d = [] → p = allocator.null ∧ mem' = mem)
    (hfill : d ≠ [] → ∃ store mem₁, Ok (allocator.alloc d.length) ⟨context,k,mem⟩ store ⟨context,k,mem₁⟩ ∧
      Ok (store d) ⟨context,k,mem₁⟩ p ⟨context,k,mem'⟩) :
    Ok (jsonReadBin lib (some name) allocator) ⟨context,k,mem⟩ p ⟨context,k,mem'⟩ := by
  unfold jsonBin at hsound hmember
  by_cases hd : d = []
  · obtain ⟨rfl,rfl⟩ := hnil hd
    rw [if_pos hd] at hmember
    exact ok_bind.2 ⟨_,_,ok_jsonValue hmember,rfl⟩
  · obtain ⟨store,mem₁,halloc,hstore⟩ := hfill hd
    rw [if_neg hd] at hsound hmember
    cases hbase : lib.base64Encode d with
    | none =>
      rw [hbase] at hsound
      cases hsound with
      | string hs => exact absurd mem_cons_self hs.2
    | some =>
      obtain ⟨hs,-,hdecode⟩ := hlib.base64 hd hbase
      rw [hbase] at hmember
      refine ok_bind.2 ⟨_,_,ok_jsonValue hmember,?_⟩
      dsimp only
      rw [getD_some,if_neg hs,hdecode]
      exact ok_bind.2 ⟨_,_,halloc,hstore⟩

lemma Fills.json {size d p} (h : Fills (ioMessageAllocator place) size d mem p mem') :
    ∃ store mem₁, Ok ((jsonMessageAllocator place).alloc size) ⟨context,k,mem⟩ store ⟨context,k,mem₁⟩ ∧
      Ok (store d) ⟨context,k,mem₁⟩ p ⟨context,k,mem'⟩ := by
  obtain ⟨store,mem₁,halloc,hstore⟩ := h 0
  refine ⟨fun d => onMemory (store d),mem₁,ok_bind.2 ⟨store,⟨context,k,mem₁⟩,?_,rfl⟩,?_⟩
  · have hrun : ((ioMessageAllocator place).alloc size).run ⟨[],⟨0,mem⟩⟩ = .ok (store,⟨[],⟨0,mem₁⟩⟩) := halloc []
    change (((ioMessageAllocator place).alloc size).run ⟨[],⟨0,mem⟩⟩ >>= fun r => _) = _
    rw [hrun]
    rfl
  · have hrun : (store d).run ⟨[],⟨0,mem₁⟩⟩ = .ok (p,⟨[],⟨0,mem'⟩⟩) := hstore []
    change ((store d).run ⟨[],⟨0,mem₁⟩⟩ >>= fun r => _) = _
    rw [hrun]
    rfl

lemma ok_fixed (context : Json) (k : ℕ) (mem : Memory) (old : Vector UInt8 n) {d} (h : d.length ≤ n) :
    ∃ (store : Bytes → JsonDec (Vector UInt8 n)) (mem₁ : Memory),
      Ok ((fixedValidator old : Allocator JsonDec _).alloc d.length) ⟨context,k,mem⟩ store ⟨context,k,mem₁⟩ ∧
        Ok (store d) ⟨context,k,mem₁⟩ (overlay old d) ⟨context,k,mem⟩ := by
  refine ⟨fun d => if d.length ≤ n then pure (overlay old d) else throw .undefined,mem,?_,?_⟩
  · simp only [fixedValidator,h]
    rfl
  · simp only [h]
    rfl
lemma jsonGives_binFixed (hlib : lib.Preserves) (old v : Vector UInt8 n) (hpos : n ≠ 0) :
    JsonGives lib ((jsonDecoder lib palPton place).decodeBinFixed (some name) old) [(name,jsonBin lib v.toList)] mem
      (some v) fun v a mem' => a = v ∧ mem' = mem := by
  refine jsonGives_of_ok fun hsound context k hmember => jsonReads_bin name hlib hsound hmember ?_ ?_
  · intro h
    exact absurd (by simpa using congrArg List.length h) hpos
  · intro _
    obtain ⟨store,mem₁,halloc,hstore⟩ := ok_fixed context k mem old (d := v.toList) (by simp)
    rw [overlay_toList] at hstore
    exact ⟨store,mem₁,halloc,hstore⟩
lemma jsonGives_stringFixed (old : Vector UInt8 n) (t : FixedText n) :
    JsonGives lib ((jsonDecoder lib palPton place).decodeStringFixed (some name) old) [(name,.string t.1)] mem
      (some (overlay old (t.1 ++ [0]))) fun v a mem' => a = v ∧ mem' = mem := by
  refine jsonGives_of_ok fun _ context k hmember => jsonReads_string name hmember ?_
  have hfits : (t.1 ++ [0]).length ≤ n := by simpa using Nat.succ_le_of_lt t.2.2
  simpa using ok_fixed context k mem old hfits
lemma jsonGives_binDefault (hlib : lib.Preserves) (hplace : ∀ n, (place n).isSome) (d : Bytes) :
    JsonGives lib ((jsonDecoder lib palPton place).decodeBinDefault (some name)) [(name,jsonBin lib d)] mem (some d)
      fun d p mem' => Stored place mem d p mem' := by
  obtain ⟨addr,haddr⟩ := isSome_iff_exists.1 (hplace mem.allocations)
  refine jsonGives_member fun hsound context k hmember => ?_
  by_cases hd : d = []
  · exact (jsonReads_bin name hlib hsound hmember (fun _ => ⟨rfl,rfl⟩) fun h => absurd hd h).outcome
      ⟨rfl,.inl ⟨hd,rfl,rfl⟩⟩
  · exact (jsonReads_bin name hlib hsound hmember (fun h => absurd h hd) fun _ =>
      (fills_message place _ d mem addr haddr rfl hd).json).outcome ⟨rfl,.inr ⟨hd,addr,haddr,rfl,rfl⟩⟩
lemma jsonGives_stringDefault (hplace : ∀ n, (place n).isSome) (t : Text) :
    JsonGives lib ((jsonDecoder lib palPton place).decodeStringDefault (some name)) [(name,.string t.1)] mem (some t)
      fun t p mem' => ∃ s, p = some s ∧ mem'.read s = some (t.1 ++ [0]) := by
  obtain ⟨addr,haddr⟩ := isSome_iff_exists.1 (hplace mem.allocations)
  refine jsonGives_member fun _ context k hmember => ?_
  have hfills := fills_message place (t.1.length + 1) (t.1 ++ [0]) mem addr haddr (by simp) (by simp)
  exact (jsonReads_string name hmember hfills.json).outcome ⟨rfl,_,rfl,Memory.read_append mem addr _⟩
lemma ok_ioDecodeRef {r} (old : IoRef) (hmember : context.member "id" = some (.string (ioRefToSTRING r))) :
    Ok (ioDecodeRef (jsonDecoder lib palPton place) old) ⟨context,k,mem⟩ r ⟨context,k,mem⟩ := by
  have hread : Ok ((jsonDecoder lib palPton place).decodeSTRINGHANDLE "id") ⟨context,k,mem⟩
      (ioRefToSTRING r ++ [0]) ⟨context,k,mem⟩ := jsonReads_string "id" hmember ⟨_,_,rfl,rfl⟩
  have hrefOf : refOfString palPton (ioRefToSTRING r ++ [0]) old = (pure r : JsonDec IoRef) := by
    unfold refOfString
    rw [cstr_terminated (zero_notMem_ioRefToSTRING r)]
    dsimp only
    rw [ioRefFromString_ioRefToSTRING]
  refine ok_bind.2 ⟨(),_,rfl,ok_bind.2 ⟨_,_,hread,?_⟩⟩
  rw [hrefOf]
  rfl
lemma outcome_jsonNested {body} (h : Outcome body ⟨v,0,mem⟩ d fun g a t => P g a t.memory) :
    Outcome (jsonNested v body) ⟨context,k,mem⟩ d fun g a t => t = ⟨context,k,t.memory⟩ ∧ P g a t.memory := by
  refine Ok.then (ok_get.2 ⟨rfl,rfl⟩) (Ok.then (a := ()) (ok_set.2 rfl) ?_)
  rw [← bind_fun_some d]
  refine h.bind ?_
  rintro g a t - hp
  exact ⟨a,⟨context,k,t.memory⟩,rfl,rfl,hp⟩
lemma jsonGives_object (name : String) {body} (hnamed : Named ms) (h : JsonGives lib (body false) ms mem d P) :
    JsonGives lib (jsonReadObject (some name) body) [(name,.object ms)] mem d P := by
  refine jsonGives_member fun hsound context k hmember => ?_
  refine Ok.then (ok_bind.2 ⟨_,_,ok_get.2 ⟨rfl,rfl⟩,ok_jsonValue hmember⟩) ?_
  refine outcome_jsonNested ((h ?_ (.object ms) 0 fun m hm => lookup_of_mem hnamed.2 hm).imp fun _ _ _ hp => hp.2)
  cases hsound with
  | object _ hms => exact hms
lemma jsonGives_null (name : String) {body} (h : JsonGives lib (body true) [] mem d P) :
    JsonGives lib (jsonReadObject (some name) body) [(name,.null)] mem d P := by
  refine jsonGives_member fun _ context k hmember => ?_
  refine Ok.then (ok_bind.2 ⟨_,_,ok_get.2 ⟨rfl,rfl⟩,ok_jsonValue hmember⟩) ?_
  exact outcome_jsonNested ((h nofun _ 0 nofun).imp fun _ _ _ hp => hp.2)
lemma jsonGives_array (name : String) {body is} (h : JsonGivesItems lib (body is.length) is mem d P) :
    JsonGives lib (jsonReadArray (some name) body) [(name,.array is)] mem d P := by
  refine jsonGives_member fun hsound context k hmember => (ok_jsonValue hmember).then ?_
  refine outcome_jsonNested (h ?_ is 0 rfl)
  cases hsound with
  | array his => exact his

lemma ok_jsonObjectValue_element {all k item} (hitem : all[k]? = some item) :
    Ok (jsonObjectValue none) ⟨.array all,k,mem⟩ (some item) ⟨.array all,k + 1,mem⟩ := by
  refine ok_bind.2 ⟨_,_,ok_get.2 ⟨rfl,rfl⟩,ok_bind.2 ⟨_,_,ok_get.2 ⟨rfl,rfl⟩,?_⟩⟩
  exact ok_bind.2 ⟨(),_,ok_set.2 rfl,ok_pure.2 ⟨hitem.symm,rfl⟩⟩
lemma jsonGivesItems_element {is e} (hnamed : Named ms) (h : JsonGives lib x ms mem d P)
    (h' : ∀ g a mem', g ∈ d → P g a mem' → JsonGivesItems lib (f a) is mem' (e g) Q) :
    JsonGivesItems lib (jsonReadObject none (fun _ => x) >>= f) (.object ms :: is) mem (d.bind e) Q := by
  intro hsound all k hdrop
  have hitem : all[k]? = some (.object ms) := by
    rw [← List.head?_drop,hdrop]
    rfl
  have hms : ∀ m ∈ ms, lib.Sound m.2 := by
    cases hsound _ mem_cons_self with
    | object _ hms => exact hms
  have hobject : Outcome (jsonReadObject none fun _ => x) ⟨.array all,k,mem⟩ d
      fun g a t => t = ⟨.array all,k + 1,t.memory⟩ ∧ P g a t.memory :=
    (ok_jsonObjectValue_element hitem).then (outcome_jsonNested
      ((h hms (.object ms) 0 fun m hm => lookup_of_mem hnamed.2 hm).imp fun _ _ _ hp => hp.2))
  refine hobject.bind ?_
  rintro g a t hg ⟨ht,hp⟩
  rw [ht]
  refine h' g a t.memory hg hp (fun v hv => hsound v (mem_cons_of_mem _ hv)) all (k + 1) ?_
  rw [← tail_drop,hdrop]
  rfl

variable (palPton) in
def jsonDecoderSpec (hlib : lib.Preserves) (hplace : ∀ n, (place n).isSome) :
    (jsonDecoder lib palPton place).Spec (jsonFormat lib) jsonChannel place where
  gives := JsonGives lib
  givesItems := JsonGivesItems lib
  uint name v _ := jsonGives_uint name v
  int32 name v _ := jsonGives_int32 name v
  uint32 name v _ := jsonGives_narrow name (Nat.lt_trans v.toNat_lt (by decide)) (by simp)
  uint16 name v _ := jsonGives_narrow name (Nat.lt_trans v.toNat_lt (by decide)) (by simp)
  uint8 name v _ := jsonGives_narrow name (Nat.lt_trans v.toNat_lt (by decide)) (by simp)
  bool _ _ _ := jsonGives_of_ok fun _ _ _ hmember => ok_bind.2 ⟨_,_,ok_jsonValue hmember,rfl⟩
  binFixed name old v _ _ hpos := jsonGives_binFixed name hlib old v hpos
  stringFixed name old t _ _ := jsonGives_stringFixed name old t
  binDefault name d _ := jsonGives_binDefault name hlib hplace d
  stringDefault name t _ := jsonGives_stringDefault name hplace t
  ref _ old _ := jsonGives_of_ok fun _ _ _ hmember => ok_ioDecodeRef old hmember
  object name _ _ _ _ _ _ _ hnamed h := jsonGives_object name hnamed h
  null name _ _ _ _ _ _ h := jsonGives_null name h
  array name _ _ _ _ _ _ _ _ h := jsonGives_array name h
  done h := jsonGives_pure h
  ending h := jsonGives_pure h
  encEnding h := jsonGives_pure h
  stop e _ _ _ _ _ _ _ := outcome_throw e
  bind h h' := JsonGives.bind h h'
  ret h := h
  map h hq := h.map hq
  type h := h
  imp h hq := fun hsound all k hdrop => (h hsound all k hdrop).imp fun g a t => hq g a t.memory
  nil h := fun _ _ _ _ => (ok_pure.2 ⟨rfl,rfl⟩).outcome h
  element hnamed h h' := jsonGivesItems_element hnamed h h'

end EdgeProxy.Codec
