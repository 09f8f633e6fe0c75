import Mathlib.Data.Option.Basic
import Mathlib.Data.List.Nodup
import EdgeProxy.Cs.ConnectionString
import EdgeProxy.Lib.Transition

/-! # The registry in memory

The generic entries and the generic registry of `prx_ns.c`, which is saved to a file after every change. Memory
allocation does not fail. Functions that read an entry which was freed are undefined.
-/
namespace EdgeProxy.Ns
open Base Cs List Function Option

abbrev IoRef := Codec.IoRef

/-! `prx_ns_entry_type_t` -/

def entryTypeHost : UInt32 := 0x1
def entryTypeProxy : UInt32 := 0x2
def entryTypeStartup : UInt32 := 0x4
def entryTypeLink : UInt32 := 0x8
def entryTypeGw : UInt32 :=
  entryTypeStartup ||| entryTypeProxy

structure GenericEntry where
  name : Option Bytes
  id : IoRef
  cs : Option IoCs
  type : UInt32
  version : UInt32

structure NsEntry where
  addr : Except PrxError IoRef
  cs : Except PrxError IoCs
  type : UInt32
  name : Option Bytes
  version : UInt32

/-- `prx_ns_generic_registry_t`; an entry that was freed may still be linked. -/
structure Registry where
  entries : List (Option GenericEntry)
  numEntries : ℕ

-- Whether the registry was created with the name of a file.
variable (hasFile : Bool)

def findId (id : IoRef) : List (Option GenericEntry) → Option (Option GenericEntry)
  | [] => some none
  | none :: _ => none
  | some e :: entries => if e.id = id then some (some e) else findId id entries

/-- The changed registry is saved, which reads all entries if there is a file. The result is ignored. -/
def Registry.saved (r : Registry) : Option (Registry × Except PrxError Unit) :=
  if hasFile ∧ r.entries.any (·.isNone) then none else some (r,.ok ())

def eraseId (id : IoRef) (entries : List (Option GenericEntry)) : List (Option GenericEntry) :=
  entries.eraseP fun e => e.any (·.id = id)
def Registry.entryDelete (r : Registry) (entry : NsEntry) : Option (Registry × Except PrxError Unit) :=
  match entry.addr with
  | .error e => some (r,.error e)
  | .ok id => do
    match ← findId id r.entries with
    | none => pure (r,.error .notFound)
    | some _ => Registry.saved hasFile { r with entries := eraseId id r.entries, numEntries := r.numEntries - 1 }
def localType (type : UInt32) : UInt32 :=
  if type &&& entryTypeProxy ≠ 0 then type ||| entryTypeGw else type
def Registry.entryCreate (r : Registry) (entry : NsEntry) : Option (Registry × Except PrxError Unit) :=
  match entry.addr with
  | .error e => some (r,.error e)
  | .ok id => do
    match ← findId id r.entries with
    | some _ => pure (r,.error .alreadyExists)
    | none =>
      match entry.cs with
      | .error e => pure (r,.error e)
      | .ok cs =>
        let next : GenericEntry := ⟨entry.name,id,some (ioCsClone cs),localType entry.type,entry.version⟩
        Registry.saved hasFile { r with entries := r.entries ++ [some next], numEntries := r.numEntries + 1 }

/-- `prx_ns_generic_registry_entry_update`. A new entry is made, but the old one is moved to the end of the list and
freed there. -/
def Registry.entryUpdate (r : Registry) (entry : NsEntry) : Option (Registry × Except PrxError Unit) :=
  match entry.addr with
  | .error e => some (r,.error e)
  | .ok id => do
    match ← findId id r.entries with
    | none => pure (r,.error .notFound)
    | some _ =>
      match entry.cs with
      | .error e => pure (r,.error e)
      | .ok _ => Registry.saved hasFile { r with entries := eraseId id r.entries ++ [none] }

def Registry.entryByAddr (r : Registry) (id : IoRef) : Option (Except PrxError GenericEntry) := do
  match ← findId id r.entries with
  | none => pure (.error .notFound)
  | some e => pure (.ok e)

inductive FileContent where
  | unreadable (error : PrxError)
  | broken (error : PrxError)
  | entries (entries : List GenericEntry)

def Registry.new : Registry :=
  ⟨[],0⟩

/-- `prx_ns_generic_registry_load`, where `prx_ns_generic_registry_clear` makes the registry a new one. -/
def Registry.load (r : Registry) (content : FileContent) : Registry × Except PrxError Unit :=
  if !hasFile then (r,.ok ())
  else
    match content with
    | .unreadable e => (r,.error e)
    | .broken e => (.new,.error e)
    | .entries entries =>
      let r := if r.numEntries ≠ 0 then .new else r
      ({ r with entries := r.entries ++ entries.map some, numEntries := entries.length },.ok ())

inductive NsOp where
  | create (entry : NsEntry)
  | update (entry : NsEntry)
  | delete (entry : NsEntry)
  | load (content : FileContent)

def Registry.step (hasFile : Bool) (r : Registry) : NsOp → Option (Registry × Except PrxError Unit)
  | .create entry => r.entryCreate hasFile entry
  | .update entry => r.entryUpdate hasFile entry
  | .delete entry => r.entryDelete hasFile entry
  | .load content => some (r.load hasFile content)

/-! The registry as a map from ids to what is known about them. -/

structure Info where
  name : Option Bytes
  type : UInt32
  version : UInt32
  cs : Option IoCs

def GenericEntry.info (e : GenericEntry) : Info :=
  ⟨e.name,e.type,e.version,e.cs⟩
def Info.entry (i : Info) (id : IoRef) : GenericEntry :=
  ⟨i.name,id,i.cs,i.type,i.version⟩
abbrev NsMap := IoRef → Option Info
def NsMap.empty : NsMap :=
  fun _ => none
def NsMap.set (m : NsMap) (id : IoRef) (info : Option Info) : NsMap :=
  update m id info
def NsMap.ofEntries (entries : List GenericEntry) : NsMap :=
  fun id => (entries.find? (·.id = id)).map GenericEntry.info

def NsMap.Succeeds (hasFile : Bool) (m : NsMap) : NsOp → Prop
  | .create entry => ∀ id, entry.addr = .ok id → m id = none
  | .update entry | .delete entry => ∃ id, entry.addr = .ok id ∧ m id ≠ none
  | .load content => hasFile → ∃ entries, content = .entries entries

def NsMap.next (hasFile : Bool) (m : NsMap) : NsOp → NsMap
  | .create entry =>
    match entry.addr, entry.cs with
    | .ok id, .ok cs =>
      match m id with
      | none => m.set id (some ⟨entry.name,localType entry.type,entry.version,some cs⟩)
      | some _ => m
    | _, _ => m
  | .update entry =>
    match entry.addr, entry.cs with
    | .ok id, .ok cs =>
      match m id with
      | none => m
      | some _ => m.set id (some ⟨entry.name,entry.type,entry.version,some cs⟩)
    | _, _ => m
  | .delete entry =>
    match entry.addr with
    | .ok id => m.set id none
    | .error _ => m
  | .load content =>
    if !hasFile then m
    else
      match content with
      | .unreadable _ => m
      | .broken _ => .empty
      | .entries entries => .ofEntries entries

/-- The registry is this map: no entry was freed, the ids are distinct, the number of entries is right, and the lookup
by address gives what the map says. -/
structure IsMap (r : Registry) (m : NsMap) : Prop where
  live : none ∉ r.entries
  distinct : (r.entries.map (·.map (·.id))).Nodup
  count : r.numEntries = r.entries.length
  lookup : ∀ id, r.entryByAddr id = some (match m id with
    | none => .error .notFound
    | some info => .ok (info.entry id))

/-- Along the operations the registry is a map, and every operation succeeds when it is to. -/
def Behaves (hasFile : Bool) : Registry → NsMap → List NsOp → Prop
  | r, m, [] => IsMap r m
  | r, m, op :: ops =>
    IsMap r m ∧ ∃ r' result, r.step hasFile op = some (r',result) ∧
      (result = .ok () ↔ m.Succeeds hasFile op) ∧ Behaves hasFile r' (m.next hasFile op) ops

lemma Behaves.isMap {hasFile r m ops} (h : Behaves hasFile r m ops) : IsMap r m := by
  cases ops with
  | nil => exact h
  | cons => exact h.1

/-- An entry to create has an address and, if that is new, a connection string; only entries that are not there are
updated; the entries in the file have distinct ids. -/
def NsOp.Fits (hasFile : Bool) (m : NsMap) : NsOp → Prop
  | .create entry => ∃ id, entry.addr = .ok id ∧ (m id = none → ∃ cs, entry.cs = .ok cs)
  | .update entry => ∀ id, entry.addr = .ok id → m id = none
  | .delete _ => True
  | .load content => hasFile → ∀ entries, content = .entries entries → (entries.map (·.id)).Nodup

/-! The functions on a list of entries none of which was freed. -/

variable {id : IoRef} {l : List GenericEntry}

lemma findId_live : findId id (l.map some) = some (l.find? (·.id = id)) := by
  induction l with
  | nil => rfl
  | cons e l ih =>
    rw [map_cons,findId,List.find?_cons]
    by_cases he : e.id = id
    · rw [if_pos he,decide_eq_true he]
    · rw [if_neg he,decide_eq_false he]
      exact ih
lemma eraseId_live : eraseId id (l.map some) = (l.eraseP (·.id = id)).map some := by
  rw [eraseId,eraseP_map]
  rfl

open Registry

lemma saved_live {n f} : saved f ⟨l.map some,n⟩ = some (⟨l.map some,n⟩,.ok ()) := by
  rw [saved]
  simp
lemma saved_concat {e n f} : saved f ⟨l.map some ++ [some e],n⟩ = some (⟨(l ++ [e]).map some,n⟩,.ok ()) := by
  rw [← saved_live,map_append]
  rfl

lemma exists_live {entries} (h : none ∉ entries) : ∃ l : List GenericEntry, entries = l.map some := by
  induction entries with
  | nil => exact ⟨[],rfl⟩
  | cons e entries ih =>
    obtain ⟨l,rfl⟩ := ih fun hn => h (mem_cons_of_mem e hn)
    cases e with
    | none => exact absurd mem_cons_self h
    | some e => exact ⟨e :: l,rfl⟩

open NsMap

lemma NsMap.ofEntries_eq_none : ofEntries l id = none ↔ id ∉ l.map (·.id) := by
  rw [ofEntries]
  simp
lemma find?_eq_none_of_ofEntries (h : ofEntries l id = none) : l.find? (·.id = id) = none :=
  map_eq_none_iff.1 h

lemma NsMap.ofEntries_concat {e} (h : e.id ∉ l.map (·.id)) :
    ofEntries (l ++ [e]) = (ofEntries l).set e.id (some e.info) := by
  funext id
  rw [ofEntries,List.find?_append,set]
  by_cases he : id = e.id
  · subst he
    rw [find?_eq_none_of_ofEntries (ofEntries_eq_none.2 h)]
    simp
  · rw [update_of_ne he,List.find?_cons,decide_eq_false (Ne.symm he),List.find?_nil,or_none]
    rfl
lemma eraseP_eq_filter {α β : Type} [DecidableEq β] {key} {xs : List α} (a : β) (h : (xs.map key).Nodup) :
    xs.eraseP (key · = a) = xs.filter (key · ≠ a) := by
  induction xs with
  | nil => rfl
  | cons x xs ih =>
    obtain ⟨hx,hxs⟩ := nodup_cons.1 h
    by_cases ha : key x = a
    · rw [eraseP_cons_of_pos (by simpa using ha),filter_cons_of_neg (by simpa using ha)]
      refine (filter_eq_self.2 ?_).symm
      intro y hy
      simpa [← ha] using fun he => hx (mem_map.2 ⟨y,hy,he⟩)
    · rw [eraseP_cons_of_neg (by simpa using ha),filter_cons_of_pos (by simpa using ha),ih hxs]
lemma NsMap.ofEntries_eraseP (h : (l.map (·.id)).Nodup) :
    ofEntries (l.eraseP (·.id = id)) = (ofEntries l).set id none := by
  funext id'
  rw [eraseP_eq_filter id h,ofEntries,set]
  by_cases he : id' = id
  · subst he
    simp
  · rw [update_of_ne he,ofEntries]
    grind

lemma isMap_live_iff {n m} : IsMap ⟨l.map some,n⟩ m ↔ (l.map (·.id)).Nodup ∧ n = l.length ∧ m = ofEntries l := by
  have hids : (l.map some).map (.map (·.id)) = (l.map (·.id)).map some := by simp
  have hlookup : ∀ id, entryByAddr ⟨l.map some,n⟩ id = some (match ofEntries l id with
      | none => .error .notFound
      | some info => .ok (info.entry id)) := by
    intro id
    rw [entryByAddr,findId_live,ofEntries]
    cases he : l.find? (·.id = id) with
    | none => rfl
    | some =>
      have hid := List.find?_some he
      rw [← of_decide_eq_true hid]
      rfl
  constructor
  · intro h
    refine ⟨?_,by simpa using h.count,?_⟩
    · have := h.distinct
      rw [hids] at this
      exact (nodup_map_iff (some_injective _)).1 this
    · funext id
      have := (h.lookup id).symm.trans (hlookup id)
      revert this
      cases m id <;> cases ofEntries l id <;> intro h
      · rfl
      · cases h
      · cases h
      · exact congrArg (some ∘ GenericEntry.info) (Except.ok.inj (some.inj h))
  · rintro ⟨hids',rfl,rfl⟩
    refine ⟨by simp,?_,by simp,hlookup⟩
    rw [hids]
    exact (nodup_map_iff (some_injective _)).2 hids'

lemma isMap_live (hl : (l.map (·.id)).Nodup) : IsMap ⟨l.map some,l.length⟩ (ofEntries l) :=
  isMap_live_iff.2 ⟨hl,rfl,rfl⟩
lemma isMap_new : IsMap .new .empty :=
  isMap_live_iff (l := []).2 ⟨nodup_nil,rfl,rfl⟩

/-! What the operations do to a list of entries none of which was freed. -/

variable {n : ℕ} {f : Bool} {entry : NsEntry}

lemma entryCreate_live : entryCreate f ⟨l.map some,n⟩ entry = some (match entry.addr with
    | .error e => (⟨l.map some,n⟩,.error e)
    | .ok id =>
      match ofEntries l id, entry.cs with
      | some _, _ => (⟨l.map some,n⟩,.error .alreadyExists)
      | none, .error e => (⟨l.map some,n⟩,.error e)
      | none, .ok cs =>
        (⟨(l ++ [(⟨entry.name,id,some cs,localType entry.type,entry.version⟩ : GenericEntry)]).map some,n + 1⟩,
          .ok ())) := by
  rw [entryCreate]
  cases entry.addr with
  | error => rfl
  | ok id =>
    dsimp only
    rw [findId_live,ofEntries]
    cases l.find? (·.id = id) with
    | some => rfl
    | none =>
      cases entry.cs with
      | error => rfl
      | ok => exact saved_concat

lemma entryUpdate_live : entryUpdate f ⟨l.map some,n⟩ entry = (match entry.addr with
    | .error e => some (⟨l.map some,n⟩,.error e)
    | .ok id =>
      match ofEntries l id, entry.cs with
      | none, _ => some (⟨l.map some,n⟩,.error .notFound)
      | some _, .error e => some (⟨l.map some,n⟩,.error e)
      | some _, .ok _ => saved f ⟨eraseId id (l.map some) ++ [none],n⟩) := by
  rw [entryUpdate]
  cases entry.addr with
  | error => rfl
  | ok id =>
    dsimp only
    rw [findId_live,ofEntries]
    cases l.find? (·.id = id) with
    | none => rfl
    | some => cases entry.cs <;> rfl

lemma entryDelete_live : entryDelete f ⟨l.map some,n⟩ entry = some (match entry.addr with
    | .error e => (⟨l.map some,n⟩,.error e)
    | .ok id =>
      match ofEntries l id with
      | none => (⟨l.map some,n⟩,.error .notFound)
      | some _ => (⟨(l.eraseP (·.id = id)).map some,n - 1⟩,.ok ())) := by
  rw [entryDelete]
  cases entry.addr with
  | error => rfl
  | ok id =>
    dsimp only
    rw [findId_live,ofEntries]
    cases l.find? (·.id = id) with
    | none => rfl
    | some =>
      rw [eraseId_live]
      exact saved_live

variable {op : NsOp}

def Agrees (f : Bool) (l : List GenericEntry) (op : NsOp) : Prop :=
  ∃ r' result, Registry.step f ⟨l.map some,l.length⟩ op = some (r',result) ∧
    (result = .ok () ↔ (NsMap.ofEntries l).Succeeds f op) ∧ IsMap r' ((NsMap.ofEntries l).next f op)
lemma agrees_iff {x} (h : Registry.step f ⟨l.map some,l.length⟩ op = some x) : Agrees f l op ↔
      (x.2 = .ok () ↔ (NsMap.ofEntries l).Succeeds f op) ∧ IsMap x.1 ((NsMap.ofEntries l).next f op) := by
  constructor
  · rintro ⟨_,_,h',hagrees⟩
    cases h.symm.trans h'
    exact hagrees
  · exact fun hagrees => ⟨x.1,x.2,h,hagrees⟩

lemma agrees_create {entry} (hl : (l.map (·.id)).Nodup) :
    Agrees f l (.create entry) ↔ NsOp.Fits f (NsMap.ofEntries l) (.create entry) := by
  have h : Registry.step f ⟨l.map some,l.length⟩ (.create entry) = _ := entryCreate_live
  rw [agrees_iff h,NsMap.Succeeds,NsMap.next,NsOp.Fits]
  cases entry.addr with
  | error => simp
  | ok id =>
    cases hid : NsMap.ofEntries l id with
    | some => cases entry.cs <;> simpa [hid] using isMap_live hl
    | none =>
      cases entry.cs with
      | error => simp [hid]
      | ok cs =>
        have hnew : id ∉ l.map (·.id) := NsMap.ofEntries_eq_none.1 hid
        have hset := NsMap.ofEntries_concat
          (e := ⟨entry.name,id,some cs,localType entry.type,entry.version⟩) hnew
        simp only [hid,Except.ok.injEq,forall_eq',exists_eq_left',exists_eq',implies_true,true_and,iff_true]
        rw [isMap_live_iff,map_append]
        refine ⟨?_,by simp,hset.symm⟩
        exact nodup_append.2 ⟨hl,by simp,by simpa using hnew⟩

lemma not_isMap_saved {id n m x}
    (h : Registry.saved f ⟨eraseId id (l.map some) ++ [none],n⟩ = some x) : ¬IsMap x.1 m := by
  intro hmap
  rw [Registry.saved] at h
  split at h
  · cases h
  · cases h
    exact hmap.live (mem_append_right _ (mem_singleton.2 rfl))

lemma agrees_update {entry} (hl : (l.map (·.id)).Nodup) :
    Agrees f l (.update entry) ↔ NsOp.Fits f (NsMap.ofEntries l) (.update entry) := by
  have h : Registry.step f ⟨l.map some,l.length⟩ (.update entry) = _ := entryUpdate_live
  cases haddr : entry.addr with
  | error =>
    rw [haddr] at h
    rw [agrees_iff h,NsMap.Succeeds,NsMap.next,NsOp.Fits,haddr]
    simpa using isMap_live hl
  | ok id =>
    rw [haddr] at h
    cases hid : NsMap.ofEntries l id with
    | none =>
      simp only [hid] at h
      rw [agrees_iff h,NsMap.Succeeds,NsMap.next,NsOp.Fits,haddr]
      cases entry.cs <;> simpa [hid] using isMap_live hl
    | some =>
      refine iff_of_false ?_ fun hfits => nomatch hid.symm.trans (hfits id haddr)
      rintro ⟨r',result,hstep,hok,hmap'⟩
      cases hcs : entry.cs with
      | error =>
        simp only [hid,hcs] at h
        cases h.symm.trans hstep
        cases hok.2 ⟨id,haddr,fun hn => nomatch hid.symm.trans hn⟩
      | ok =>
        simp only [hid,hcs] at h
        exact not_isMap_saved (h.symm.trans hstep) hmap'

lemma agrees_delete {entry} (hl : (l.map (·.id)).Nodup) : Agrees f l (.delete entry) := by
  have h : Registry.step f ⟨l.map some,l.length⟩ (.delete entry) = _ := entryDelete_live
  rw [agrees_iff h,NsMap.Succeeds,NsMap.next]
  cases entry.addr with
  | error => simpa using isMap_live hl
  | ok id =>
    cases hid : NsMap.ofEntries l id with
    | none =>
      have hset : (NsMap.ofEntries l).set id none = .ofEntries l := by
        rw [← hid]
        exact update_eq_self id _
      simpa [hid,hset] using isMap_live hl
    | some =>
      have hmem : id ∈ l.map (·.id) := by
        by_contra hn
        cases hid.symm.trans (NsMap.ofEntries_eq_none.2 hn)
      obtain ⟨e,he,heid⟩ := mem_map.1 hmem
      simp only [hid,Except.ok.injEq,exists_eq_left',ne_eq,reduceCtorEq,not_false_eq_true,true_and]
      rw [isMap_live_iff]
      refine ⟨hl.sublist (eraseP_sublist.map _),?_,(NsMap.ofEntries_eraseP hl).symm⟩
      exact (length_eraseP_of_mem he (decide_eq_true heid)).symm

lemma agrees_load {content} (hl : (l.map (·.id)).Nodup) :
    Agrees f l (.load content) ↔ NsOp.Fits f (NsMap.ofEntries l) (.load content) := by
  have h : Registry.step f ⟨l.map some,l.length⟩ (.load content) = some _ := rfl
  rw [agrees_iff h]
  cases f with
  | false => simpa [NsMap.Succeeds,NsMap.next,NsOp.Fits,Registry.load] using isMap_live hl
  | true =>
    cases content with
    | unreadable => simpa [NsMap.Succeeds,NsMap.next,NsOp.Fits,Registry.load] using isMap_live hl
    | broken => simpa [NsMap.Succeeds,NsMap.next,NsOp.Fits,Registry.load] using isMap_new
    | entries l' =>
      have hclear : (if l.length ≠ 0 then Registry.new else ⟨l.map some,l.length⟩) = ⟨[],0⟩ := by cases l <;> rfl
      have hload : Registry.load true ⟨l.map some,l.length⟩ (.entries l') = (⟨l'.map some,l'.length⟩,.ok ()) := by
        simp only [Registry.load,hclear]
        rfl
      rw [hload,isMap_live_iff]
      simp [NsMap.Succeeds,NsMap.next,NsOp.Fits]

lemma agrees_iff_fits (hl : (l.map (·.id)).Nodup) : Agrees f l op ↔ op.Fits f (NsMap.ofEntries l) := by
  cases op with
  | create => exact agrees_create hl
  | update => exact agrees_update hl
  | delete => exact iff_of_true (agrees_delete hl) trivial
  | load => exact agrees_load hl

lemma behaves_iff {r m ops} (h : IsMap r m) :
    Behaves f r m ops ↔ Lib.Along (fun m op => some (m.next f op)) (fun m op => op.Fits f m) m ops := by
  induction ops generalizing r m with
  | nil => exact iff_of_true h trivial
  | cons op ops ih =>
    obtain ⟨entries,n⟩ := r
    obtain ⟨l,rfl⟩ := exists_live h.live
    obtain ⟨hl,rfl,rfl⟩ := isMap_live_iff.1 h
    constructor
    · rintro ⟨-,r',result,hstep,hok,hrest⟩
      refine ⟨(agrees_iff_fits hl).1 ⟨r',result,hstep,hok,hrest.isMap⟩,?_⟩
      rintro m' ⟨⟩
      exact (ih hrest.isMap).1 hrest
    · rintro ⟨hop,hops⟩
      obtain ⟨r',result,hstep,hok,hmap⟩ := (agrees_iff_fits hl).2 hop
      exact ⟨h,r',result,hstep,hok,(ih hmap).2 (hops _ rfl)⟩

/-- The registry is a map along these operations exactly if they fit the map that they make. -/
theorem registry_isMap_iff (hasFile : Bool) (ops : List NsOp) :
    Behaves hasFile .new .empty ops ↔
      Lib.Along (fun m op => some (m.next hasFile op)) (fun m op => op.Fits hasFile m) .empty ops :=
  behaves_iff isMap_new

def hostEntry (host : Bytes) : NsEntry where
  addr := .ok ⟨.replicate 16 1⟩
  cs := .ok (IoCs.zero.set .hostName (some host))
  type := entryTypeHost
  name := some host
  version := 1

/-- An entry that is updated is freed, and the next lookup of its id reads it. -/
theorem updated_not_isMap :
    ¬Behaves false .new .empty [.create (hostEntry (ascii "a.com")),.update (hostEntry (ascii "b.com"))] := by
  rintro ⟨-,r,_,hcreate,-,-,r',_,hupdate,-,hmap⟩
  cases hcreate
  cases hupdate
  exact hmap.live (mem_append_right _ (mem_singleton.2 rfl))

end EdgeProxy.Ns
