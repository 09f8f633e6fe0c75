import EdgeProxy.Ns.Store

/-! # What is written to the file

The value that encoding a registry builds, and what is left of it when memory runs out or parson refuses a string.
-/
namespace EdgeProxy.Ns
open Base Lib Cs List Option Prod GenericEntry
open Codec hiding Bytes

variable {x y : JsonBuilder Unit} {s t : JsonDoc} {e : Stop}

lemma run_bind : (x >>= fun _ => y).run s = ExceptT.bindCont (fun _ => y) (x.run s).1 (x.run s).2 :=
  rfl
lemma run_bind_ok (h : x.run s = (.ok (),t)) : (x >>= fun _ => y).run s = y.run t := by
  rw [run_bind,h]
  rfl
lemma run_bind_error (h : x.run s = (.error e,t)) : (x >>= fun _ => y).run s = (.error e,t) := by
  rw [run_bind,h]
  rfl

def Adds (x : JsonBuilder Unit) (name : String) (value : Option Json) : Prop :=
  ∀ members memory, name ∉ members.map Prod.fst →
    (∀ v ∈ value, memory ≠ 0 → x.run ⟨.object members,memory⟩ = (.ok (),⟨.object (members ++ [(name,v)]),memory - 1⟩)) ∧
    (value = none ∨ memory = 0 → ∃ e memory', x.run ⟨.object members,memory⟩ = (.error e,⟨.object members,memory'⟩))
def AddsAll (x : JsonBuilder Unit) (names : List String) (new : Option (List (String × Json))) : Prop :=
  ∀ members memory, (members.map Prod.fst ++ names).Nodup → (∀ ms ∈ new, ms.length ≤ memory →
      x.run ⟨.object members,memory⟩ = (.ok (),⟨.object (members ++ ms),memory - ms.length⟩)) ∧
    ((∀ ms ∈ new, memory < ms.length) → ∃ e memory' ms, x.run ⟨.object members,memory⟩ =
      (.error e,⟨.object (members ++ ms),memory'⟩) ∧ ms.map Prod.fst <+: names ∧ ms.length < names.length)
lemma addsAll_nil : AddsAll (pure ()) [] (some []) := by
  intro members memory hnodup
  refine ⟨?_,fun h => absurd (h [] rfl) (Nat.not_lt_zero _)⟩
  rintro ms ⟨⟩ -
  rw [append_nil]
  rfl

lemma AddsAll.cons {name names value new} (hy : AddsAll y names new) (hx : Adds x name value) :
    AddsAll (x >>= fun _ => y) (name :: names) (value.bind fun v => new.map ((name,v) :: ·)) := by
  intro members memory hnodup
  have hname : name ∉ members.map fst := by
    rw [nodup_append] at hnodup
    exact fun hm => hnodup.2.2 name hm name mem_cons_self rfl
  obtain ⟨hadds,hfails⟩ := hx members memory hname
  have hrest : ∀ v, ((members ++ [(name,v)]).map fst ++ names).Nodup := by
    intro v
    rw [map_append,append_assoc]
    exact hnodup
  constructor
  · intro ms hms hmemory
    obtain ⟨v,hv,hms⟩ := bind_eq_some_iff.1 hms
    obtain ⟨ms',hms',rfl⟩ := map_eq_some_iff.1 hms
    rw [length_cons] at hmemory
    rw [run_bind_ok (hadds v hv (by omega)),(hy _ _ (hrest v)).1 ms' hms' (by omega),append_assoc,
      Nat.sub_sub,Nat.add_comm 1]
    rfl
  · intro hshort
    by_cases hv : value = none ∨ memory = 0
    · obtain ⟨e,memory',hrun⟩ := hfails hv
      refine ⟨e,memory',[],?_, nil_prefix,Nat.succ_pos _⟩
      rw [run_bind_error hrun,append_nil]
    · rw [not_or] at hv
      obtain ⟨v,rfl⟩ := ne_none_iff_exists'.1 hv.1
      have hlt : ∀ ms ∈ new, memory - 1 < ms.length := by
        intro ms hms
        have := hshort ((name,v) :: ms) (by rw [hms]; rfl)
        rw [length_cons] at this
        omega
      obtain ⟨e,memory',ms,hrun,hpre,hlen⟩ := (hy _ _ (hrest v)).2 hlt
      refine ⟨e,memory',(name,v) :: ms,?_,cons_prefix_cons.2 ⟨rfl,hpre⟩,Nat.succ_lt_succ hlen⟩
      rw [run_bind_ok (hadds v rfl hv.2),hrun,append_assoc]
      rfl

variable {τ : Type} (lib : JsonLibrary τ)

def stringValue (s : Option Bytes) : Option Json :=
  s.bind fun s =>
    let string := s.takeWhile (· ≠ 0)
    if lib.accepts string then some (.string string) else none

def uintValue (v : UInt32) : Json :=
  .number (toDouble v.toNat)
def GenericEntry.names (e : GenericEntry) : List String :=
  if e.type ≠ entryTypeGw then ["name","id","connection-string","type","version"]
  else ["name","id","connection-string","version"]

def GenericEntry.members (e : GenericEntry) : Option (List (String × Json)) :=
  (stringValue lib e.name).bind fun name =>
  (stringValue lib (some (ioRefToSTRING e.id))).bind fun id =>
  (stringValue lib (e.cs.map ioCsToString)).bind fun cs =>
    some (("name",name) :: ("id",id) :: ("connection-string",cs) ::
      if e.type ≠ entryTypeGw then [("type",uintValue e.type),("version",uintValue e.version)]
      else [("version",uintValue e.version)])

variable {lib}

lemma jsonAdd_eq {write value memory} : (jsonAdd write).run ⟨value,memory + 1⟩ = match write.run value with
      | .error e => (.error e,⟨value,memory⟩)
      | .ok (_,value') => (.ok (),⟨value',memory⟩) :=
  rfl

lemma adds_jsonAdd {write name value} (hsome : ∀ v ∈ value, write = jsonWriteValue (some name) v)
    (hnone : value = none → ∃ e, ∀ doc, write.run doc = .error e) : Adds (jsonAdd write) name value := by
  intro members memory hname
  cases memory with
  | zero => exact ⟨fun _ _ h => absurd rfl h,fun _ => ⟨_,_,rfl⟩⟩
  | succ =>
    refine ⟨?_,?_⟩
    · intro v hv _
      rw [hsome v hv,← setMember_of_notMem hname]
      rfl
    · rintro (hv | hm)
      · obtain ⟨e,hwrite⟩ := hnone hv
        rw [jsonAdd_eq,hwrite]
        exact ⟨_,_,rfl⟩
      · cases hm

lemma cstr_concat_zero (s : Bytes) : cstr (s ++ [0]) = some (s.takeWhile (· ≠ 0)) := by
  have htake : (s ++ [0]).takeWhile (· ≠ 0) = s.takeWhile (· ≠ 0) := by
    induction s with
    | nil => rfl
    | cons b s ih => rw [cons_append,takeWhile_cons,takeWhile_cons,ih]
  rw [cstr,if_pos (by simp),htake]

variable (lib) in
lemma adds_string (name : String) (s : Option Bytes) :
    Adds (jsonAdd (jsonWriteString lib (some name) (s.map (· ++ [0])))) name (stringValue lib s) := by
  cases s with
  | none => exact adds_jsonAdd nofun fun _ => ⟨_,fun _ => rfl⟩
  | some s =>
    have hwrite : jsonWriteString lib (some name) (some (s ++ [0])) =
        if lib.accepts (s.takeWhile (· ≠ 0)) then jsonWriteValue (some name) (.string (s.takeWhile (· ≠ 0)))
        else throw (.err .outOfMemory) := by
      rw [jsonWriteString,cstr_concat_zero]
    rw [map_some,hwrite,stringValue,bind_some]
    dsimp only
    split
    · refine adds_jsonAdd ?_ nofun
      rintro v ⟨⟩
      rfl
    · exact adds_jsonAdd nofun fun _ => ⟨_,fun _ => rfl⟩

variable (lib) in
lemma adds_uint (name : String) (v : UInt32) :
    Adds ((jsonBuilder lib).encodeUint32 (some name) v) name (some (uintValue v)) := by
  refine adds_jsonAdd ?_ nofun
  rintro v' ⟨⟩
  rfl

variable (lib) in
lemma adds_cs (cs : Option IoCs) :
    Adds (ioEncodeCs (jsonBuilder lib) cs) "connection-string" (stringValue lib (cs.map ioCsToString)) := by
  cases cs with
  | none =>
    intro members memory _
    exact ⟨nofun,fun _ => ⟨.undefined,memory,rfl⟩⟩
  | some cs =>
    have hencode : ioEncodeCs (jsonBuilder lib) (some cs) =
        jsonAdd (jsonWriteString lib "connection-string" ((some (ioCsToString cs)).map (· ++ [0]))) := by
      simp [ioEncodeCs,jsonBuilder]
    rw [hencode]
    exact adds_string lib _ _

variable {ms : List (String × Json)}

lemma addsAll_head (e : GenericEntry) {x y names} (hy : AddsAll y names (some ms)) (hx : x = do
      jsonAdd (jsonWriteString lib "name" (e.name.map (· ++ [0])))
      jsonAdd (jsonWriteString lib "id" ((some (ioRefToSTRING e.id)).map (· ++ [0])))
      ioEncodeCs (jsonBuilder lib) e.cs
      y) : AddsAll x ("name" :: "id" :: "connection-string" :: names)
      ((stringValue lib e.name).bind fun name => (stringValue lib (some (ioRefToSTRING e.id))).bind fun id =>
        (stringValue lib (e.cs.map ioCsToString)).bind fun cs =>
          some (("name",name) :: ("id",id) :: ("connection-string",cs) :: ms)) := by
  have hall := ((hy.cons (adds_cs lib e.cs)).cons (adds_string lib "id" (some (ioRefToSTRING e.id)))).cons
    (adds_string lib "name" e.name)
  rw [← hx] at hall
  revert hall
  cases stringValue lib e.name with
  | none => exact id
  | some =>
    cases stringValue lib (some (ioRefToSTRING e.id)) with
    | none => exact id
    | some => cases stringValue lib (e.cs.map ioCsToString) <;> exact id

lemma addsAll_entry (e : GenericEntry) : AddsAll (genericEntryEncode (jsonBuilder lib) e) e.names (e.members lib) := by
  have hversion := addsAll_nil.cons (adds_uint lib "version" e.version)
  rw [GenericEntry.names,GenericEntry.members]
  by_cases htype : e.type = entryTypeGw
  · rw [if_neg (not_not_intro htype),if_neg (not_not_intro htype)]
    exact addsAll_head e hversion (by simp [genericEntryEncode,jsonBuilder,ioEncodeRef,htype])
  · rw [if_pos htype,if_pos htype]
    refine addsAll_head e (hversion.cons (adds_uint lib "type" e.type)) ?_
    simp [genericEntryEncode,jsonBuilder,ioEncodeRef,htype]
lemma GenericEntry.members_names {e : GenericEntry} (h : e.members lib = some ms) : ms.map fst = e.names := by
  obtain ⟨name,-,h⟩ := bind_eq_some_iff.1 h
  obtain ⟨id,-,h⟩ := bind_eq_some_iff.1 h
  obtain ⟨cs,-,⟨⟩⟩ := bind_eq_some_iff.1 h
  rw [names]
  split <;> rfl

lemma GenericEntry.length_members {e : GenericEntry} (h : e.members lib = some ms) : ms.length = e.names.length := by
  rw [← e.members_names h,length_map]
lemma GenericEntry.nodup_names (e : GenericEntry) : e.names.Nodup := by
  rw [names]
  split <;> decide

lemma GenericEntry.version_notMem {e : GenericEntry} {names} (h : names <+: e.names)
    (hlt : names.length < e.names.length) : "version" ∉ names := by
  have hnames : ∃ init, e.names = init ++ ["version"] := by
    rw [GenericEntry.names]
    split
    · exact ⟨["name","id","connection-string","type"],rfl⟩
    · exact ⟨["name","id","connection-string"],rfl⟩
  obtain ⟨init,hinit⟩ := hnames
  have hnodup := hinit ▸ e.nodup_names
  rw [hinit] at h hlt
  have hpre : names <+: init := by
    rcases prefix_concat_iff.1 h with rfl | h
    · exact absurd hlt (Nat.lt_irrefl _)
    · exact h
  exact fun hm => disjoint_of_nodup_append hnodup (hpre.subset hm) mem_cons_self

section

variable {τ : Type} {lib : JsonLibrary τ} {e : GenericEntry} {l : List GenericEntry} {items : List Json} {memory : ℕ}

def GenericEntry.value (lib : JsonLibrary τ) (e : GenericEntry) : Option Json :=
  (e.members lib).map .object
def registryValue (lib : JsonLibrary τ) (l : List GenericEntry) : Option Json :=
  (l.mapM (GenericEntry.value lib)).map fun items => .object [("entries",.array items)]
def GenericEntry.size (e : GenericEntry) : ℕ :=
  1 + e.names.length
def sizes (l : List GenericEntry) : ℕ :=
  (l.map GenericEntry.size).sum
lemma sizes_cons (e : GenericEntry) (l : List GenericEntry) : sizes (e :: l) = e.size + sizes l :=
  sum_cons

lemma sizes_lt_append (done rest : List GenericEntry) (e : GenericEntry) : sizes done < sizes (done ++ e :: rest) := by
  have happend : sizes (done ++ e :: rest) = sizes done + sizes (e :: rest) := by
    rw [sizes,map_append,sum_append]
    rfl
  have hsize : 0 < e.size := Nat.lt_add_right _ Nat.one_pos
  rw [happend,sizes_cons]
  omega
lemma run_entriesEncode_cons : (genericEntriesEncode (jsonBuilder lib) (e :: l)).run ⟨.array items,memory + 1⟩ =
    match (genericEntryEncode (jsonBuilder lib) e).run ⟨.object [],memory⟩ with
    | (.ok (),doc) => (genericEntriesEncode (jsonBuilder lib) l).run ⟨.array (items ++ [doc.value]),doc.memory⟩
    | (.error stop,doc) => (.error stop,⟨.array (items ++ [doc.value]),doc.memory⟩) := by
  have hnest : let r := (genericEntryEncode (jsonBuilder lib) e).run ⟨.object [],memory⟩
      ((jsonBuilder lib).encObject none false (genericEntryEncode (jsonBuilder lib) e)).run
        ⟨.array items,memory + 1⟩ = (r.1,⟨.array (items ++ [r.2.value]),r.2.memory⟩) := rfl
  revert hnest
  rcases (genericEntryEncode (jsonBuilder lib) e).run ⟨.object [],memory⟩ with ⟨stop | u,doc⟩
  · exact run_bind_error
  · exact run_bind_ok
lemma encode_cons_ok {v : Json} (hv : e.value lib = some v) (h : e.size ≤ memory) :
    (genericEntriesEncode (jsonBuilder lib) (e :: l)).run ⟨.array items,memory⟩ =
      (genericEntriesEncode (jsonBuilder lib) l).run ⟨.array (items ++ [v]),memory - e.size⟩ := by
  obtain ⟨ms,hms,rfl⟩ := map_eq_some_iff.1 hv
  rw [size] at h ⊢
  obtain ⟨memory,rfl⟩ : ∃ n, memory = n + 1 := ⟨memory - 1,by omega⟩
  have hlen := e.length_members hms
  have hrun := (addsAll_entry e [] memory e.nodup_names).1 ms hms (by omega)
  rw [run_entriesEncode_cons,hrun,hlen,Nat.add_comm 1,Nat.add_sub_add_right]
  rfl

variable (l items) in
/-- A failure leaves no entry if there is no memory for the object, and otherwise one without a version. -/
theorem encode_cons_error (h : ∀ v ∈ e.value lib, memory < e.size) :
    ∃ stop memory' rest, (genericEntriesEncode (jsonBuilder lib) (e :: l)).run ⟨.array items,memory⟩ =
      (.error stop,⟨.array (items ++ rest),memory'⟩) ∧
        (memory = 0 ∧ rest = [] ∨ 0 < memory ∧ ∃ ms, rest = [.object ms] ∧ "version" ∉ ms.map fst) := by
  cases memory with
  | zero =>
    refine ⟨.err .outOfMemory,0,[],?_,.inl ⟨rfl,rfl⟩⟩
    rw [append_nil]
    rfl
  | succ memory =>
    have hshort : ∀ ms ∈ e.members lib, memory < ms.length := by
      intro ms hms
      have hlt := h (.object ms) (by rw [value,hms]; rfl)
      rw [e.length_members hms]
      rw [size] at hlt
      omega
    obtain ⟨stop,memory',ms,hrun,hpre,hlt⟩ := (addsAll_entry e [] memory e.nodup_names).2 hshort
    refine ⟨stop,memory',[.object ms],?_,.inr ⟨Nat.succ_pos _,ms,rfl,?_⟩⟩
    · rw [run_entriesEncode_cons,hrun]
      rfl
    · exact e.version_notMem hpre (by rwa [length_map])

/-- Entries that can be written are written before the others. -/
theorem encode_append {done new} (hdone : done.mapM (value lib) = some new) (h : sizes done ≤ memory) :
    (genericEntriesEncode (jsonBuilder lib) (done ++ l)).run ⟨.array items,memory⟩ =
      (genericEntriesEncode (jsonBuilder lib) l).run ⟨.array (items ++ new),memory - sizes done⟩ := by
  induction done generalizing items memory new with
  | nil =>
    rw [mapM_nil] at hdone
    cases hdone
    rw [append_nil]
    rfl
  | cons e done ih =>
    rw [mapM_cons] at hdone
    obtain ⟨v,hv,hdone⟩ := bind_eq_some_iff.1 hdone
    obtain ⟨new',hnew,⟨⟩⟩ := bind_eq_some_iff.1 hdone
    rw [sizes_cons] at h
    rw [cons_append,encode_cons_ok hv (by omega),ih hnew (by omega),append_assoc,Nat.sub_sub]
    rfl

lemma exists_stuck (h : ∀ new ∈ l.mapM (value lib), memory < sizes l) :
    ∃ done e rest new, l = done ++ e :: rest ∧ done.mapM (value lib) = some new ∧ sizes done ≤ memory ∧
      ∀ v ∈ e.value lib, memory - sizes done < e.size := by
  induction l generalizing memory with
  | nil => exact absurd (h [] rfl) (Nat.not_lt_zero _)
  | cons e l ih =>
    by_cases he : ∃ v, e.value lib = some v ∧ e.size ≤ memory
    · obtain ⟨v,hv,hsize⟩ := he
      have hrest : ∀ new ∈ l.mapM (value lib), memory - e.size < sizes l := by
        intro new hnew
        have hlt := h (v :: new) (by rw [mapM_cons,hv,hnew]; rfl)
        rw [sizes_cons] at hlt
        omega
      obtain ⟨done,e',rest,new,rfl,hnew,hle,hstuck⟩ := ih hrest
      refine ⟨e :: done,e',rest,v :: new,rfl,by rw [mapM_cons,hv,hnew]; rfl,?_,?_⟩
      · rw [sizes_cons]
        omega
      · rw [sizes_cons,← Nat.sub_sub]
        exact hstuck
    · refine ⟨[],e,l,[],rfl,rfl,Nat.zero_le _,fun v hv => ?_⟩
      have hsize : ¬e.size ≤ memory := fun hle => he ⟨v,hv,hle⟩
      omega

end

variable {τ : Type} {lib : JsonLibrary τ} {l : List GenericEntry} {memory : ℕ}

lemma run_registryEncode {r} (h : (genericEntriesEncode (jsonBuilder lib) l).run ⟨.array [],memory⟩ = r) :
    (genericRegistryEncode (jsonBuilder lib) l).run ⟨.object [],memory + 1⟩ =
      (r.1,⟨.object [("entries",r.2.value)],r.2.memory⟩) := by
  subst h
  have hencode : genericRegistryEncode (jsonBuilder lib) l =
      (jsonBuilder lib).encArray "entries" l.length (genericEntriesEncode (jsonBuilder lib) l) := by
    simp [genericRegistryEncode,jsonBuilder]
  rw [hencode]
  rfl
lemma registryEncode_ok {v} (hv : registryValue lib l = some v) (h : sizes l < memory) :
    ∃ memory', (genericRegistryEncode (jsonBuilder lib) l).run ⟨.object [],memory⟩ = (.ok (),⟨v,memory'⟩) := by
  obtain ⟨items,hitems,rfl⟩ := map_eq_some_iff.1 hv
  obtain ⟨memory,rfl⟩ : ∃ n, memory = n + 1 := ⟨memory - 1,by omega⟩
  have hrun : (genericEntriesEncode (jsonBuilder lib) (l ++ [])).run ⟨.array [],memory⟩ = _ :=
    encode_append hitems (by omega)
  rw [append_nil] at hrun
  rw [run_registryEncode hrun]
  exact ⟨_,rfl⟩
lemma registryEncode_between {v done rest e} (hv : registryValue lib done = some v) :
    ∃ memory', (genericRegistryEncode (jsonBuilder lib) (done ++ e :: rest)).run ⟨.object [],sizes done + 1⟩ =
      (.error (.err .outOfMemory),⟨v,memory'⟩) := by
  obtain ⟨items,hitems,rfl⟩ := map_eq_some_iff.1 hv
  have hrun : (genericEntriesEncode (jsonBuilder lib) (done ++ e :: rest)).run ⟨.array [],sizes done⟩ = _ :=
    encode_append hitems le_rfl
  rw [Nat.sub_self] at hrun
  rw [run_registryEncode hrun]
  exact ⟨_,rfl⟩

/-- What is left when encoding fails: an object without entries, the entries up to one for which there is no memory,
or those entries and one without a version. -/
inductive Remains (lib : JsonLibrary τ) (l : List GenericEntry) (memory : ℕ) : Json → Prop where
  | nothing : Remains lib l memory (.object [])
  | between {done e rest items} : l = done ++ e :: rest → done.mapM (GenericEntry.value lib) = some items →
      memory = sizes done + 1 → Remains lib l memory (.object [("entries",.array items)])
  | within {items ms} : "version" ∉ ms.map Prod.fst →
      Remains lib l memory (.object [("entries",.array (items ++ [.object ms]))])

lemma registryEncode_error (h : ∀ v ∈ registryValue lib l, memory ≤ sizes l) :
    ∃ stop v memory', (genericRegistryEncode (jsonBuilder lib) l).run ⟨.object [],memory⟩ =
      (.error stop,⟨v,memory'⟩) ∧ Remains lib l memory v := by
  cases memory with
  | zero =>
    refine ⟨.err .outOfMemory,_,0,?_,.nothing⟩
    rfl
  | succ memory =>
    have hshort : ∀ new ∈ l.mapM (value lib), memory < sizes l := by
      intro new hnew
      exact h _ (by rw [registryValue,hnew]; rfl)
    obtain ⟨done,e,rest,new,hl,hnew,hle,hstuck⟩ := exists_stuck hshort
    have hrun : (genericEntriesEncode (jsonBuilder lib) (done ++ e :: rest)).run ⟨.array [],memory⟩ = _ :=
      encode_append hnew hle
    obtain ⟨stop,memory',tail,hfail,htail⟩ := encode_cons_error rest ([] ++ new) hstuck
    rw [hl,run_registryEncode (hrun.trans hfail)]
    refine ⟨stop,_,memory',rfl,?_⟩
    rcases htail with ⟨hzero,rfl⟩ | ⟨-,ms,rfl,hversion⟩
    · rw [append_nil]
      exact .between rfl hnew (by omega)
    · exact .within hversion

lemma mapM_value {items} (h : l.mapM (value lib) = some items) :
    items.length = l.length ∧ ∀ v ∈ items, ∃ e ∈ l, e.value lib = some v := by
  rw [mapM_eq_filterMap] at h
  split at h
  case isTrue hall =>
      cases h
      exact ⟨filterMap_length_eq_length.2 hall,fun v hv => mem_filterMap.1 hv⟩
  case isFalse => cases h
lemma registryValue_ne_within {items : List Json} {ms} (h : "version" ∉ ms.map fst) :
    registryValue lib l ≠ some (.object [("entries",.array (items ++ [.object ms]))]) := by
  intro hv
  obtain ⟨items',hitems,⟨⟩⟩ := map_eq_some_iff.1 hv
  obtain ⟨e,-,he⟩ := (mapM_value hitems).2 (.object ms) (mem_append_right _ mem_cons_self)
  obtain ⟨ms',hms,⟨⟩⟩ := map_eq_some_iff.1 he
  rw [e.members_names hms,GenericEntry.names] at h
  split at h <;> exact h (by decide)

end EdgeProxy.Ns
