import Mathlib.Data.List.Sublists
import EdgeProxy.Ns.Registry

/-! # Lookups by type

The generic registry compares the bits of a type, and the registry of a hub builds a query on the tags that it set for
some of the bits. What a hub answers is given.
-/
namespace EdgeProxy.Ns
open Base Registry Cs List

def resultOf {α : Type} : List α → Except PrxError (List α)
  | [] => .error .notFound
  | found => .ok found
lemma resultOf_getD {α : Type} (found : List α) : (resultOf found).toOption.getD [] = found := by
  cases found <;> rfl
def Registry.entryByType (r : Registry) (type : UInt32) : Option (Except PrxError (List GenericEntry)) := do
  let entries ← r.entries.mapM id
  pure (resultOf (entries.filter fun next => type = next.type &&& type))

inductive Tag where
  | proxy
  | host
  | link
deriving DecidableEq

structure Twin where
  type : UInt32
  isSet : Tag → Bool
  address : IoRef
  name : Option Bytes
  version : UInt32

def Tag.bit : Tag → UInt32
  | .proxy => entryTypeProxy
  | .host => entryTypeHost
  | .link => entryTypeLink

/-- The tags that `prx_ns_iot_hub_registry_entry_update` sets for a new twin. -/
def twinOf (id : IoRef) (entry : NsEntry) : Twin where
  type := entry.type &&& ~~~entryTypeStartup
  isSet tag := entry.type &&& tag.bit ≠ 0
  address := id
  name := entry.name
  version := entry.version

abbrev Hub := String → List Twin → List Twin
def Tag.condition : Tag → String
  | .proxy => "tags.proxy=1"
  | .host => "tags.host=1"
  | .link => "tags.link=1"
def selectDevices : String :=
  "SELECT * FROM devices WHERE "
def addCondition (type : UInt32) (tag : Tag) : String × Bool → String × Bool
  | (query,logicConcat) =>
    if type &&& tag.bit ≠ 0 then ((if logicConcat then query ++ " OR " else query) ++ tag.condition,true)
    else (query,logicConcat)
def hubEntryByType (hub : Hub) (twins : List Twin) (type : UInt32) : Except PrxError (List Twin) :=
  match addCondition type .link (addCondition type .host (addCondition type .proxy (selectDevices,false))) with
  -- the type did not yield anything to look for
  | (_,false) => .error .notFound
  | (query,true) => resultOf (hub query twins)
def queryFor : List Tag → String
  | [] => selectDevices
  | tag :: tags => tags.foldl (fun query tag => query ++ " OR " ++ tag.condition) (selectDevices ++ tag.condition)

/-- A hub that finds the twins with one of some tags. -/
def Hub.Answers (hub : Hub) : Prop :=
  ∀ tags twins, tags.Sublist [.proxy,.host,.link] → tags ≠ [] →
    hub (queryFor tags) twins = twins.filter fun twin => tags.any twin.isSet

structure Known where
  id : IoRef
  cs : IoCs
  type : UInt32
  name : Option Bytes
  version : UInt32

def Known.entry (e : Known) : NsEntry :=
  ⟨.ok e.id,.ok e.cs,e.type,e.name,e.version⟩
def fileRegistry (entries : List Known) : Option Registry :=
  entries.foldlM (fun r e => (r.entryCreate false e.entry).map Prod.fst) .new

/-- Both registries select the same of these entries. -/
def SelectAlike (hub : Hub) (type : UInt32) (entries : List Known) : Prop :=
  ∃ r found, fileRegistry entries = some r ∧ r.entryByType type = some found ∧
    ∀ id, (∃ e ∈ found.toOption.getD [], e.id = id) ↔
      ∃ twin ∈ (hubEntryByType hub (entries.map fun e => twinOf e.id e.entry) type).toOption.getD [], twin.address = id

lemma or_and_distrib (a b c : UInt32) : (a ||| b) &&& c = (a &&& c) ||| (b &&& c) := by
  rw [← UInt32.toNat_inj]
  simp [UInt32.toNat_and,UInt32.toNat_or,Nat.and_or_distrib_right]
lemma le_eight_cases {x : UInt32} (h : x ≤ 8) :
    x = 0 ∨ x = 1 ∨ x = 2 ∨ x = 3 ∨ x = 4 ∨ x = 5 ∨ x = 6 ∨ x = 7 ∨ x = 8 := by
  grind
lemma Tag.bit_le (tag : Tag) : tag.bit ≤ 8 := by
  cases tag <;> decide

lemma and_bit (t : UInt32) (tag : Tag) : t &&& tag.bit = 0 ∨ t &&& tag.bit = tag.bit := by
  have hself : (t &&& tag.bit) &&& tag.bit = t &&& tag.bit := by rw [UInt32.and_assoc,UInt32.and_self]
  have hle : t &&& tag.bit ≤ 8 := UInt32.le_trans UInt32.and_le_right tag.bit_le
  revert hself
  rcases le_eight_cases hle with h | h | h | h | h | h | h | h | h <;> rw [h] <;> cases tag <;> decide

open Tag

lemma localType_and_bit (t : UInt32) (tag : Tag) : localType t &&& tag.bit = t &&& tag.bit := by
  rw [localType]
  split
  case isFalse => rfl
  case isTrue hproxy =>
    rw [or_and_distrib]
    cases tag with
    | proxy =>
      have hbit : t &&& entryTypeProxy = entryTypeProxy := (and_bit t .proxy).resolve_left hproxy
      rw [bit,hbit]
      decide
    | host | link => exact UInt32.or_zero

lemma localType_and_gw (t : UInt32) : localType t &&& entryTypeGw = entryTypeGw ↔ t &&& entryTypeProxy ≠ 0 := by
  have hproxy : entryTypeGw &&& entryTypeProxy = entryTypeProxy := by decide
  constructor
  · intro h h0
    have hlocal := localType_and_bit t .proxy
    rw [bit,h0,← hproxy,← UInt32.and_assoc,h] at hlocal
    revert hlocal
    decide
  · intro h
    have hself : (t &&& entryTypeGw) &&& entryTypeGw = t &&& entryTypeGw := by rw [UInt32.and_assoc,UInt32.and_self]
    have hle : t &&& entryTypeGw ≤ 8 := UInt32.le_trans UInt32.and_le_right (by decide)
    rw [localType,if_pos h,or_and_distrib]
    revert hself
    rcases le_eight_cases hle with h | h | h | h | h | h | h | h | h <;> rw [h] <;> decide

def Understood (type : UInt32) : Prop :=
  ∀ t, type = localType t &&& type ↔ ∃ tag : Tag, type &&& tag.bit ≠ 0 ∧ t &&& tag.bit ≠ 0

lemma understood_bit (tag : Tag) : Understood tag.bit := by
  intro t
  have hbit : tag.bit ≠ 0 := by cases tag <;> decide
  have hsame : ∀ tag', tag.bit &&& tag'.bit ≠ 0 → tag' = tag := by
    intro tag'
    cases tag <;> cases tag' <;> decide
  rw [localType_and_bit]
  constructor
  · intro h
    refine ⟨tag,by rwa [UInt32.and_self],?_⟩
    rwa [← h]
  · rintro ⟨tag',hshared,hset⟩
    obtain rfl := hsame tag' hshared
    exact ((and_bit t tag').resolve_left hset).symm

lemma understood_gw : Understood entryTypeGw := by
  intro t
  rw [eq_comm,localType_and_gw]
  constructor
  · intro h
    exact ⟨.proxy,by decide,h⟩
  · rintro ⟨tag,hshared,hset⟩
    cases tag with
    | proxy => exact hset
    | host | link => exact absurd rfl hshared
lemma Understood.of_bit {type} (h : Understood type) {tag : Tag} (htag : type &&& tag.bit ≠ 0) :
    type = tag.bit ∨ type = entryTypeGw := by
  have hself : tag.bit &&& tag.bit ≠ 0 := by cases tag <;> decide
  have htype : type = localType tag.bit &&& type := (h tag.bit).2 ⟨tag,htag,hself⟩
  have hle : type ≤ 8 := by
    rw [htype]
    exact UInt32.le_trans UInt32.and_le_left (by cases tag <;> decide)
  revert htag htype
  rcases le_eight_cases hle with rfl | rfl | rfl | rfl | rfl | rfl | rfl | rfl | rfl <;> cases tag <;> decide

lemma understood_iff (type : UInt32) : Understood type ↔
    type = entryTypeHost ∨ type = entryTypeProxy ∨ type = entryTypeLink ∨ type = entryTypeGw := by
  constructor
  · intro h
    by_cases htag : ∃ tag : Tag, type &&& tag.bit ≠ 0
    · obtain ⟨tag,htag⟩ := htag
      rcases h.of_bit htag with rfl | rfl
      · cases tag with
        | proxy => exact .inr (.inl rfl)
        | host => exact .inl rfl
        | link => exact .inr (.inr (.inl rfl))
      · exact .inr (.inr (.inr rfl))
    · -- an entry of just this type is in the file, and a hub looks for nothing
      have hproxy : ¬type &&& entryTypeProxy ≠ 0 := fun hset => htag ⟨.proxy,hset⟩
      have hself : type = localType type &&& type := by rw [localType,if_neg hproxy,UInt32.and_self]
      obtain ⟨tag,hset,-⟩ := (h type).1 hself
      exact absurd ⟨tag,hset⟩ htag
  · rintro (rfl | rfl | rfl | rfl)
    · exact understood_bit .host
    · exact understood_bit .proxy
    · exact understood_bit .link
    · exact understood_gw

variable {hub : Hub} {type : UInt32} {entries : List Known}

def Known.stored (e : Known) : GenericEntry :=
  ⟨e.name,e.id,some e.cs,localType e.type,e.version⟩

open Known

lemma fileRegistry_from {l : List GenericEntry} {n : ℕ} (h : (l.map (·.id) ++ entries.map (·.id)).Nodup) :
    entries.foldlM (fun r e => (r.entryCreate false e.entry).map Prod.fst) ⟨l.map some,n⟩ =
      some (⟨(l ++ entries.map stored).map some,n + entries.length⟩ : Registry) := by
  induction entries generalizing l n with
  | nil => rw [map_nil,append_nil]; rfl
  | cons e entries ih =>
    have hnew : e.id ∉ l.map (·.id) := fun hmem =>
      disjoint_of_nodup_append h hmem mem_cons_self
    have hcreate : entryCreate false ⟨l.map some,n⟩ e.entry = some (⟨(l ++ [e.stored]).map some,n + 1⟩,.ok ()) := by
      rw [entryCreate_live]
      dsimp only [entry]
      rw [NsMap.ofEntries_eq_none.2 hnew]
      rfl
    have hrest : ((l ++ [e.stored]).map (·.id) ++ entries.map (·.id)).Nodup := by
      rw [map_append,append_assoc]
      exact h
    have hlist : l ++ [e.stored] ++ entries.map stored = l ++ (e :: entries).map stored :=
      append_assoc ..
    have hcount : n + 1 + entries.length = n + (e :: entries).length := by
      rw [length_cons]
      omega
    rw [foldlM_cons,hcreate,← hlist,← hcount]
    exact ih hrest

lemma mapM_live (l : List GenericEntry) : (l.map some).mapM id = some l := by
  induction l with
  | nil => rfl
  | cons e l ih =>
    rw [map_cons,mapM_cons,ih]
    rfl
lemma entryByType_live (l : List GenericEntry) (n : ℕ) (type : UInt32) :
    entryByType ⟨l.map some,n⟩ type = some (resultOf (l.filter fun next => type = next.type &&& type)) := by
  rw [entryByType,mapM_live]
  rfl
def askedTags (type : UInt32) : List Tag :=
  [.proxy,.host,.link].filter fun tag => type &&& tag.bit ≠ 0
lemma mem_askedTags {tag : Tag} : tag ∈ askedTags type ↔ type &&& tag.bit ≠ 0 := by
  have hall : tag ∈ [proxy,host,link] := by cases tag <;> decide
  rw [askedTags]
  simp [hall]

lemma addCondition_queryFor (type : UInt32) (tag : Tag) (tags : List Tag) :
    addCondition type tag (queryFor tags,!tags.isEmpty) =
      (queryFor (tags ++ [tag].filter fun tag => type &&& tag.bit ≠ 0),
        !(tags ++ [tag].filter fun tag => type &&& tag.bit ≠ 0).isEmpty) := by
  rw [addCondition]
  by_cases hbit : type &&& tag.bit ≠ 0
  · have hfilter : [tag].filter (fun tag => type &&& tag.bit ≠ 0) = [tag] := by simpa using hbit
    rw [if_pos hbit,hfilter]
    cases tags with
    | nil => rfl
    | cons => simp [queryFor]
  · have hfilter : [tag].filter (fun tag => type &&& tag.bit ≠ 0) = [] := by simpa using hbit
    rw [if_neg hbit,hfilter,append_nil]

lemma addConditions_eq (type : UInt32) :
    addCondition type .link (addCondition type .host (addCondition type .proxy (selectDevices,false))) =
      (queryFor (askedTags type),!(askedTags type).isEmpty) := by
  have hproxy : addCondition type .proxy (selectDevices,false) = _ := addCondition_queryFor type .proxy []
  have hasked : askedTags type = [] ++ [proxy].filter (fun tag => type &&& tag.bit ≠ 0) ++
      [host].filter (fun tag => type &&& tag.bit ≠ 0) ++ [link].filter (fun tag => type &&& tag.bit ≠ 0) := by
    rw [nil_append,← filter_append,← filter_append]
    rfl
  rw [hproxy,addCondition_queryFor,addCondition_queryFor,hasked]
lemma hubEntryByType_getD (hhub : hub.Answers) (twins : List Twin) (type : UInt32) :
    (hubEntryByType hub twins type).toOption.getD [] = twins.filter fun twin => (askedTags type).any twin.isSet := by
  rw [hubEntryByType,addConditions_eq]
  by_cases hasked : askedTags type = []
  · rw [hasked]
    simp [Except.toOption]
  · have hsome : (!(askedTags type).isEmpty) := by simpa using hasked
    rw [hsome]
    dsimp only
    rw [hhub (askedTags type) twins filter_sublist hasked,resultOf_getD]

lemma selectAlike_iff (hhub : hub.Answers) (hids : (entries.map (·.id)).Nodup) : SelectAlike hub type entries ↔
    ∀ id, (∃ e ∈ entries, type = localType e.type &&& type ∧ e.id = id) ↔
      ∃ e ∈ entries, (∃ tag : Tag, type &&& tag.bit ≠ 0 ∧ e.type &&& tag.bit ≠ 0) ∧ e.id = id := by
  have hfile : fileRegistry entries = some ⟨(entries.map stored).map some,0 + entries.length⟩ :=
    fileRegistry_from (l := []) hids
  have hbyType := entryByType_live (entries.map stored) (0 + entries.length) type
  have hhubTags : ∀ e : Known, (askedTags type).any (twinOf e.id e.entry).isSet ↔
      ∃ tag : Tag, type &&& tag.bit ≠ 0 ∧ e.type &&& tag.bit ≠ 0 := by
    intro e
    rw [any_eq_true]
    refine exists_congr fun tag => and_congr mem_askedTags ?_
    exact decide_eq_true_iff
  have hselect : SelectAlike hub type entries ↔ ∀ id,
      (∃ e ∈ (entries.map stored).filter fun next => type = next.type &&& type, e.id = id) ↔
        ∃ twin ∈ (entries.map fun e => twinOf e.id e.entry).filter fun twin => (askedTags type).any twin.isSet,
          twin.address = id := by
    rw [SelectAlike]
    simp only [hfile,Option.some.injEq,exists_and_left,exists_eq_left',hbyType,resultOf_getD,hubEntryByType_getD hhub]
  rw [hselect]
  refine forall_congr' fun id => iff_congr ?_ ?_
  · simp [stored,and_assoc]
  · constructor
    · rintro ⟨twin,htwin,hid⟩
      obtain ⟨hmem,hany⟩ := mem_filter.1 htwin
      obtain ⟨e,he,rfl⟩ := mem_map.1 hmem
      exact ⟨e,he,(hhubTags e).1 hany,hid⟩
    · rintro ⟨e,he,htag,hid⟩
      exact ⟨_,mem_filter.2 ⟨mem_map_of_mem he,(hhubTags e).2 htag⟩,hid⟩

/-- Both registries select the same of any entries exactly for the type of a host, a proxy, a link or a gateway. -/
theorem selectAlike_forall_iff (hhub : hub.Answers) (type : UInt32) :
    (∀ entries, (entries.map Known.id).Nodup → SelectAlike hub type entries) ↔
      type = entryTypeHost ∨ type = entryTypeProxy ∨ type = entryTypeLink ∨ type = entryTypeGw := by
  rw [← understood_iff]
  constructor
  · intro h t
    -- one entry of this type
    have hsingle : ([(⟨⟨.replicate 16 0⟩,.zero,t,none,0⟩)].map Known.id).Nodup := nodup_singleton _
    have halike := (selectAlike_iff hhub hsingle).1 (h _ hsingle) ⟨.replicate 16 0⟩
    simpa using halike
  · intro h entries hids
    refine (selectAlike_iff hhub hids).2 fun id => ?_
    exact exists_congr fun e => and_congr_right fun _ => and_congr_left fun _ => h e.type

def tagHub : Hub :=
  fun query twins =>
    match [Tag.proxy,Tag.host,Tag.link].sublists.find? fun tags => queryFor tags = query with
    | none => []
    | some tags => twins.filter fun twin => tags.any twin.isSet
lemma tagHub_answers : tagHub.Answers := by
  have hall : ∀ tags ∈ [proxy,host,link].sublists,
      [proxy,host,link].sublists.find? (fun tags' => queryFor tags' = queryFor tags) = some tags := by
    decide
  intro tags twins htags _
  rw [tagHub,hall tags (mem_sublists.2 htags)]
theorem proxies_selectAlike : SelectAlike tagHub entryTypeProxy
    [⟨⟨.replicate 16 0⟩,.zero,entryTypeProxy,none,0⟩,⟨⟨.replicate 16 1⟩,.zero,entryTypeHost,none,0⟩] :=
  (selectAlike_forall_iff tagHub_answers entryTypeProxy).2 (.inr (.inl rfl)) _ (by decide)

/-- A proxy that is no host is found in a hub when hosts or proxies are asked for, but not in a file. -/
theorem proxyOrHost_not_selectAlike :
    ¬SelectAlike tagHub (entryTypeProxy ||| entryTypeHost) [⟨⟨.replicate 16 0⟩,.zero,entryTypeProxy,none,0⟩] := by
  have hsingle : ([(⟨⟨.replicate 16 0⟩,.zero,entryTypeProxy,none,0⟩)].map Known.id).Nodup :=
    nodup_singleton _
  intro h
  obtain ⟨e,he,htype,-⟩ := ((selectAlike_iff tagHub_answers hsingle).1 h ⟨.replicate 16 0⟩).2
    ⟨_,mem_singleton.2 rfl,⟨.proxy,by decide,by decide⟩,rfl⟩
  rw [mem_singleton.1 he] at htype
  revert htype
  decide

end EdgeProxy.Ns
