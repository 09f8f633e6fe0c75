import Mathlib.Data.Fin.VecNotation
import EdgeProxy.Lib.Ring
import EdgeProxy.Base.Error

/-! # Lookups in several registries

The result sets of `prx_ns.c` and the lookups of its composite registry, which appends the sets that its members
return. Reading a set or an entry that was freed is undefined.
-/
namespace EdgeProxy.Ns
open Base Lib List Function Option

variable {ν : Type} [DecidableEq ν]

structure Heap (ν : Type) where
  links : Links ν
  count : ν → ℕ
  freed : List ν

variable (D : DList ν)

def resultsetPop (heap : Heap ν) (list : ν) : Option (Option ν × Heap ν) :=
  if list ∈ heap.freed then none
  else if D.isListEmpty heap.links list then some (none,heap)
  else
    let (links,entry) := D.removeHeadList heap.links list
    if entry ∈ heap.freed then none
    else some (some entry,{ heap with links, count := update heap.count list (heap.count list - 1) })
def resultsetFree : ℕ → Heap ν → ν → Option (Heap ν)
  | 0, _, _ => none
  | fuel + 1, heap, list => do
    match ← resultsetPop D heap list with
    | (none,heap) => pure { heap with freed := list :: heap.freed }
    | (some entry,heap) => resultsetFree fuel { heap with freed := entry :: heap.freed } list

/-- `prx_ns_generic_resultset_concat` for two sets. The head of the second one is linked in with its entries. -/
def resultsetConcat (fuel : ℕ) (heap : Heap ν) (list add : ν) : Option (Heap ν) :=
  let count := update heap.count list (heap.count list + heap.count add)
  let links := D.initializeListHead (D.appendTailList heap.links list add) add
  resultsetFree D fuel { heap with links, count } add

/-- The loop of the composite lookups over what the members return, with the result and the set so far. -/
def compositeLoop (fuel : ℕ) : Heap ν → Except PrxError Unit → Option ν → List (Except PrxError ν) →
    Option (Except PrxError Unit × Option ν × Heap ν)
  | heap, result, resultset, [] => some (result,resultset,heap)
  | heap, _, resultset, .error e :: _ => some (.error e,resultset,heap)
  | heap, _, none, .ok entries :: members => compositeLoop fuel heap (.ok ()) (some entries) members
  | heap, _, some list, .ok entries :: members => do
    let heap ← resultsetConcat D fuel heap list entries
    compositeLoop fuel heap (.ok ()) (some list) members

def compositeEntryBy (fuel : ℕ) (heap : Heap ν) (members : List (Except PrxError ν)) :
    Option (Except PrxError ν × Heap ν) := do
  match ← compositeLoop D fuel heap (.error .notFound) none members with
  | (.error e,none,heap) => pure (.error e,heap)
  | (.error e,some resultset,heap) => do
    let heap ← resultsetFree D fuel heap resultset
    pure (.error e,heap)
  | (.ok (),some resultset,heap) => pure (.ok resultset,heap)
  -- a member that found something returned a set
  | (.ok (),none,_) => none
def resultsetEntries : ℕ → Heap ν → ν → Option (List ν)
  | 0, _, _ => none
  | fuel + 1, heap, list => do
    match ← resultsetPop D heap list with
    | (none,_) => pure []
    | (some entry,heap) => do
      let entries ← resultsetEntries fuel heap list
      pure (entry :: entries)

structure Returned (heap : Heap ν) (content : ν → List ν) (members : List (Except PrxError ν)) : Prop where
  rings : Rings heap.links (fun h => .ok h ∈ members) content
  distinct : (members.filterMap Except.toOption).Nodup
  -- a query that finds nothing is not successful
  found : ∀ h, .ok h ∈ members → content h ≠ []
  live : heap.freed = []

def foundBy (content : ν → List ν) (members : List (Except PrxError ν)) : List ν :=
  (members.filterMap Except.toOption).flatMap content

/-- The lookup returns what the members found, in their order, and that nothing was found only if so. -/
def Complete (D : DList ν) (heap : Heap ν) (content : ν → List ν) (members : List (Except PrxError ν)) : Prop :=
  if foundBy content members = [] then
    ∃ fuel heap', compositeEntryBy D fuel heap members = some (.error .notFound,heap')
  else
    ∃ fuel list heap', compositeEntryBy D fuel heap members = some (.ok list,heap') ∧
      resultsetEntries D fuel heap' list = some (foundBy content members)

/-- There is one member that finds something or none, or the first one finds nothing and no other does. -/
def Simple (members : List (Except PrxError ν)) : Prop :=
  members = [] ∨ (∃ h, members = [.ok h]) ∨ ∃ rest, members = .error .notFound :: rest ∧ ∀ h, .ok h ∉ rest

section

variable {heap : Heap ν} {h g : ν} {xs : List ν}

def Heap.popped (heap : Heap ν) (list : ν) : Heap ν :=
  { heap with
    links := heap.links.link list (heap.links.flink (heap.links.flink list))
    count := update heap.count list (heap.count list - 1) }
lemma resultsetPop_next (hh : h ∉ heap.freed) (hnext : heap.links.flink h ≠ h) : resultsetPop D heap h =
    if heap.links.flink h ∈ heap.freed then none else some (some (heap.links.flink h),heap.popped h) := by
  rw [resultsetPop,if_neg hh,if_neg (mt (D.isListEmpty_iff _ _).1 hnext),D.removeHead_eq]
  rfl

lemma resultsetEntries_ring (hr : IsRing heap.links h xs) (hfreed : ∀ x ∈ h :: xs, x ∉ heap.freed) :
    resultsetEntries D (xs.length + 1) heap h = some xs := by
  induction xs generalizing heap with
  | nil =>
    have hempty := (D.isListEmpty_ring hr).2 rfl
    rw [resultsetEntries,resultsetPop,if_neg (hfreed h mem_cons_self),if_pos hempty]
    rfl
  | cons x xs ih =>
    have hflink : x = heap.links.flink h := some.inj hr.flink_head
    have hne : x ≠ h := (ne_of_not_mem_cons (nodup_cons.1 hr.nodup).1).symm
    have hentry : IsRing heap.links h ([] ++ x :: xs) := hr
    have hrest : IsRing (heap.popped h).links h xs := by
      have hremove := hentry.remove
      rwa [← some.inj hentry.blink_entry,hflink] at hremove
    have hpop : resultsetPop D heap h = some (some x,heap.popped h) := by
      rw [resultsetPop_next D (hfreed h mem_cons_self) (hflink ▸ hne),← hflink,
        if_neg (hfreed x (mem_cons_of_mem _ mem_cons_self))]
    have htail := ih hrest fun y hy => hfreed y (by
      rcases mem_cons.1 hy with rfl | hy
      · exact mem_cons_self
      · exact mem_cons_of_mem _ (mem_cons_of_mem _ hy))
    rw [resultsetEntries,hpop]
    change (resultsetEntries D (xs.length + 1) (heap.popped h) h >>= _) = _
    rw [htail]
    rfl

lemma resultsetEntries_broken (hpath : heap.links.Path (h :: xs ++ [g])) (hnodup : (h :: xs).Nodup) (hg : g ≠ h)
    (hfreed : g ∈ heap.freed) (fuel : ℕ) : resultsetEntries D fuel heap h = none := by
  induction fuel generalizing heap xs with
  | zero => rfl
  | succ fuel ih =>
    by_cases hh : h ∈ heap.freed
    · rw [resultsetEntries,resultsetPop,if_pos hh]
      rfl
    · cases xs with
      | nil =>
        have hflink : heap.links.flink h = g := (isChain_cons_cons.1 hpath).1
        rw [resultsetEntries,resultsetPop_next D hh (hflink ▸ hg),hflink,if_pos hfreed]
        rfl
      | cons x xs =>
        obtain ⟨hflink,hrest⟩ := isChain_cons_cons.1 hpath
        have hne : x ≠ h := (ne_of_not_mem_cons (nodup_cons.1 hnodup).1).symm
        have hout : h ∉ xs := not_mem_of_not_mem_cons (nodup_cons.1 hnodup).1
        have hpath' : (heap.popped h).links.Path (h :: xs ++ [g]) := by
          cases xs with
          | nil => exact hpath.skip not_mem_nil
          | cons y xs =>
            have hinit : h ∉ (y :: xs ++ [g]).dropLast := by rwa [dropLast_concat]
            exact hpath.skip hinit
        have hnodup' : (h :: xs).Nodup := hnodup.sublist ((sublist_cons_self x xs).cons_cons h)
        rw [resultsetEntries,resultsetPop_next D hh (hflink ▸ hne)]
        split
        · rfl
        · change (resultsetEntries D fuel (heap.popped h) h >>= _) = _
          rw [ih hpath' hnodup' hfreed]
          rfl

variable {ys : List ν}

/-- The list goes on from these entries to the head of a set that was freed, and ends elsewhere. -/
structure Broken (heap : Heap ν) (h : ν) (xs : List ν) : Prop where
  path : ∃ g ∈ heap.freed, g ≠ h ∧ heap.links.Path (h :: xs ++ [g])
  nodup : (h :: xs).Nodup
  last : heap.links.blink h ∉ h :: xs

def Heap.appended (heap : Heap ν) (list add : ν) : Heap ν where
  links := ((heap.links.link (heap.links.blink list) add).link (heap.links.blink add) list).link add add
  count := update heap.count list (heap.count list + heap.count add)
  freed := add :: heap.freed

lemma resultsetConcat_eq {fuel heap'} (hconcat : resultsetConcat D fuel heap h g = some heap') :
    heap' = heap.appended h g := by
  rw [resultsetConcat,D.initialize_eq,D.appendTail_eq] at hconcat
  cases fuel with
  | zero => cases hconcat
  | succ =>
    have hempty : ∀ l : Links ν, D.isListEmpty (l.link g g) g :=
      fun l => (D.isListEmpty_iff _ _).2 (update_self _ _ _)
    rw [resultsetFree,resultsetPop] at hconcat
    split at hconcat
    · cases hconcat
    · rw [if_pos (hempty _)] at hconcat
      cases hconcat
      rfl

lemma Heap.appended_blink_self (hne : g ≠ h) : (heap.appended h g).links.blink h = heap.links.blink g :=
  (update_of_ne hne.symm _ _).trans (update_self _ _ _)

lemma broken_append (hh : IsRing heap.links h xs) (hg : IsRing heap.links g ys)
    (hdisjoint : (h :: xs).Disjoint (g :: ys)) : Broken (heap.appended h g) h xs := by
  have hgout : g ∉ h :: xs := fun hmem => hdisjoint hmem mem_cons_self
  have hlast : heap.links.blink g ∉ h :: xs := fun hmem => hdisjoint hmem (mem_of_getLast? hg.blink_head)
  have hlinked : (h :: xs ++ [g]).IsChain (heap.links.link (heap.links.blink h) g).Arc :=
    chain_join (isChain_append.1 hh.chain).1 (.singleton g) hh.blink_head rfl
      (not_mem_dropLast hh.nodup hh.blink_head) (not_mem_of_not_mem_cons hgout) not_mem_nil not_mem_nil
  have hne : g ≠ h := ne_of_not_mem_cons hgout
  refine ⟨⟨g,mem_cons_self,hne,?_⟩,hh.nodup,?_⟩
  · refine ((path_of_chain hlinked).link ?_).link ?_
    · rwa [dropLast_concat]
    · rwa [dropLast_concat]
  · rwa [Heap.appended_blink_self hne]

lemma Broken.append (hb : Broken heap h xs) (hg : g ∉ h :: xs) (hlast : heap.links.blink g ∉ h :: xs) :
    Broken (heap.appended h g) h xs := by
  obtain ⟨g',hfreed,hne',hpath⟩ := hb.path
  have hne : g ≠ h := ne_of_not_mem_cons hg
  refine ⟨⟨g',mem_cons_of_mem _ hfreed,hne',?_⟩,hb.nodup,?_⟩
  · refine ((hpath.link ?_).link ?_).link ?_
    · rw [dropLast_concat]
      exact hb.last
    · rwa [dropLast_concat]
    · rwa [dropLast_concat]
  · rwa [Heap.appended_blink_self hne]
lemma Heap.appended_blink {k} (hh : k ≠ h) (hg : k ≠ g) : (heap.appended h g).links.blink k = heap.links.blink k := by
  have hlink : ∀ (l : Links ν) (a : ν) {b : ν}, k ≠ b → (l.link a b).blink k = l.blink k :=
    fun _ _ _ hne => update_of_ne hne _ _
  rw [Heap.appended,hlink _ _ hg,hlink _ _ hh,hlink _ _ hg]

variable {content : ν → List ν} {members : List (Except PrxError ν)}

/-- Once two sets were appended the lookup does not succeed with a list that can be popped. -/
theorem compositeLoop_broken {fuel heap' resultset result}
    (hb : Broken heap h xs) (hdistinct : (members.filterMap Except.toOption).Nodup)
    (hmembers : ∀ k, .ok k ∈ members → k ∉ h :: xs ∧ heap.links.blink k ∉ h :: xs)
    (hloop : compositeLoop D fuel heap (.ok ()) (some h) members = some (result,resultset,heap')) :
    resultset = some h ∧ Broken heap' h xs := by
  induction members generalizing heap with
  | nil =>
    cases hloop
    exact ⟨rfl,hb⟩
  | cons member members ih =>
    cases member with
    | error =>
      cases hloop
      exact ⟨rfl,hb⟩
    | ok k =>
      obtain ⟨heap₁,hconcat,hloop⟩ := bind_eq_some_iff.1 hloop
      obtain ⟨hk,hlast⟩ := hmembers k mem_cons_self
      have hcons : (k :: members.filterMap Except.toOption).Nodup := hdistinct
      obtain ⟨hknew,hdistinct⟩ := nodup_cons.1 hcons
      cases resultsetConcat_eq D hconcat
      refine ih (hb.append hk hlast) hdistinct (fun k' hk' => ?_) hloop
      obtain ⟨hout,hlast'⟩ := hmembers k' (mem_cons_of_mem _ hk')
      have hne : k' ≠ h := ne_of_not_mem_cons hout
      have hne' : k' ≠ k := by
        rintro rfl
        exact hknew (mem_filterMap.2 ⟨_,hk',rfl⟩)
      rw [Heap.appended_blink hne hne']
      exact ⟨hout,hlast'⟩

omit [DecidableEq ν] in
lemma foundBy_eq_nil_iff (hfound : ∀ h, .ok h ∈ members → content h ≠ []) :
    foundBy content members = [] ↔ ∀ h, .ok h ∉ members := by
  rw [foundBy,flatMap_eq_nil_iff]
  constructor
  · intro hnil h hh
    exact hfound h hh (hnil h (mem_filterMap.2 ⟨_,hh,rfl⟩))
  · intro hnone h hh
    obtain ⟨member,hmember,hsome⟩ := mem_filterMap.1 hh
    cases member with
    | error => cases hsome
    | ok =>
      cases hsome
      exact absurd hmember (hnone h)

lemma not_complete_two {h g rest} (hreturned : Returned heap content (.ok h :: .ok g :: rest)) :
    ¬Complete D heap content (.ok h :: .ok g :: rest) := by
  have hfound : ¬foundBy content (.ok h :: .ok g :: rest) = [] :=
    fun hnil => (foundBy_eq_nil_iff hreturned.found).1 hnil h mem_cons_self
  have hdistinct : (h :: g :: rest.filterMap Except.toOption).Nodup := hreturned.distinct
  obtain ⟨hh,hdistinct⟩ := nodup_cons.1 hdistinct
  obtain ⟨hg,hdistinct⟩ := nodup_cons.1 hdistinct
  have hne {k k' : ν} (hk : k ∉ rest.filterMap Except.toOption) (hk' : .ok k' ∈ rest) : k' ≠ k := by
    rintro rfl
    exact hk (mem_filterMap.2 ⟨_,hk',rfl⟩)
  have hhg : h ≠ g := ne_of_not_mem_cons hh
  have hhm : .ok h ∈ (.ok h :: .ok g :: rest) := mem_cons_self
  have hgm : .ok g ∈ (.ok h :: .ok g :: rest) := mem_cons_of_mem _ mem_cons_self
  have hring := hreturned.rings
  have hbroken : Broken (heap.appended h g) h (content h) :=
    broken_append (hring.ring hhm) (hring.ring hgm) (hring.disjoint hhm hgm hhg)
  have hothers : ∀ k, .ok k ∈ rest → k ∉ h :: content h ∧ (heap.appended h g).links.blink k ∉ h :: content h := by
    intro k hk
    have hkm : .ok k ∈ (.ok h :: .ok g :: rest) :=
      mem_cons_of_mem _ (mem_cons_of_mem _ hk)
    have hkh := hne (not_mem_of_not_mem_cons hh) hk
    have hdisjoint := hring.disjoint hhm hkm (Ne.symm hkh)
    rw [Heap.appended_blink hkh (hne hg hk)]
    exact ⟨fun hmem => hdisjoint hmem mem_cons_self,
      fun hmem => hdisjoint hmem (mem_of_getLast? (hring.ring hkm).blink_head)⟩
  rw [Complete,if_neg hfound]
  rintro ⟨fuel,list,heap',hlookup,hentries⟩
  obtain ⟨⟨result,resultset,heap₂⟩,hloop,hlookup⟩ := bind_eq_some_iff.1 hlookup
  obtain ⟨heap₁,hconcat,hloop⟩ := bind_eq_some_iff.1 hloop
  cases resultsetConcat_eq D hconcat
  obtain ⟨rfl,hbroken⟩ := compositeLoop_broken D hbroken hdistinct hothers hloop
  cases result with
  | error =>
    obtain ⟨heap₃,-,⟨⟩⟩ := bind_eq_some_iff.1 hlookup
  | ok =>
    cases hlookup
    obtain ⟨g',hfreed,hg',hpath⟩ := hbroken.path
    cases (resultsetEntries_broken D hpath hbroken.nodup hg' hfreed fuel).symm.trans hentries

/-- The lookup is complete exactly if no two members have something to return. -/
theorem complete_iff (hreturned : Returned heap content members) :
    Complete D heap content members ↔ Simple members := by
  have hnil := foundBy_eq_nil_iff hreturned.found
  rw [Simple]
  cases members with
  | nil =>
    exact iff_of_true ⟨0,heap,rfl⟩ (.inl rfl)
  | cons member rest =>
    cases member with
    | error =>
      by_cases hrest : ∀ h, .ok h ∉ rest
      · rw [Complete,if_pos (hnil.2 (by simpa using hrest))]
        simp [compositeEntryBy,compositeLoop,hrest]
      · refine iff_of_false ?_ (by simp [hrest])
        rw [Complete,if_neg (mt hnil.1 (by simpa using hrest))]
        rintro ⟨_,_,_,⟨⟩,-⟩
    | ok h =>
      have hfound : ¬foundBy content (.ok h :: rest) = [] := fun hn => hnil.1 hn h mem_cons_self
      cases rest with
      | nil =>
        refine iff_of_true ?_ (.inr (.inl ⟨h,rfl⟩))
        have hcontent : foundBy content [.ok h] = content h := append_nil _
        have hentries : resultsetEntries D ((content h).length + 1) heap h = some (content h) :=
          resultsetEntries_ring D (hreturned.rings.ring mem_cons_self) (by simp [hreturned.live])
        rw [Complete,if_neg hfound,hcontent]
        exact ⟨_,h,heap,rfl,hentries⟩
      | cons member =>
        refine iff_of_false ?_ (by simp)
        cases member with
        | error =>
          rw [Complete,if_neg hfound]
          rintro ⟨fuel,list,heap',hlookup,-⟩
          obtain ⟨heap₁,-,⟨⟩⟩ := bind_eq_some_iff.1 hlookup
        | ok => exact not_complete_two D hreturned

end

def twoLists : Heap (Fin 5) :=
  ⟨⟨![1,4,3,2,0],![4,0,3,2,1]⟩,![1,0,1,0,0],[]⟩
def twoContents : Fin 5 → List (Fin 5) :=
  ![[1,4],[],[3],[],[]]
lemma twoLists_ring {h} (hh : h = 0 ∨ h = 2) : IsRing twoLists.links h (twoContents h) := by
  rcases hh with rfl | rfl
  · exact ⟨.cons_cons ⟨rfl,rfl⟩ (.cons_cons ⟨rfl,rfl⟩ (.cons_cons ⟨rfl,rfl⟩ (.singleton _))),by decide⟩
  · exact ⟨.cons_cons ⟨rfl,rfl⟩ (.cons_cons ⟨rfl,rfl⟩ (.singleton _)),by decide⟩

lemma twoLists_disjoint {h k} (hh : h = 0 ∨ h = 2) (hk : k = 0 ∨ k = 2) (hne : h ≠ k) :
    (h :: twoContents h).Disjoint (k :: twoContents k) := by
  rcases hh with rfl | rfl <;> rcases hk with rfl | rfl
  · exact absurd rfl hne
  · exact disjoint_left.2 (by decide)
  · exact disjoint_left.2 (by decide)
  · exact absurd rfl hne
lemma twoLists_returned {members} (hmembers : ∀ h, .ok h ∈ members → h = 0 ∨ h = 2)
    (hdistinct : (members.filterMap Except.toOption).Nodup) : Returned twoLists twoContents members where
  rings := ⟨fun hh => twoLists_ring (hmembers _ hh),fun hh hk => twoLists_disjoint (hmembers _ hh) (hmembers _ hk)⟩
  distinct := hdistinct
  found h hh := by rcases hmembers h hh with rfl | rfl <;> decide
  live := rfl
theorem oneMember_complete : Complete (.standard (Fin 5)) twoLists twoContents [.ok 0] :=
  (complete_iff _ (twoLists_returned (by simp) (by decide))).2 (.inr (.inl ⟨0,rfl⟩))

/-- Of two members that find an entry, the lookup does not return the second one. -/
theorem twoMembers_not_complete : Returned twoLists twoContents [.ok 0,.ok 2] ∧
    ¬Complete (.standard (Fin 5)) twoLists twoContents [.ok 0,.ok 2] := by
  have hreturned : Returned twoLists twoContents [.ok 0,.ok 2] := twoLists_returned (by simp) (by decide)
  exact ⟨hreturned,not_complete_two _ hreturned⟩

end EdgeProxy.Ns
