import Mathlib.Data.List.Nodup
import Mathlib.Data.List.Chain
import Mathlib.Logic.Function.Basic

/-! # Intrusive doubly linked lists

A list is the ring of its head and its entries, nodes with a link to the next and one to the previous node. The
operations set a link and its counterpart at a time, so that rings are cut and joined.
-/
namespace EdgeProxy.Lib
open List Function Option

structure Links (ν : Type) where
  flink : ν → ν
  blink : ν → ν

variable {ν : Type} {l : Links ν} {a b e g h n p x y : ν} {xs ys zs A B : List ν}

section

def Links.Arc (l : Links ν) (x y : ν) : Prop :=
  l.flink x = y ∧ l.blink y = x
lemma blink_of_chain (hc : (A ++ x :: B).IsChain l.Arc) (hA : A ≠ []) : A.getLast? = some (l.blink x) := by
  obtain ⟨_,_,hseam⟩ := isChain_append.1 hc
  obtain ⟨y,hy⟩ := isSome_iff_exists.1 (List.getLast?_isSome.2 hA)
  rw [hy,(hseam y hy x rfl).2]
lemma flink_of_chain (hc : (A ++ x :: B).IsChain l.Arc) (hB : B ≠ []) : B.head? = some (l.flink x) := by
  cases B with
  | nil => exact absurd rfl hB
  | cons =>
    have harc := (isChain_cons_cons.1 (isChain_append.1 hc).2.1).1
    rw [List.head?_cons,harc.1]
lemma not_mem_dropLast (hnodup : A.Nodup) (last : A.getLast? = some p) : p ∉ A.dropLast := by
  have hsplit : A.dropLast ++ [p] = A := dropLast_append_getLast? p last
  rw [← hsplit] at hnodup
  exact fun hmem => disjoint_of_nodup_append hnodup hmem mem_cons_self
lemma not_mem_tail (hnodup : A.Nodup) (head : A.head? = some n) : n ∉ A.tail := by
  cases A with
  | nil => cases head
  | cons =>
    cases head
    exact (nodup_cons.1 hnodup).1

lemma isChain_imp {R S : ν → ν → Prop} (hc : zs.IsChain R) (himp : ∀ x ∈ zs.dropLast, ∀ y ∈ zs.tail, R x y → S x y) :
    zs.IsChain S := by
  induction hc with grind

variable [DecidableEq ν]

def Links.link (l : Links ν) (x y : ν) : Links ν :=
  ⟨Function.update l.flink x y,Function.update l.blink y x⟩
lemma Links.arc_link : (l.link x y).Arc x y :=
  ⟨update_self _ _ _,update_self _ _ _⟩
lemma Links.Arc.link (harc : l.Arc x y) (hx : x ≠ a) (hy : y ≠ b) : (l.link a b).Arc x y :=
  ⟨(update_of_ne hx _ _).trans harc.1,(update_of_ne hy _ _).trans harc.2⟩
lemma Links.link_self (harc : l.Arc x y) : l.link x y = l := by
  rw [Links.link,update_eq_self_iff.2 harc.1.symm,update_eq_self_iff.2 harc.2.symm]

lemma chain_link (hc : zs.IsChain l.Arc) (ha : a ∉ zs.dropLast) (hb : b ∉ zs.tail) : zs.IsChain (l.link a b).Arc :=
  isChain_imp hc fun _ hx _ hy harc => harc.link (ne_of_mem_of_not_mem hx ha) (ne_of_mem_of_not_mem hy hb)
lemma chain_join (hA : A.IsChain l.Arc) (hB : B.IsChain l.Arc) (last : A.getLast? = some p) (head : B.head? = some n)
    (hp : p ∉ A.dropLast) (hn : n ∉ A.tail) (hp' : p ∉ B.dropLast) (hn' : n ∉ B.tail) :
    (A ++ B).IsChain (l.link p n).Arc := by
  refine isChain_append.2 ⟨chain_link hA hp hn,chain_link hB hp' hn',fun x hx y hy => ?_⟩
  cases last.symm.trans hx
  cases head.symm.trans hy
  exact Links.arc_link

end

section

def Links.Path (l : Links ν) (zs : List ν) : Prop :=
  zs.IsChain fun x y => l.flink x = y
lemma path_of_chain (hc : zs.IsChain l.Arc) : l.Path zs :=
  hc.imp fun _ _ harc => harc.1

variable [DecidableEq ν]

lemma Links.Path.link (hp : l.Path zs) (ha : a ∉ zs.dropLast) : (l.link a b).Path zs :=
  isChain_imp hp fun _ hx _ _ hxy => (update_of_ne (ne_of_mem_of_not_mem hx ha) _ _).trans hxy
lemma Links.Path.skip (hp : l.Path (h :: x :: y :: zs)) (hh : h ∉ (y :: zs).dropLast) :
    (l.link h (l.flink (l.flink h))).Path (h :: y :: zs) := by
  obtain ⟨hx,hrest⟩ := isChain_cons_cons.1 hp
  obtain ⟨hy,hzs⟩ := isChain_cons_cons.1 hrest
  have hskip : l.flink (l.flink h) = y := by rw [hx,hy]
  exact .cons_cons ((update_self _ _ _).trans hskip) (Links.Path.link hzs hh)

end

section

structure IsRing (l : Links ν) (h : ν) (xs : List ν) : Prop where
  chain : (h :: xs ++ [h]).IsChain l.Arc
  nodup : (h :: xs).Nodup

lemma IsRing.blink_head (hr : IsRing l h xs) : (h :: xs).getLast? = some (l.blink h) :=
  blink_of_chain hr.chain (cons_ne_nil _ _)
lemma IsRing.flink_head (hr : IsRing l h xs) : (xs ++ [h]).head? = some (l.flink h) :=
  flink_of_chain (A := []) hr.chain (append_ne_nil_of_right_ne_nil _ (cons_ne_nil _ _))
lemma IsRing.mem_flink (hr : IsRing l h xs) : l.flink h ∈ h :: xs :=
  (perm_append_singleton h xs).mem_iff.1 (mem_of_mem_head? hr.flink_head)

lemma IsRing.blink_flink (hr : IsRing l h xs) : l.blink (l.flink h) = h := by
  have hchain := hr.chain
  rw [cons_append] at hchain
  cases hxs : xs ++ [h] with
  | nil => exact absurd hxs (append_ne_nil_of_right_ne_nil _ (cons_ne_nil _ _))
  | cons =>
    rw [hxs] at hchain
    obtain ⟨hf,hb⟩ := (isChain_cons_cons.1 hchain).1
    rw [hf,hb]

lemma IsRing.chain_entry (hr : IsRing l h (xs ++ e :: ys)) : (h :: xs ++ e :: (ys ++ [h])).IsChain l.Arc := by
  simpa using hr.chain
lemma IsRing.blink_entry (hr : IsRing l h (xs ++ e :: ys)) : (h :: xs).getLast? = some (l.blink e) :=
  blink_of_chain hr.chain_entry (cons_ne_nil _ _)
lemma IsRing.flink_entry (hr : IsRing l h (xs ++ e :: ys)) : (ys ++ [h]).head? = some (l.flink e) :=
  flink_of_chain hr.chain_entry (append_ne_nil_of_right_ne_nil _ (cons_ne_nil _ _))

variable [DecidableEq ν]

lemma IsRing.link_other (hr : IsRing l h xs) (ha : a ∉ h :: xs) (hb : b ∉ h :: xs) : IsRing (l.link a b) h xs := by
  refine ⟨chain_link hr.chain ?_ fun hmem => hb ?_,hr.nodup⟩
  · rwa [cons_append,← cons_append,dropLast_concat]
  · exact (perm_append_singleton h xs).mem_iff.1 hmem
lemma isRing_nil : IsRing (l.link h h) h [] :=
  ⟨.cons_cons Links.arc_link (.singleton _),nodup_singleton _⟩

lemma IsRing.insert (hr : IsRing l h xs) (he : e ∉ h :: xs) :
    IsRing ((l.link (l.blink h) e).link e h) h (xs ++ [e]) := by
  have hne : h ∉ xs := (nodup_cons.1 hr.nodup).1
  have hpre : (h :: xs).IsChain l.Arc := (isChain_append.1 hr.chain).1
  have hentry : (h :: xs ++ [e]).IsChain (l.link (l.blink h) e).Arc :=
    chain_join hpre (.singleton e) hr.blink_head rfl (not_mem_dropLast hr.nodup hr.blink_head)
      (fun hmem => he (mem_cons_of_mem _ hmem)) not_mem_nil not_mem_nil
  constructor
  · have hjoin := chain_join hentry (.singleton h) List.getLast?_concat rfl
      (by rwa [dropLast_concat]) (by simp [hne,(ne_of_not_mem_cons he).symm]) not_mem_nil
      not_mem_nil
    exact hjoin
  · exact hr.nodup.append (nodup_singleton e) fun x hx hx' => he (mem_singleton.1 hx' ▸ hx)

lemma IsRing.remove (hr : IsRing l h (xs ++ e :: ys)) : IsRing (l.link (l.blink e) (l.flink e)) h (xs ++ ys) := by
  have hnodup : (h :: xs ++ ys).Nodup :=
    hr.nodup.sublist ((List.Sublist.append_left (sublist_cons_self e ys) xs).cons_cons h)
  have hsnoc : (ys ++ [h]).Nodup :=
    (perm_append_singleton h ys).nodup_iff.2 (hnodup.sublist ((sublist_append_right xs ys).cons_cons h))
  have hdisjoint := disjoint_of_nodup_append hnodup
  obtain ⟨hA,hB,_⟩ := isChain_append.1 hr.chain_entry
  constructor
  · have hjoin := chain_join hA hB.tail hr.blink_entry hr.flink_entry
      (not_mem_dropLast (nodup_append.1 hnodup).1 hr.blink_entry) ?_ ?_ (not_mem_tail hsnoc hr.flink_entry)
    · simpa using hjoin
    · intro hmem
      rcases mem_append.1 (mem_of_mem_head? hr.flink_entry) with hys | hh
      · exact hdisjoint (mem_cons_of_mem _ hmem) hys
      · rw [mem_singleton.1 hh] at hmem
        exact (nodup_cons.1 (nodup_append.1 hnodup).1).1 hmem
    · intro hmem
      rw [tail_cons,dropLast_concat] at hmem
      exact hdisjoint (mem_of_getLast? hr.blink_entry) hmem
  · exact hnodup

lemma IsRing.splice (hr : IsRing l h xs) (hg : IsRing l g ys) (disjoint : (h :: xs).Disjoint (g :: ys)) :
    IsRing ((l.link (l.blink (l.flink h)) g).link (l.blink g) (l.flink h)) h (g :: ys ++ xs) := by
  rw [hr.blink_flink]
  have hlast := hg.blink_head
  have hhead := hr.flink_head
  have hflink := hr.mem_flink
  have hnodup : (h :: g :: ys).Nodup := nodup_cons.2 ⟨disjoint mem_cons_self,hg.nodup⟩
  -- the head, the ring that is linked in, and the old entries
  have hring : ([h] ++ (g :: ys)).IsChain (l.link h g).Arc :=
    chain_join (.singleton h) (isChain_append.1 hg.chain).1 rfl rfl not_mem_nil not_mem_nil
      (fun hmem => disjoint mem_cons_self (dropLast_subset _ hmem)) (nodup_cons.1 hg.nodup).1
  have hold : (xs ++ [h]).IsChain (l.link h g).Arc := by
    refine chain_link hr.chain.tail ?_ fun hmem => ?_
    · rw [dropLast_concat]
      exact (nodup_cons.1 hr.nodup).1
    · have hmem : g ∈ xs ++ [h] := mem_of_mem_tail hmem
      exact disjoint ((perm_append_singleton h xs).mem_iff.1 hmem) mem_cons_self
  have hend : ([h] ++ (g :: ys)).getLast? = some (l.blink g) := by
    rw [List.getLast?_append,hlast]
    rfl
  constructor
  · have hjoin := chain_join hring hold hend hhead (not_mem_dropLast hnodup hend) ?_ ?_ ?_
    · simpa using hjoin
    · exact fun hmem => disjoint hflink hmem
    · rw [dropLast_concat]
      exact fun hmem => disjoint (mem_cons_of_mem _ hmem) (mem_of_getLast? hlast)
    · exact not_mem_tail ((perm_append_singleton h xs).nodup_iff.2 hr.nodup) hhead
  · refine hnodup.append (nodup_cons.1 hr.nodup).2 fun x hx hx' => ?_
    rcases mem_cons.1 hx with rfl | hx
    · exact (nodup_cons.1 hr.nodup).1 hx'
    · exact disjoint (mem_cons_of_mem _ hx') hx

end

structure Rings (l : Links ν) (heads : ν → Prop) (content : ν → List ν) : Prop where
  ring : ∀ {h}, heads h → IsRing l h (content h)
  disjoint : ∀ {h h'}, heads h → heads h' → h ≠ h' → (h :: content h).Disjoint (h' :: content h')

variable {heads heads' : ν → Prop} {content content' : ν → List ν}

lemma Rings.mono (hr : Rings l heads content) (sub : ∀ {h}, heads' h → heads h)
    (same : ∀ {h}, heads' h → content' h = content h) : Rings l heads' content' := by
  constructor
  · intro h hh
    rw [same hh]
    exact hr.ring (sub hh)
  · intro h h' hh hh'
    rw [same hh,same hh']
    exact hr.disjoint (sub hh) (sub hh')

variable [DecidableEq ν]

lemma Rings.update {l' : Links ν} (hr : Rings l heads content) (ring : IsRing l' h xs)
    (others : ∀ {k}, heads k → k ≠ h → IsRing l' k (content k) ∧ (h :: xs).Disjoint (k :: content k)) :
    Rings l' heads (Function.update content h xs) := by
  constructor
  · intro k hk
    by_cases heq : k = h
    · rw [heq,update_self]
      exact ring
    · rw [update_of_ne heq]
      exact (others hk heq).1
  · intro k k' hk hk' hne
    by_cases heq : k = h
    · rw [heq,update_self,update_of_ne (heq ▸ Ne.symm hne)]
      exact (others hk' (heq ▸ Ne.symm hne)).2
    · rw [update_of_ne heq]
      by_cases heq' : k' = h
      · rw [heq',update_self]
        exact fun x hx hx' => (others hk heq).2 hx' hx
      · rw [update_of_ne heq']
        exact hr.disjoint hk hk' hne

lemma Rings.insert (hr : Rings l heads content) (hh : heads h) (new : ∀ {k}, heads k → e ∉ k :: content k) :
    Rings ((l.link (l.blink h) e).link e h) heads (Function.update content h (content h ++ [e])) := by
  have hring := hr.ring hh
  have hblink : l.blink h ∈ h :: content h := mem_of_getLast? hring.blink_head
  refine hr.update (hring.insert (new hh)) fun {k} hk hne => ?_
  have hdisjoint := hr.disjoint hh hk hne.symm
  refine ⟨((hr.ring hk).link_other (hdisjoint hblink) (new hk)).link_other (new hk) (hdisjoint mem_cons_self),?_⟩
  intro x hx hx'
  rcases mem_append.1 (cons_append ▸ hx) with hx | hx
  · exact hdisjoint hx hx'
  · rw [mem_singleton.1 hx] at hx'
    exact new hk hx'

lemma Rings.remove (hr : Rings l heads content) (hh : heads h) (entry : content h = xs ++ e :: ys) :
    Rings (l.link (l.blink e) (l.flink e)) heads (Function.update content h (xs ++ ys)) := by
  have hring := hr.ring hh
  rw [entry] at hring
  have hsub : h :: (xs ++ ys) ⊆ h :: content h := by
    rw [entry]
    exact ((List.Sublist.append_left (sublist_cons_self e ys) xs).cons_cons h).subset
  have hblink : l.blink e ∈ h :: content h := by
    rw [entry]
    exact mem_append_left _ (mem_of_getLast? hring.blink_entry)
  have hflink : l.flink e ∈ h :: content h := by
    apply hsub
    rcases mem_append.1 (mem_of_mem_head? hring.flink_entry) with hys | hh
    · exact mem_cons_of_mem _ (mem_append_right _ hys)
    · exact mem_singleton.1 hh ▸ mem_cons_self
  refine hr.update hring.remove fun {k} hk hne => ?_
  have hdisjoint := hr.disjoint hh hk hne.symm
  exact ⟨(hr.ring hk).link_other (hdisjoint hblink) (hdisjoint hflink),fun x hx => hdisjoint (hsub hx)⟩

lemma Rings.addHead (hr : Rings l heads content) (new : ∀ {k}, heads k → e ∉ k :: content k) :
    Rings (l.link e e) (fun k => k = e ∨ heads k) (Function.update content e []) := by
  have other {k : ν} (hk : heads k) : k ≠ e := fun heq => new hk (heq ▸ mem_cons_self)
  constructor
  · rintro k (rfl | hk)
    · rw [update_self]
      exact isRing_nil
    · rw [update_of_ne (other hk)]
      exact (hr.ring hk).link_other (new hk) (new hk)
  · have alone {k : ν} (hk : heads k) : List.Disjoint [e] (k :: content k) := by
      intro x hx
      rw [mem_singleton.1 hx]
      exact new hk
    rintro k k' (rfl | hk) (rfl | hk') hne
    · exact absurd rfl hne
    · rw [update_self,update_of_ne (other hk')]
      exact alone hk'
    · rw [update_self,update_of_ne (other hk)]
      exact fun x hx hx' => alone hk hx' hx
    · rw [update_of_ne (other hk),update_of_ne (other hk')]
      exact hr.disjoint hk hk' hne

lemma Rings.splice (hr : Rings l heads content) (hh : heads h) (hg : heads g) (hne : h ≠ g) :
    Rings ((l.link (l.blink (l.flink h)) g).link (l.blink g) (l.flink h)) (fun k => heads k ∧ k ≠ g)
      (Function.update content h (g :: content g ++ content h)) := by
  have hring := hr.ring hh
  have hblink : l.blink g ∈ g :: content g := mem_of_getLast? (hr.ring hg).blink_head
  have hflink := hring.mem_flink
  have hrest : Rings l (fun k => heads k ∧ k ≠ g) content := hr.mono (fun hk => hk.1) fun _ => rfl
  refine hrest.update (hring.splice (hr.ring hg) (hr.disjoint hh hg hne)) fun {k} hk hkh => ?_
  have hdh := hr.disjoint hh hk.1 hkh.symm
  have hdg := hr.disjoint hg hk.1 hk.2.symm
  constructor
  · rw [hring.blink_flink]
    have hlinked := (hr.ring hk.1).link_other (hdh mem_cons_self) (hdg mem_cons_self)
    exact hlinked.link_other (hdg hblink) (hdh hflink)
  · intro x hx hx'
    rcases mem_cons.1 hx with rfl | hx
    · exact hdh mem_cons_self hx'
    · rcases mem_append.1 hx with hx | hx
      · exact hdg hx hx'
      · exact hdh (mem_cons_of_mem _ hx) hx'

structure DList (ν : Type) [DecidableEq ν] where
  initializeListHead : Links ν → ν → Links ν
  isListEmpty : Links ν → ν → Bool
  insertTailList : Links ν → ν → ν → Links ν
  removeHeadList : Links ν → ν → Links ν × ν
  removeEntryList : Links ν → ν → Links ν
  appendTailList : Links ν → ν → ν → Links ν
  initialize_eq : ∀ l h, initializeListHead l h = l.link h h
  isListEmpty_iff : ∀ l h, isListEmpty l h ↔ l.flink h = h
  insertTail_eq : ∀ l h e, insertTailList l h e = (l.link (l.blink h) e).link e h
  removeHead_eq : ∀ l h, removeHeadList l h = (l.link h (l.flink (l.flink h)),l.flink h)
  removeEntry_eq : ∀ l e, removeEntryList l e = l.link (l.blink e) (l.flink e)
  appendTail_eq : ∀ l h g, appendTailList l h g = (l.link (l.blink h) g).link (l.blink g) h

def DList.standard (ν : Type) [DecidableEq ν] : DList ν where
  initializeListHead l h := l.link h h
  isListEmpty l h := l.flink h = h
  insertTailList l h e := (l.link (l.blink h) e).link e h
  removeHeadList l h := (l.link h (l.flink (l.flink h)),l.flink h)
  removeEntryList l e := l.link (l.blink e) (l.flink e)
  appendTailList l h g := (l.link (l.blink h) g).link (l.blink g) h
  initialize_eq _ _ := rfl
  isListEmpty_iff _ _ := by simp
  insertTail_eq _ _ _ := rfl
  removeHead_eq _ _ := rfl
  removeEntry_eq _ _ := rfl
  appendTail_eq _ _ _ := rfl

variable (D : DList ν)

lemma DList.isListEmpty_ring (hr : IsRing l h xs) : D.isListEmpty l h ↔ xs = [] := by
  have hhead := hr.flink_head
  rw [D.isListEmpty_iff]
  cases xs with
  | nil => exact iff_of_true (some.inj hhead).symm rfl
  | cons x =>
    have hflink : x = l.flink h := some.inj hhead
    have hne : h ≠ x := ne_of_not_mem_cons (nodup_cons.1 hr.nodup).1
    exact iff_of_false (fun heq => hne (hflink.trans heq).symm) (cons_ne_nil _ _)
lemma DList.removeHead_ring (hr : IsRing l h (e :: xs)) : D.removeHeadList l h = (D.removeEntryList l e,e) := by
  have hentry : IsRing l h ([] ++ e :: xs) := hr
  have hflink : e = l.flink h := some.inj hr.flink_head
  have hblink : h = l.blink e := some.inj hentry.blink_entry
  rw [D.removeHead_eq,D.removeEntry_eq,← hflink,← hblink]

variable {heads : ν → Prop} {content : ν → List ν}

lemma DList.prepend_rings (hr : Rings l heads content) (hh : heads h) (hg : heads g) (hne : h ≠ g) :
    Rings (D.initializeListHead (D.removeEntryList (D.appendTailList l (l.flink h) g) g) g) heads
      (Function.update (Function.update content h (content g ++ content h)) g []) := by
  have hsplice := hr.splice hh hg hne
  have hentry : Function.update content h (g :: content g ++ content h) h = [] ++ g :: (content g ++ content h) :=
    update_self _ _ _
  have hremove := hsplice.remove ⟨hh,hne⟩ hentry
  rw [update_idem,nil_append] at hremove
  rw [D.initialize_eq,D.removeEntry_eq,D.appendTail_eq]
  refine (hremove.addHead fun {k} hk hmem => ?_).mono (fun {k} hk => ?_) fun _ => rfl
  · rcases mem_cons.1 hmem with heq | hmem
    · exact hk.2 heq.symm
    · have hout : g ∉ content k := fun hmem =>
        hr.disjoint hk.1 hg hk.2 (mem_cons_of_mem _ hmem) mem_cons_self
      by_cases hkh : k = h
      · rw [hkh,update_self] at hmem
        rcases mem_append.1 hmem with hmem | hmem
        · exact (nodup_cons.1 (hr.ring hg).nodup).1 hmem
        · exact hout (hkh ▸ hmem)
      · rw [update_of_ne hkh] at hmem
        exact hout hmem
  · by_cases heq : k = g
    · exact .inl heq
    · exact .inr ⟨hk,heq⟩

end EdgeProxy.Lib
