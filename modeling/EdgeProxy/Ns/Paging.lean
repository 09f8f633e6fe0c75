import EdgeProxy.Base.Error

/-! # Queries of the hub

The query of the hub registry, one page after the other. Each page but the last has a token for the next one in the
headers of its response, which are freed before the token is sent.
-/
namespace EdgeProxy.Ns
open Base

variable {τ ε : Type}

/-- A page with what becomes of its values in `prx_ns_iot_hub_twin_entry_create`. -/
structure Page (τ ε : Type) where
  values : List (Except PrxError ε)
  continuation : Option τ

def addItems : List (Except PrxError ε) → List ε → Except PrxError (List ε)
  | [], list => .ok list
  | .ok entry :: values, list => addItems values (list ++ [entry])
  | .error e :: _, _ => .error e
def Page.addTo (page : Page τ ε) (list : List ε) : Except PrxError (List ε) :=
  if page.values.isEmpty then .error .notFound else addItems page.values list

/-- `prx_ns_iot_hub_registry_entry_query` with at most this number of requests. `call` is the request for a page up to
its values, and `freed` what is read from the memory of a token that was freed. -/
def entryQuery (call : Option τ → Except PrxError (Page τ ε)) (freed : τ → τ) :
    ℕ → Option τ → List ε → Option (Except PrxError (List ε))
  | 0, _, _ => none
  | requests + 1, continuation, list =>
    match call (continuation.map freed) with
    | .error e => some (.error e)
    | .ok page =>
      match page.addTo list, page.continuation with
      | .error e, _ => some (.error e)
      | .ok list, none => some (.ok list)
      | .ok list, some token => entryQuery call freed requests (some token) list

/-- The pages of entries that the hub has from a token on, and the tokens for those after the first. -/
inductive Serves (call : Option τ → Except PrxError (Page τ ε)) : Option τ → List (List ε) → List τ → Prop
  | last {c : Option τ} {page : List ε} : call c = .ok ⟨page.map .ok,none⟩ → Serves call c [page] []
  | more {c : Option τ} {page : List ε} {token : τ} {pages : List (List ε)} {tokens : List τ} :
      call c = .ok ⟨page.map .ok,some token⟩ → Serves call (some token) pages tokens →
        Serves call c (page :: pages) (token :: tokens)

variable (call : Option τ → Except PrxError (Page τ ε)) (freed : τ → τ) (pages : List (List ε)) (tokens : List τ)

/-- The query gets all pages in order, with one request for each. -/
def QueriesAll : Prop :=
  entryQuery call freed pages.length none [] = some (.ok pages.flatten)

/-- No page is empty, and the tokens that are sent are still there. -/
def Whole : Prop :=
  [] ∉ pages ∧ ∀ token ∈ tokens, freed token = token

/-- The hub takes nothing else for a token. -/
def Rejects : Prop :=
  ∀ token ∈ tokens, freed token ≠ token → ∃ e, call (some (freed token)) = .error e

variable {call freed pages tokens} {c k : Option τ}

lemma addItems_ok (page list : List ε) : addItems (page.map .ok) list = .ok (list ++ page) := by
  induction page generalizing list with
  | nil => simp [addItems]
  | cons x page ih => simp [addItems,ih]
lemma addTo_eq (page list : List ε) (token : Option τ) :
    (⟨page.map .ok,token⟩ : Page τ ε).addTo list = if page = [] then .error .notFound else .ok (list ++ page) := by
  cases page with
  | nil => rfl
  | cons x page => simpa [Page.addTo] using addItems_ok (x :: page) list

lemma entryQuery_serves (serves : Serves call c pages tokens) (hk : call (k.map freed) = call c) (list : List ε)
    (hwhole : Whole freed pages tokens) :
    entryQuery call freed pages.length k list = some (.ok (list ++ pages.flatten)) := by
  induction serves generalizing k list with
  | @last c page hcall =>
    have hpage : page ≠ [] := fun h => hwhole.1 (h ▸ List.mem_singleton_self _)
    simp [entryQuery,hk,hcall,addTo_eq,hpage]
  | @more c page token pages tokens hcall _ ih =>
    have hpage : page ≠ [] := fun h => hwhole.1 (h ▸ List.mem_cons_self)
    have hnext : call ((some token).map freed) = call (some token) := by
      rw [Option.map_some,hwhole.2 token List.mem_cons_self]
    have hrest : Whole freed pages tokens :=
      ⟨fun h => hwhole.1 (List.mem_cons_of_mem _ h),fun t ht => hwhole.2 t (List.mem_cons_of_mem _ ht)⟩
    simp [entryQuery,hk,hcall,addTo_eq,hpage,ih hnext _ hrest]

lemma whole_of_entryQuery (serves : Serves call c pages tokens) (hk : call (k.map freed) = call c) {list l : List ε}
    (hrejects : Rejects call freed tokens) (h : entryQuery call freed pages.length k list = some (.ok l)) :
    Whole freed pages tokens := by
  induction serves generalizing k list with
  | @last c page hcall =>
    by_cases hpage : page = []
    · simp [entryQuery,hk,hcall,Page.addTo,hpage] at h
    · exact ⟨by simpa using Ne.symm hpage,nofun⟩
  | @more c page token pages tokens hcall hserves ih =>
    by_cases hpage : page = []
    · simp [entryQuery,hk,hcall,Page.addTo,hpage] at h
    simp only [List.length_cons,entryQuery,hk,hcall,addTo_eq,hpage,if_false] at h
    have hkept : freed token = token := by
      by_contra hlost
      obtain ⟨e,he⟩ := hrejects token List.mem_cons_self hlost
      cases hserves <;> simp [entryQuery,he] at h
    obtain ⟨hpages,htokens⟩ := ih (by rw [Option.map_some,hkept]) (fun t ht => hrejects t (List.mem_cons_of_mem _ ht)) h
    exact ⟨by simpa [hpages] using Ne.symm hpage,List.forall_mem_cons.2 ⟨hkept,htokens⟩⟩

/-- The query gets all pages if no page is empty and no token is lost, and only then if the hub knows its tokens. -/
theorem queriesAll_iff (serves : Serves call none pages tokens) :
    (Whole freed pages tokens → QueriesAll call freed pages) ∧
      (Rejects call freed tokens → (QueriesAll call freed pages ↔ Whole freed pages tokens)) := by
  have hall (hwhole : Whole freed pages tokens) : QueriesAll call freed pages := entryQuery_serves serves rfl [] hwhole
  exact ⟨hall,fun hrejects => ⟨whole_of_entryQuery serves rfl hrejects,hall⟩⟩

def twoPages (pages : List ℕ × List ℕ) : Option ℕ → Except PrxError (Page ℕ ℕ)
  | none => .ok ⟨pages.1.map .ok,some 7⟩
  | some 7 => .ok ⟨pages.2.map .ok,none⟩
  | some _ => .error .arg

lemma twoPages_serves (first second : List ℕ) : Serves (twoPages (first,second)) none [first,second] [7] :=
  .more rfl (.last rfl)
theorem twoPages_queriesAll : QueriesAll (twoPages ([1],[2])) id [[1],[2]] :=
  (queriesAll_iff (twoPages_serves [1] [2])).1 ⟨by decide,by decide⟩

/-- An empty second page makes the first one lost, and so does a token that is overwritten. -/
theorem twoPages_not_queriesAll :
    Serves (twoPages ([1],[])) none [[1],[]] [7] ∧ ¬QueriesAll (twoPages ([1],[])) id [[1],[]] ∧
    Serves (twoPages ([1],[2])) none [[1],[2]] [7] ∧ ¬QueriesAll (twoPages ([1],[2])) (fun _ => 0) [[1],[2]] := by
  refine ⟨twoPages_serves [1] [],fun all => ?_,twoPages_serves [1] [2],fun all => ?_⟩
  · cases all
  · cases all

end EdgeProxy.Ns
