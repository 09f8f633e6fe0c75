import EdgeProxy.Pal.Open

/-! # The candidates of a name

Opening a socket by name goes on to the next address when one cannot be connected, but not when the connected socket
cannot be registered.
-/
namespace EdgeProxy.Pal
open Base List

structure Candidates where
  opening : Opening
  tried : List Attempt
  descriptors : List Attempt
deriving DecidableEq

/-- Without an event handle, `pal_socket_clear` closes the descriptor of the socket. -/
def Candidates.tryOpen (props : OpenProps) (a : Attempt) (c : Candidates) : Candidates × Option PrxError :=
  let r := palSocketTryOpen props a c.opening
  (⟨r.1,c.tried ++ [a],c.descriptors ++ if r.1.fd = .invalid then [] else [a]⟩,r.2)

def Candidates.tryNext (props : OpenProps) : List Attempt → Candidates → Candidates
  | [], c => { c with opening := palSocketOpenComplete c.opening (some .connecting) }
  | a :: addresses, c =>
    match c.tryOpen props a with
    | (c,none) => { c with opening := palSocketRegister a c.opening }
    | (c,some e) => if e = .waiting then c else c.tryNext props addresses

def Candidates.start : Candidates :=
  ⟨⟨.opening,.invalid,.none,[]⟩,[],[]⟩
def openCandidates (props : OpenProps) : List Attempt → Candidates × Option PrxError
  | [] => (.start,some .connecting)
  | a :: addresses => (Candidates.start.tryNext props (a :: addresses),none)

variable {props : OpenProps} {a : Attempt} {c : Candidates} {addresses : List Attempt}

open Candidates

lemma tryNext_opening (addresses : List Attempt) :
    (c.tryNext props addresses).opening = palSocketTryNext props addresses c.opening := by
  induction addresses generalizing c with
  | nil => rfl
  | cons a addresses ih =>
    unfold tryNext palSocketTryNext tryOpen
    obtain ⟨s,result⟩ := palSocketTryOpen props a c.opening
    cases result with
    | none => rfl
    | some =>
      dsimp only
      split
      · rfl
      · exact ih

/-- The addresses and descriptors are only added to what `pal_socket_open` does. -/
theorem openCandidates_opening (props : OpenProps) (addresses : List Attempt) :
    ((openCandidates props addresses).1.opening,(openCandidates props addresses).2) =
      palSocketOpen props (.name none (.ok addresses)) .none := by
  cases addresses with
  | nil => rfl
  | cons => exact congrArg (·,none) (tryNext_opening _)

/-- The socket can be connected or bound, without an error that is hidden, and registered with the event port. -/
def Attempt.opens (props : OpenProps) (a : Attempt) : Bool :=
  a.failure props .none = none && !a.hides props && a.register = none && a.selectClose = none

/-- The socket is open with the first address that can be opened and only its descriptor is, or the open failed after
all addresses and no descriptor is open. -/
def ProperlyTried (props : OpenProps) (addresses : List Attempt) (r : Candidates × Option PrxError) : Prop :=
  (∃ failed a rest, addresses = failed ++ a :: rest ∧ (∀ b ∈ failed, b.opens props = false) ∧ a.opens props ∧
    r.2 = none ∧ r.1.opening.isOpen ∧ r.1.opening.opened = [none] ∧ r.1.tried = failed ++ [a] ∧
    r.1.descriptors = [a]) ∨
  ((∀ a ∈ addresses, a.opens props = false) ∧ (r.2 ≠ none ∨ ∃ e, r.1.opening.opened = [some e]) ∧
    r.1.tried = addresses ∧ r.1.descriptors = [])

lemma tryOpen_clears {s e} (h : (palSocketTryOpen props a s).2 = some e)
    (hwaiting : e ≠ .waiting) : (palSocketTryOpen props a s).1.fd = .invalid := by
  unfold palSocketTryOpen at h ⊢
  simp only [apply_ite Prod.snd,ite_self] at h
  simp [h,hwaiting,palSocketClear]

/-- Addresses that fail leave only the record that they were tried. -/
theorem tryNext_failed (rest : List Attempt) {failed} (hhandle : c.opening.handle = .none)
    (hfailed : ∀ b ∈ failed, ∃ e, b.failure props .none = some e ∧ e ≠ .waiting) :
    ∃ s : Opening, s.handle = .none ∧ s.opened = c.opening.opened ∧
      c.tryNext props (failed ++ rest) = tryNext props rest ⟨s,c.tried ++ failed,c.descriptors⟩ := by
  induction failed generalizing c with
  | nil => exact ⟨c.opening,hhandle,rfl,by rw [append_nil]; rfl⟩
  | cons b failed ih =>
    obtain ⟨⟨e,he,hwaiting⟩,hfailed⟩ := forall_mem_cons.1 hfailed
    obtain ⟨hresult,hleaves⟩ := tryOpen_leaves props b c.opening
    rw [show b.failure props c.opening.handle = some e from hhandle ▸ he] at hresult hleaves
    have hnone := hleaves.handle fun h => hwaiting (Option.some.inj h)
    have hopen : c.tryOpen props b =
        (⟨(palSocketTryOpen props b c.opening).1,c.tried ++ [b],c.descriptors⟩,some e) := by
      simp [tryOpen,tryOpen_clears hresult hwaiting,hresult]
    obtain ⟨s,hs,hopened,htry⟩ := ih (c := (c.tryOpen props b).1) (by rw [hopen]; exact hnone) hfailed
    rw [hopen] at htry
    refine ⟨s,hs,hopened.trans hleaves.opened,?_⟩
    rw [cons_append,tryNext,hopen]
    dsimp only
    rw [if_neg hwaiting,htry,append_assoc]
    rfl

lemma tryNext_connected (hhandle : c.opening.handle = .none) (hconnects : a.failure props .none = none)
    (rest : List Attempt) : ∃ s : Opening, s.opened = c.opening.opened ∧ (a.hides props = false → s.fd = .usable) ∧
      c.tryNext props (a :: rest) = ⟨palSocketRegister a s,c.tried ++ [a],c.descriptors ++ [a]⟩ := by
  obtain ⟨hresult,hleaves⟩ := tryOpen_leaves props a c.opening
  rw [show a.failure props c.opening.handle = none from hhandle ▸ hconnects] at hresult hleaves
  have hfd : (palSocketTryOpen props a c.opening).1.fd ≠ .invalid := by
    rw [hleaves.fd rfl]
    split <;> nofun
  refine ⟨_,hleaves.opened,hleaves.usable_iff.2,?_⟩
  simp [tryNext,tryOpen,hresult,hfd]
lemma register_opens {s} (hopened : s.opened = []) (hfd : a.hides props = false → s.fd = .usable)
    (h : a.opens props) : (palSocketRegister a s).isOpen ∧ (palSocketRegister a s).opened = [none] := by
  simp only [Attempt.opens,Bool.and_eq_true,decide_eq_true_eq,Bool.not_eq_true'] at h
  obtain ⟨⟨⟨-,hhides⟩,hregister⟩,hselect⟩ := h
  simp [palSocketRegister,palSocketOpenComplete,palEventSelect,Opening.isOpen,hregister,hselect,hopened,hfd hhides]

/-- Opening by name tries the addresses properly exactly if the first one that can be connected can also be registered
and hides no error. -/
theorem openCandidates_proper_iff (props : OpenProps) {addresses : List Attempt}
    (hsync : ∀ a ∈ addresses, a.failure props .none ≠ some .waiting) :
    ProperlyTried props addresses (openCandidates props addresses) ↔
      (addresses.find? (·.failure props .none = none)).all (·.opens props) := by
  have hfails {l : List Attempt} (hl : l ⊆ addresses) (h : ∀ b ∈ l, b.failure props .none ≠ none) :
      (∀ b ∈ l, ∃ e, b.failure props .none = some e ∧ e ≠ .waiting) ∧ ∀ b ∈ l, b.opens props = false := by
    refine ⟨fun b hb => ?_,fun b hb => by simp [Attempt.opens,h b hb]⟩
    obtain ⟨e,he⟩ := Option.ne_none_iff_exists'.1 (h b hb)
    exact ⟨e,he,fun hw => hsync b (hl hb) (he.trans (congrArg some hw))⟩
  cases hfind : addresses.find? (·.failure props .none = none) with
  | none =>
    obtain ⟨hfailed,hopens⟩ := hfails (.refl addresses) (by simpa using hfind)
    refine iff_of_true (.inr ⟨hopens,?_⟩) rfl
    cases addresses with
    | nil => exact ⟨.inl nofun,rfl,rfl⟩
    | cons =>
      obtain ⟨s,-,hopened,htry⟩ := tryNext_failed (c := .start) [] rfl hfailed
      rw [append_nil] at htry
      rw [openCandidates,htry]
      exact ⟨.inr ⟨.connecting,congrArg (· ++ [_]) hopened⟩,rfl,rfl⟩
  | some a =>
    obtain ⟨hconnects,failed,rest,rfl,hbefore⟩ := find?_eq_some_iff_append.1 hfind
    obtain ⟨hfailed,hopens⟩ := hfails (subset_append_left failed _) (by simpa using hbefore)
    obtain ⟨s,hs,hopened,htry⟩ := tryNext_failed (c := .start) (a :: rest) rfl hfailed
    obtain ⟨t,ht,hfd,hopen⟩ := tryNext_connected (c := ⟨s,failed,[]⟩) hs (by simpa using hconnects) rest
    have hcandidates : openCandidates props (failed ++ a :: rest) =
        (⟨palSocketRegister a t,failed ++ [a],[a]⟩,none) := by
      have hall := congrArg (·,(none : Option PrxError)) (htry.trans hopen)
      cases failed <;> exact hall
    rw [hcandidates]
    constructor
    · rintro (⟨_,_,_,-,-,hproper,-,-,-,htried,-⟩ | ⟨-,-,-,hnone⟩)
      · cases (append_inj' htried rfl).2
        exact hproper
      · cases hnone
    · intro hproper
      obtain ⟨hisOpen,hreport⟩ := register_opens (ht.trans hopened) hfd hproper
      exact .inl ⟨failed,a,rest,rfl,hopens,hproper,rfl,hisOpen,hreport,rfl,rfl⟩

def refusedFirst : List Attempt :=
  [{ connect := .fails .refused },{},{}]
theorem refusedFirst_proper :
    ProperlyTried ⟨.stream,false⟩ refusedFirst (openCandidates ⟨.stream,false⟩ refusedFirst) :=
  (openCandidates_proper_iff _ (by decide)).2 (by decide)
def unregistered : Attempt :=
  { register := some .outOfMemory }

/-- An address that is connected and cannot be registered ends the open, with its descriptor left open. -/
theorem unregistered_not_proper : openCandidates ⟨.stream,false⟩ [unregistered,{}] =
      (⟨⟨.closed,.usable,.none,[some .outOfMemory]⟩,[unregistered],[unregistered]⟩,none) ∧
    ¬ProperlyTried ⟨.stream,false⟩ [unregistered,{}] (openCandidates ⟨.stream,false⟩ [unregistered,{}]) := by
  refine ⟨by decide,?_⟩
  rintro (⟨_,_,_,-,-,-,-,-,hopened,-⟩ | ⟨-,-,-,hnone⟩)
  · cases hopened
  · cases hnone

end EdgeProxy.Pal
