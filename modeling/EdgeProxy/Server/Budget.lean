import EdgeProxy.Server.Steps

/-! # The receive buffer budget

The completion of an open chooses the number of receive buffers such that all fit into a limit. An open request then
replaces the size of the buffers by the one the client asks for.
-/
namespace EdgeProxy.Server
open Base Codec Lib Cell

/-- The pool is within the limit, or at its minimum. A pool of fewer buffers than the minimum was not configured;
its maximum count of zero is no limit. -/
def WithinBudget (poolSize bufferSize : ℕ) : Prop :=
  1 ≤ bufferSize ∧ recvPoolMin.toNat ≤ poolSize ∧
    (poolSize * bufferSize ≤ recvPoolMax.toNat ∨ poolSize = recvPoolMin.toNat)

instance (poolSize bufferSize : ℕ) : Decidable (WithinBudget poolSize bufferSize) :=
  inferInstanceAs (Decidable (_ ∧ _ ∧ _))
def Cell.opens (c : Cell) (message : Message) (calls : Calls) : Bool :=
  messageType message.type = some .open ∧ c.socket.state = .created ∧ calls.factory = erOk ∧
    (openConnection message.content.openRequest calls).isOk ∧ c.socket.palSocketCanRecv calls = erOk

variable {c c' : Cell} {message : Message} {calls : Calls}

/-- The body of the handler succeeds exactly if all its calls do, and then opens the socket. -/
theorem openBody_spec (c : Cell) (message : Message) (calls : Calls) :
    ((c.openBody message calls).2 = erOk ↔ calls.factory = erOk ∧
      (openConnection message.content.openRequest calls).isOk ∧ c.socket.palSocketCanRecv calls = erOk) ∧
    ((c.openBody message calls).2 = erOk → (c.openBody message calls).1.socket.state = .opened) := by
  unfold openBody
  by_cases factory : calls.factory = erOk
  · rw [if_neg (not_not_intro factory)]
    cases hconn : openConnection message.content.openRequest calls with
    | error =>
      have herror := openConnection_error hconn
      simp [herror,Except.toBool]
    | ok =>
      dsimp only
      split
      · next refused =>
        have hrecv : c.socket.palSocketCanRecv calls ≠ erOk := refused
        exact ⟨iff_of_false refused (by simp [hrecv]),fun h => absurd h refused⟩
      · next accepted =>
        have hrecv : c.socket.palSocketCanRecv calls = erOk := not_not.1 accepted
        exact ⟨iff_of_true rfl ⟨factory,rfl,hrecv⟩,fun _ => rfl⟩
  · simp [factory]

lemma opened_iff_opens (responder : Option Connection) (calls : Calls) (type : messageType message.type = some .open)
    (state : c.socket.state = .created) :
    (c.prxServerSocketHandleOpenrequest responder message calls).socket.state = .opened ↔ c.opens message calls := by
  obtain ⟨hok,hstate⟩ := openBody_spec c message calls
  have hopens : c.opens message calls ↔ (c.openBody message calls).2 = erOk := by
    simp [opens,type,state,hok]
  rw [hopens]
  unfold prxServerSocketHandleOpenrequest
  simp only [state]
  by_cases ok : (c.openBody message calls).2 = erOk
  · rw [if_neg (not_not_intro ok)]
    exact iff_of_true (hstate ok) ok
  · rw [if_pos ok]
    exact iff_of_false nofun ok

lemma handles_open (type : messageType message.type = some .open)
    (h : c.step (.received false message,calls) = some c') :
    c' = c.prxServerSocketHandleOpenrequest (some .listener) message calls := by
  rw [handled_of_step h]
  simp [prxServerSocketControlHandler,type]
def Budgeted (c : Cell) : Prop :=
  c.socket.state = .opened → WithinBudget c.socket.poolSize.toNat c.socket.bufferSize.toNat

/-- An open request that opens the socket asks for a buffer size that its pool was made for. -/
def Cell.opensWithin (c : Cell) (label : Label) : Bool :=
  match label.1 with
  | .received false message =>
    c.opens message label.2 → WithinBudget c.socket.poolSize.toNat message.content.openRequest.maxRecv.toNat
  | _ => true

def PoolPending (c : Cell) : Prop :=
  c.socket.linkMessage.isSome → c.socket.poolSize = 0

variable {event : Event}

lemma Collects.state (h : Collects c calls c') : c'.socket.state ≠ .opened ∨ c'.socket.state = c.socket.state := by
  cases h with
  | waits => exact .inr rfl
  | _ => exact .inl nofun

/-- An open socket keeps its sizes, apart from the completion of its open; an open request sets the buffer size. -/
theorem Takes.sizes (h : Takes c event calls c') : c'.socket.state ≠ .opened ∨
    (c'.socket.state = c.socket.state ∧ (c.socket.linkMessage.isSome ∨
      c'.socket.bufferSize = c.socket.bufferSize ∧ c'.socket.poolSize = c.socket.poolSize)) ∨
    ∃ message, event = .received false message ∧ messageType message.type = some .open ∧ c.socket.state = .created ∧
      c'.socket.bufferSize = message.content.openRequest.maxRecv.toUInt64 ∧ c'.socket.poolSize = c.socket.poolSize := by
  cases h with
  | received idle table receives =>
    cases receives with
    | closes | openRefused | openFailed => exact .inl nofun
    | opened type control state =>
      subst control
      exact .inr (.inr ⟨_,rfl,type,state,rfl,rfl⟩)
    | _ => exact .inr (.inl ⟨rfl,.inr ⟨rfl,rfl⟩⟩)
  | worker idle table works =>
    cases works with
    | closeTimedout | notified => exact .inl nofun
    | reverted _ _ collects | drops _ _ collects =>
      rcases collects.state with other | hstate
      · exact .inl other
      · exact .inl (hstate ▸ nofun)
    | collects _ collects =>
      rcases collects.state with other | hstate
      · exact .inl other
      · exact .inr (.inl ⟨hstate,.inr ⟨collects.unchanged.bufferSize,collects.unchanged.poolSize⟩⟩)
    | _ => exact .inr (.inl ⟨rfl,.inr ⟨rfl,rfl⟩⟩)
  | openComplete idle queued completes =>
    cases completes with
    | missing | undefined => exact .inr (.inl ⟨rfl,.inr ⟨rfl,rfl⟩⟩)
    | failed => exact .inl nofun
    | completed link => exact .inr (.inl ⟨rfl,.inl (by exact Option.isSome_of_mem link)⟩)
  | closeComplete => exact .inl nofun
  | deliver delivers => cases delivers <;> exact .inr (.inl ⟨rfl,.inr ⟨rfl,rfl⟩⟩)
  | _ => exact .inr (.inl ⟨rfl,.inr ⟨rfl,rfl⟩⟩)

lemma opensWithin_of_state (hstate : c'.socket.state = .opened → c.socket.state = .opened)
    (h : c.step (event,calls) = some c') : c.opensWithin (event,calls) := by
  unfold opensWithin
  split
  · next message hevent =>
    cases hevent
    simp only [decide_eq_true_eq]
    intro opens
    obtain ⟨type,created⟩ : messageType message.type = some .open ∧ c.socket.state = .created := by
      simp only [Cell.opens,decide_eq_true_eq] at opens
      exact ⟨opens.1,opens.2.1⟩
    have hopened : c'.socket.state = .opened := by
      rw [handles_open type h]
      exact (opened_iff_opens _ _ type created).2 opens
    cases created.symm.trans (hstate hopened)
  · rfl

lemma step_budgeted {label} (hpending : PoolPending c) (hc : Budgeted c) (h : c.step label = some c') :
    PoolPending c' ∧ (Budgeted c' ↔ c.opensWithin label) := by
  obtain ⟨event,calls⟩ := label
  obtain ⟨_,takes⟩ := takes_of_step h
  constructor
  · intro link
    rcases takes.frame.link with gone | ⟨hlink,hpool⟩
    · rw [gone] at link
      cases link
    · rw [hpool]
      exact hpending (hlink ▸ link)
  · rcases takes.sizes with closed | ⟨hstate,hsizes⟩ | ⟨message,rfl,type,created,hbuffer,hpool⟩
    · exact iff_of_true (absurd · closed) (opensWithin_of_state (absurd · closed) h)
    · refine iff_of_true (fun opened => ?_) (opensWithin_of_state (fun opened => hstate ▸ opened) h)
      have hbudget := hc (hstate ▸ opened)
      rcases hsizes with link | ⟨hbuffer,hpool⟩
      · have hmin := hbudget.2.1
        rw [hpending link] at hmin
        exact absurd hmin (by decide)
      · rw [hbuffer,hpool]
        exact hbudget
    · have hopens := opened_iff_opens (some .listener) calls type created
      rw [← handles_open type h] at hopens
      simp only [Budgeted,opensWithin,decide_eq_true_eq,hopens,hbuffer,hpool,UInt32.toNat_toUInt64]

/-- The receive buffers of an open socket are within the budget exactly if every open request comes after their number
was chosen, and asks for a buffer size with which it is within the limit or at its minimum. -/
theorem budgeted_iff_opensWithin {c₀ : Cell} {labels : List Label} (born : Born c₀)
    (runs : Runs Cell.step c₀ labels c) :
    Always Cell.step Budgeted c₀ labels ↔ Along Cell.step (fun c label => c.opensWithin label) c₀ labels :=
  runs.always_iff step_budgeted (fun _ => born.initial.poolSize) fun opened =>
    absurd (born.initial.state.symm.trans opened) nofun

def linkedOpening (maxRecv : UInt32) : List Label :=
  [(.transportRelease,.succeed 1),(.task .openComplete,{ Calls.succeed 1 with getsockopt := (erOk,1024) }),
    (.received false { openPolled with content.openRequest.maxRecv := maxRecv },.succeed 1)]
theorem linkedOpening_budgeted :
    ∃ c, Runs Cell.step linkedStream (linkedOpening 1024) c ∧ c.socket.state = .opened ∧ c.socket.poolSize = 128 ∧
      Always Cell.step Budgeted linkedStream (linkedOpening 1024) := by
  have runs : Runs Cell.step linkedStream (linkedOpening 1024) _ := runs_of_run rfl
  exact ⟨_,runs,rfl,rfl,(budgeted_iff_opensWithin born_linkedStream runs).2 (by decide)⟩

/-- The socket is opened with a buffer size of zero, and with 128 buffers of 64 KiB. -/
theorem linkedOpening_not_budgeted :
    ∃ c d, Runs Cell.step linkedStream (linkedOpening 0) c ∧ Runs Cell.step linkedStream (linkedOpening 0x10000) d ∧
      (c.socket.state,c.socket.poolSize,c.socket.bufferSize) = (.opened,128,0) ∧
      (d.socket.state,d.socket.poolSize,d.socket.bufferSize) = (.opened,128,0x10000) ∧
      ¬Budgeted c ∧ ¬Budgeted d := by
  refine ⟨_,_,runs_of_run rfl,runs_of_run rfl,rfl,rfl,?_,?_⟩
  · intro budgeted
    exact absurd (budgeted rfl) (by decide)
  · intro budgeted
    exact absurd (budgeted rfl) (by decide)

end EdgeProxy.Server
