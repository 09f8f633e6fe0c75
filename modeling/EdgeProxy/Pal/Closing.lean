import EdgeProxy.Pal.Socket

/-! # Closing a socket

Calls of `pal_socket_close`, events of the port, and the deletion of the handle by its thread. The handle is never
reset by a close, so that only a single close that gets through is in order.
-/
namespace EdgeProxy.Pal
open Base

inductive SocketStep where
  | close (sent : Bool)
  | read (result : Int32)
  | write
  | deleted
deriving DecidableEq

structure Closing where
  socket : Socket
  requests : ℕ
  told : ℕ
deriving DecidableEq

/-- Events that the handlers turn away change nothing, nor does a deletion that nobody asked for. -/
def Closing.step (c : Closing) : SocketStep → Option Closing
  | .close sent => (palSocketClose c.socket sent).map fun r =>
    ⟨r.1,if r.1.handle = .deleting then c.requests + 1 else c.requests,c.told + r.2.toNat⟩
  | .read result => some { c with socket := (palSocketOnRecvEnter c.socket result).getD c.socket }
  | .write => some { c with socket := (palSocketOnSendEnter c.socket).getD c.socket }
  | .deleted =>
    if c.socket.handle = .deleting then
      let r := palSocketDestroyed c.socket
      some ⟨r.1,c.requests,c.told + r.2.toNat⟩
    else some c

def Closing.run (c : Closing) : List SocketStep → Option Closing
  | [] => some c
  | a :: steps => (c.step a).bind fun c => c.run steps

/-- The counts after a run, when the thread of the port has handled all its messages. -/
def Closing.ends (c : Closing) (steps : List SocketStep) : Option (ℕ × ℕ) :=
  (c.run (steps ++ [.deleted])).map fun c => (c.requests,c.told)

def closes (steps : List SocketStep) : List Bool :=
  steps.filterMap fun
    | .close sent => some sent
    | _ => none

/-- A socket that is closed in the run asks for the deletion of its handle at most once and tells its client once. -/
def ClosesOnce (socket : Socket) (steps : List SocketStep) : Prop :=
  ∃ requests, (Closing.mk socket 0 0).ends steps = some (requests,if closes steps = [] then 0 else 1) ∧ requests ≤ 1

/-- A message of a close gets through, and it is that of the last one. -/
def LastSent (sent : List Bool) : Prop :=
  sent.getLast? = some true ∧ sent.count true = 1

instance (sent : List Bool) : Decidable (LastSent sent) :=
  inferInstanceAs (Decidable (_ ∧ _))

section

variable {c : Closing}

lemma Closing.ends_cons (a : SocketStep) (steps : List SocketStep) :
    c.ends (a :: steps) = (c.step a).bind fun c => c.ends steps := by
  cases h : c.step a <;> simp [ends,run,h]
lemma Closing.step_event (h : c.socket.handle ≠ .registered) :
    (∀ result, c.step (.read result) = some c) ∧ c.step .write = some c := by
  simp [step,palSocketOnRecvEnter,palSocketOnSendEnter,h]

lemma palSocketOnRecvEnter_handle (sock : Socket) (result : Int32) :
    ((palSocketOnRecvEnter sock result).getD sock).handle = sock.handle := by
  unfold palSocketOnRecvEnter
  split_ifs <;> rfl
lemma palSocketOnSendEnter_handle (sock : Socket) : ((palSocketOnSendEnter sock).getD sock).handle = sock.handle := by
  unfold palSocketOnSendEnter
  split_ifs <;> rfl
lemma Closing.ends_freed (h : c.socket.handle = .freed) (steps : List SocketStep) :
    c.ends steps = if closes steps = [] then some (c.requests,c.told) else none := by
  have hevent := c.step_event (by rw [h]; decide)
  induction steps with
  | nil => simp [ends,run,step,h,closes]
  | cons a steps ih =>
    rw [ends_cons]
    cases a with
    | close => simp [step,palSocketClose,h,closes]
    | read | write => simpa [hevent,closes] using ih
    | deleted => simpa [step,h,closes] using ih

lemma Closing.ends_deleting (h : c.socket.handle = .deleting) (hstate : c.socket.state = .closing)
    (steps : List SocketStep) : c.ends steps = if closes steps = [] then some (c.requests,c.told + 1) else none := by
  have hevent := c.step_event (by rw [h]; decide)
  have hdeleted : c.step .deleted =
      some ⟨{ c.socket with handle := .freed, state := .closed },c.requests,c.told + 1⟩ := by
    simp [step,palSocketDestroyed,palSocketCompleteClose,h,hstate]
  induction steps with
  | nil => simp [ends,run,hdeleted,closes]
  | cons a steps ih =>
    rw [ends_cons]
    cases a with
    | close => simp [step,palSocketClose,h,closes]
    | read | write => simpa [hevent,closes] using ih
    | deleted =>
      rw [hdeleted]
      exact ends_freed rfl steps

lemma Closing.ends_none (h : c.socket.handle = .none) (steps : List SocketStep) :
    c.ends steps = some (c.requests,c.told + (closes steps).length) := by
  induction steps generalizing c with
  | nil => simp [ends,run,step,h,closes]
  | cons a steps ih =>
    have hevent := c.step_event (by rw [h]; decide)
    rw [ends_cons]
    cases a with
    | close sent =>
      have hclose : ∃ socket, socket.handle = .none ∧ c.step (.close sent) = some ⟨socket,c.requests,c.told + 1⟩ := by
        simp [step,palSocketClose,palSocketCompleteClose,h]
      obtain ⟨socket,hsocket,hclose⟩ := hclose
      rw [hclose,Option.bind_some,ih hsocket]
      simp [closes,Nat.add_assoc,Nat.add_comm 1]
    | read | write => simpa [hevent,closes] using ih h
    | deleted => simpa [step,h,closes] using ih h

lemma lastSent_cons_false (sent : List Bool) : LastSent (false :: sent) ↔ LastSent sent := by
  cases sent <;> simp [LastSent]
lemma lastSent_cons_true (sent : List Bool) : LastSent (true :: sent) ↔ sent = [] := by
  constructor
  · rintro ⟨hlast,hcount⟩
    have hnone : true ∉ sent := by simpa [List.count_eq_zero] using hcount
    by_contra hne
    rw [List.getLast?_cons_of_ne_nil hne] at hlast
    exact hnone (List.mem_of_getLast? hlast)
  · rintro rfl
    decide

lemma Closing.ends_registered (h : c.socket.handle = .registered) (steps : List SocketStep) :
    c.ends steps = if true ∉ closes steps then some (c.requests,c.told)
      else if LastSent (closes steps) then some (c.requests + 1,c.told + 1)
      else none := by
  induction steps generalizing c with
  | nil => simp [ends,run,step,h,closes]
  | cons a steps ih =>
    rw [ends_cons]
    cases a with
    | close sent =>
      cases sent with
      | true =>
        have hclose : ∃ socket, socket.handle = .deleting ∧ socket.state = .closing ∧
            c.step (.close true) = some ⟨socket,c.requests + 1,c.told⟩ := by
          simp [step,palSocketClose,h]
        obtain ⟨socket,hsocket,hstate,hclose⟩ := hclose
        have hcloses : closes (.close true :: steps) = true :: closes steps := rfl
        rw [hclose,Option.bind_some,ends_deleting hsocket hstate,hcloses]
        simp [lastSent_cons_true]
      | false =>
        have hclose : ∃ socket, socket.handle = .registered ∧
            c.step (.close false) = some ⟨socket,c.requests,c.told⟩ := by
          simp [step,palSocketClose,h]
        obtain ⟨socket,hsocket,hclose⟩ := hclose
        have hcloses : closes (.close false :: steps) = false :: closes steps := rfl
        rw [hclose,Option.bind_some,ih hsocket,hcloses]
        simp [lastSent_cons_false]
    | read result => exact ih (palSocketOnRecvEnter_handle c.socket result ▸ h)
    | write => exact ih (palSocketOnSendEnter_handle c.socket ▸ h)
    | deleted =>
      have hdeleted : c.step .deleted = some c := by simp [step,h]
      rw [hdeleted]
      exact ih h

end

/-- A socket tells its client once exactly if it is closed once, not counting closes whose messages are lost. -/
theorem closesOnce_iff (kind : SocketKind) (state : SocketState) (registered : Bool) (steps : List SocketStep) :
    ClosesOnce ⟨kind,state,if registered then .registered else .none⟩ steps ↔
      closes steps = [] ∨ if registered then LastSent (closes steps) else (closes steps).length = 1 := by
  unfold ClosesOnce
  cases registered with
  | false =>
    rw [Closing.ends_none rfl]
    by_cases hnone : closes steps = []
    · simp [hnone]
    · simp [hnone]
  | true =>
    rw [Closing.ends_registered rfl]
    by_cases hnone : closes steps = []
    · simp [hnone]
    · by_cases hsent : true ∈ closes steps
      · by_cases LastSent (closes steps) <;> simp [hnone,hsent]
      · have hlast : ¬LastSent (closes steps) := fun h => hsent (List.mem_of_getLast? h.1)
        simp [hnone,hlast]

/-- A socket that was never opened tells its client of every close. -/
theorem closedTwice_not_once : ¬ClosesOnce ⟨.stream,.closed,.none⟩ [.close true,.close true] := by
  rintro ⟨requests,hends,-⟩
  cases hends

/-- An open socket on which a hang-up comes before the close. -/
example : (Closing.mk ⟨.stream,.open,.registered⟩ 0 0).ends [.read erClosed,.close true] = some (1,1) := by
  decide

end EdgeProxy.Pal
