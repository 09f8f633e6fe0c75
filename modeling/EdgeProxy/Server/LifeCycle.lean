import Mathlib.Data.List.Chain
import EdgeProxy.Server.Steps

/-! # The life cycle of a server socket

When the life cycle moves only forward: created, opened, collect, closing, closed.
-/
namespace EdgeProxy.Server
open Codec Lib List

variable {c c' c'' : Cell} {calls : Calls} {ws ws' : List SocketState}

/-- `c'` is a successor of `c` in which the values `ws` were written to the state, oldest first. -/
def Wrote (c : Cell) (ws : List SocketState) (c' : Cell) : Prop :=
  c'.history.states = c.history.states ++ ws ∧ c'.socket.state = ws.getLast?.getD c.socket.state

lemma Wrote.of_eq (hstates : c'.history.states = c.history.states) (hstate : c'.socket.state = c.socket.state) :
    Wrote c [] c' :=
  ⟨by rw [hstates,append_nil],hstate⟩
lemma Wrote.trans (h : Wrote c ws c') (h' : Wrote c' ws' c'') : Wrote c (ws ++ ws') c'' := by
  obtain ⟨hs,hl⟩ := h
  obtain ⟨hs',hl'⟩ := h'
  constructor
  · rw [hs',hs,append_assoc]
  · rw [hl',hl,List.getLast?_append]
    cases ws'.getLast? with
    | none | some => rfl
lemma Collects.wrote (h : Collects c calls c') :
    ∃ ws, Wrote c ws c' ∧ (ws = [] ∨ ws = [.closed] ∨ ws = [.closing]) := by
  cases h with
  | noSocket => exact ⟨[.closed],⟨rfl,rfl⟩,.inr (.inl rfl)⟩
  | waits => exact ⟨[],.of_eq rfl rfl,.inl rfl⟩
  | _ => exact ⟨[.closing],⟨rfl,rfl⟩,.inr (.inr rfl)⟩

def SocketState.UpTo (a b : SocketState) : Prop :=
  a.stage ≤ b.stage
instance : DecidableRel SocketState.UpTo :=
  fun a b => inferInstanceAs (Decidable (a.stage ≤ b.stage))
instance : Trans SocketState.UpTo SocketState.UpTo SocketState.UpTo :=
  ⟨Nat.le_trans⟩
def Ascending (state : SocketState) (ws : List SocketState) : Prop :=
  (state :: ws).IsChain SocketState.UpTo
instance (state : SocketState) (ws : List SocketState) : Decidable (Ascending state ws) :=
  inferInstanceAs (Decidable (List.IsChain _ _))

/-- No open request arrives and no open fails while the socket is closing or closed, and the worker does not find an
open socket timed out or the server exiting. -/
def ForwardStep (c : Cell) (label : Label) : Prop :=
  match label.1 with
  | .received false message =>
    messageType message.type = some .open → c.socket.state ≠ .closing ∧ c.socket.state ≠ .closed
  | .worker => c.socket.state = .opened → ¬c.socket.timedout label.2.now ∧ ¬label.2.exit
  | .task .openComplete => c.openFails label.2 → c.socket.state ≠ .closing ∧ c.socket.state ≠ .closed
  | _ => True

structure Moves (c : Cell) (label : Label) (ws : List SocketState) (c' : Cell) : Prop where
  wrote : Wrote c ws c'
  ascending : Ascending c.socket.state ws ↔ ForwardStep c label
  opened : .opened ∉ ws ∨ c.socket.state = .created ∧ ws = [.opened]

variable {label : Label}

lemma Wrote.moves (h : Wrote c [] c') (forward : ForwardStep c label) : Moves c label [] c' :=
  ⟨h,⟨fun _ => forward,fun _ => .singleton _⟩,.inl not_mem_nil⟩
lemma ascending_collect (state : SocketState) : Ascending state [.collect] ↔ state ≠ .closing ∧ state ≠ .closed := by
  cases state <;> decide

open Wrote

lemma Receives.moves {fromStream message} (h : Receives c fromStream message calls c') :
    ∃ ws, Moves c (.received fromStream message,calls) ws c' := by
  cases h with
  | answers type =>
    have forward : ForwardStep c (.received fromStream message,calls) := by
      cases fromStream with
      | true => trivial
      | false => exact fun h => absurd h (type rfl)
    exact ⟨[],moves (.of_eq rfl rfl) forward⟩
  | closes type live =>
    have ascending : Ascending c.socket.state [.collect] := by
      rcases live with hs | hs
      · rw [hs]
        decide
      · rw [hs]
        decide
    have forward : ForwardStep c (.received fromStream message,calls) := by
      cases fromStream with
      | true => trivial
      | false => exact fun h => by simp [type] at h
    exact ⟨[.collect],⟨rfl,rfl⟩,iff_of_true ascending forward,.inl (by decide)⟩
  | openRefused type control | openFailed type control =>
    subst control
    refine ⟨[.collect],⟨rfl,rfl⟩,?_,.inl (by decide)⟩
    rw [ascending_collect]
    exact ⟨fun h _ => h,fun h => h type⟩
  | opened type control state =>
    subst control
    have ascending : Ascending c.socket.state [.opened] := by
      rw [state]
      decide
    have forward : ForwardStep c (.received false message,calls) := fun _ => by simp [state]
    exact ⟨[.opened],⟨rfl,rfl⟩,iff_of_true ascending forward,.inr ⟨state,rfl⟩⟩
  | polls type | data type =>
    refine ⟨[],moves (.of_eq rfl rfl) ?_⟩
    cases fromStream with
    | true => trivial
    | false => exact fun h => by simp [type] at h

lemma Works.moves (h : Works c calls c') : ∃ ws, Moves c (.worker,calls) ws c' := by
  cases h with
  | waits idle => exact ⟨[],moves (.of_eq rfl rfl) idle⟩
  | closeTimedout state =>
    have ascending : Ascending c.socket.state [.closed] := by
      rw [state]
      decide
    have forward : ForwardStep c (.worker,calls) := fun h => by simp [state] at h
    exact ⟨[.closed],⟨rfl,rfl⟩,iff_of_true ascending forward,.inl (by decide)⟩
  | leaves state => exact ⟨[],moves (.of_eq rfl rfl) fun h => by simp [state] at h⟩
  | notified state timedout =>
    have back : ¬Ascending c.socket.state [.created] := by
      rw [state]
      decide
    have blocked : ¬ForwardStep c (.worker,calls) := fun h => (h state).1 timedout
    exact ⟨[.created],⟨rfl,rfl⟩,iff_of_false back blocked,.inl (by decide)⟩
  | reverted state due collects =>
    obtain ⟨ws,hw,hws⟩ := collects.wrote
    have hrevert : Wrote c [.created,.collect] (c.setState .created).dropped :=
      ⟨by simp [Cell.dropped,Cell.setState],rfl⟩
    have back : ¬Ascending c.socket.state ([.created,.collect] ++ ws) := by
      rw [state]
      rcases hws with rfl | rfl | rfl <;> decide
    have blocked : ¬ForwardStep c (.worker,calls) := by
      intro h
      rcases due with ht | he
      · exact (h state).1 ht
      · exact (h state).2 he
    refine ⟨_,hrevert.trans hw,iff_of_false back blocked,.inl ?_⟩
    rcases hws with rfl | rfl | rfl <;> decide
  | drops state due collects =>
    obtain ⟨ws,hw,hws⟩ := collects.wrote
    have hdrop : Wrote c [.collect] c.dropped := ⟨rfl,rfl⟩
    have ascending : Ascending c.socket.state ([.collect] ++ ws) := by
      rw [state]
      rcases hws with rfl | rfl | rfl <;> decide
    have forward : ForwardStep c (.worker,calls) := fun h => by simp [state] at h
    refine ⟨_,hdrop.trans hw,iff_of_true ascending forward,.inl ?_⟩
    rcases hws with rfl | rfl | rfl <;> decide
  | collects state collects =>
    obtain ⟨ws,hw,hws⟩ := collects.wrote
    have ascending : Ascending c.socket.state ws := by
      rw [state]
      rcases hws with rfl | rfl | rfl <;> decide
    have forward : ForwardStep c (.worker,calls) := fun h => by simp [state] at h
    refine ⟨ws,hw,iff_of_true ascending forward,.inl ?_⟩
    rcases hws with rfl | rfl | rfl <;> decide

lemma Takes.moves {event} (h : Takes c event calls c') : ∃ ws, Moves c (event,calls) ws c' := by
  cases h with
  | received idle table receives => exact receives.moves
  | worker idle table works => exact works.moves
  | openComplete idle queued completes =>
    cases completes with
    | missing _ fails | undefined _ fails | completed _ fails =>
      have hf : c.openFails calls = false := fails
      exact ⟨[],moves (.of_eq rfl rfl) fun h => by simp [hf] at h⟩
    | failed link fails =>
      refine ⟨[.collect],⟨rfl,rfl⟩,?_,.inl (by decide)⟩
      rw [ascending_collect]
      exact ⟨fun h _ => h,fun h => h fails⟩
  | closeComplete =>
    have ascending : Ascending c.socket.state [.closed] := by
      cases c.socket.state <;> decide
    exact ⟨[.closed],⟨rfl,rfl⟩,iff_of_true ascending trivial,.inl (by decide)⟩
  | deliver delivers =>
    cases delivers with
    | _ => exact ⟨[],moves (.of_eq rfl rfl) trivial⟩
  | _ => exact ⟨[],moves (.of_eq rfl rfl) trivial⟩

def StateCurrent (c : Cell) : Prop :=
  c.history.states.getLast? = some c.socket.state
lemma StateCurrent.wrote {ws} (h : StateCurrent c) (hw : Wrote c ws c') : StateCurrent c' := by
  unfold StateCurrent at ⊢
  rw [hw.1,hw.2,List.getLast?_append,h]
  cases ws.getLast? with
  | none | some => rfl

def Forward (c : Cell) : Prop :=
  c.history.states.Pairwise SocketState.UpTo
lemma forward_iff_isChain : Forward c ↔ c.history.states.IsChain SocketState.UpTo :=
  isChain_iff_pairwise.symm

lemma forward_wrote {ws} (h : StateCurrent c) (hw : Wrote c ws c') :
    Forward c' ↔ Forward c ∧ Ascending c.socket.state ws := by
  rw [forward_iff_isChain,forward_iff_isChain,hw.1,isChain_append,h,Ascending,isChain_cons]
  simp
  tauto

structure OpensOnce (c : Cell) : Prop where
  current : StateCurrent c
  unopened : c.socket.state = .created →
    c.history.states.count .opened = 0 ∧ c.history.pools = 0 ∧ c.history.streams = 0
  opened : c.history.states.count .opened ≤ 1
  pools : c.history.pools ≤ 1
  streams : c.history.streams ≤ 1

lemma upTo_of_ascending {state ws} (h : Ascending state ws) : state.UpTo (ws.getLast?.getD state) := by
  have hp : (state :: ws).Pairwise SocketState.UpTo := isChain_iff_pairwise.1 h
  cases hl : ws.getLast? with
  | none => exact Nat.le_refl _
  | some last => exact (pairwise_cons.1 hp).1 last (mem_of_getLast? hl)

lemma step_opensOnce {label} (hc : OpensOnce c) (forward : ForwardStep c label)
    (h : c.step label = some c') : OpensOnce c' := by
  have takes := (takes_of_step h).2
  obtain ⟨ws,hm⟩ := takes.moves
  have hup : c.socket.state.UpTo c'.socket.state := by
    rw [hm.wrote.2]
    exact upTo_of_ascending (hm.ascending.2 forward)
  have created : c'.socket.state = .created → c.socket.state = .created := by
    intro hs
    rw [hs] at hup
    cases hs' : c.socket.state with
    | created => rfl
    | _ =>
      rw [hs'] at hup
      exact absurd hup (by decide)
  have hcount : c'.history.states.count .opened = c.history.states.count .opened + ws.count .opened := by
    rw [hm.wrote.1,count_append]
  have hopened : c'.history.states.count .opened ≤ 1 ∧
      (c'.socket.state = .created → c'.history.states.count .opened = 0) := by
    rcases hm.opened with hnot | ⟨hs,hws⟩
    · rw [hcount,count_eq_zero.2 hnot]
      exact ⟨hc.opened,fun hs => (hc.unopened (created hs)).1⟩
    · have hstate := hm.wrote.2
      subst hws
      rw [hcount,(hc.unopened hs).1,hstate]
      exact ⟨Nat.le_refl _,nofun⟩
  have hassigned : (c'.socket.state = .created → c'.history.pools = 0 ∧ c'.history.streams = 0) ∧
      c'.history.pools ≤ 1 ∧ c'.history.streams ≤ 1 := by
    rcases takes.frame.assigns with ⟨hp,hst⟩ | ⟨hs,hs',hp,hst⟩
    · rw [hp,hst]
      exact ⟨fun hs => (hc.unopened (created hs)).2,hc.pools,hc.streams⟩
    · have h0 := (hc.unopened hs).2
      rw [h0.1] at hp
      rw [h0.2] at hst
      exact ⟨fun h => absurd h hs',hp,hst⟩
  exact ⟨hc.current.wrote hm.wrote,fun hs => ⟨hopened.2 hs,hassigned.1 hs⟩,hopened.1,hassigned.2.1,hassigned.2.2⟩

/-- The state never returns to an earlier stage, and the open request is carried out at most once, with one pool and one
stream. -/
def LifeCycle (c : Cell) : Prop :=
  Forward c ∧ c.history.states.count .opened ≤ 1 ∧ c.history.pools ≤ 1 ∧ c.history.streams ≤ 1

lemma Initial.opensOnce (h : Initial c) : OpensOnce c where
  current := by
    unfold StateCurrent
    rw [h.states,h.state]
    rfl
  unopened _ := ⟨by rw [h.states]; decide,h.pools,h.streams⟩
  opened := by
    rw [h.states]
    decide
  pools := by
    rw [h.pools]
    decide
  streams := by
    rw [h.streams]
    decide

lemma Initial.forward (h : Initial c) : Forward c := by
  unfold Forward
  rw [h.states]
  exact pairwise_singleton _ _

/-- In every run of a server socket the life cycle is as it should be exactly when every step meets the
condition. -/
theorem lifeCycle_iff {c₀ c : Cell} {labels : List Label} (born : Born c₀) (runs : Runs Cell.step c₀ labels c) :
    LifeCycle c ↔ Along Cell.step ForwardStep c₀ labels := by
  have once := born.initial.opensOnce
  have hiff : Forward c ↔ Forward c₀ ∧ Along Cell.step ForwardStep c₀ labels := by
    refine Runs.iff_along (fun _ _ => trivial) ?_ runs once.current trivial
    intro s label t hs _ hstep
    obtain ⟨ws,hm⟩ := (takes_of_step hstep).2.moves
    refine ⟨hs.wrote hm.wrote,?_⟩
    rw [forward_wrote hs hm.wrote,hm.ascending]
  constructor
  · intro h
    exact (hiff.1 h.1).2
  · intro along
    have hc := Runs.invariant step_opensOnce runs along once
    exact ⟨hiff.2 ⟨born.initial.forward,along⟩,hc.opened,hc.pools,hc.streams⟩

def closedByClient : List Label :=
  linkDone ++ [(.received false openPolled,.succeed 1),(.received false (.request .close),.succeed 2),
    (.worker,.succeed 3),(.destroyed,.succeed 3),(.task .closeComplete,.succeed 4),(.worker,.succeed 5)]
theorem closedByClient_lifeCycle :
    ∃ c, run Cell.step linkedStream closedByClient = some c ∧
      c.history.states = [.created,.opened,.collect,.closing,.closed] ∧ LifeCycle c ∧
      Along Cell.step ForwardStep linkedStream closedByClient := by
  obtain ⟨c,hrun,hstates,hcycle⟩ : ∃ c, run Cell.step linkedStream closedByClient = some c ∧
      c.history.states = [.created,.opened,.collect,.closing,.closed] ∧ LifeCycle c := by
    unfold LifeCycle Forward
    decide
  exact ⟨c,hrun,hstates,hcycle,(lifeCycle_iff born_linkedStream (runs_of_run hrun)).1 hcycle⟩
def openedTwice : List Label :=
  linkDone ++ [(.received false openPolled,.succeed 1),(.worker,.succeed 120001),(.deliver,.succeed 120001),
    (.deliver,.succeed 120001),(.received false openPolled,.succeed 120002)]
theorem openedTwice_not_lifeCycle :
    ∃ c, Runs Cell.step linkedStream openedTwice c ∧
      c.history.states = [.created,.opened,.created,.opened] ∧ c.history.pools = 2 ∧ c.history.streams = 2 ∧
      ¬LifeCycle c := by
  unfold LifeCycle Forward
  decide

end EdgeProxy.Server
