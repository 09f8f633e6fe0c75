import EdgeProxy.Lws.Steps

/-! # The first frame of a connection

The send buffer and the flags of the last frame belong to the client. A connection starts with a new message if the one
before it ended with a message that was sent completely.
-/
namespace EdgeProxy.Lws
open Base Lib List Lws.Client
open Ws (BufferType)

variable {written : List Written} {w : Written}

/-- A frame that is no continuation and starts with a buffer that was supplied on its connection. -/
structure Written.Starts (w : Written) : Prop where
  kind : w.flags.kind ≠ .continuation
  offset : w.offset = 0
  origin : w.origin = some w.connection

instance (w : Written) : Decidable w.Starts :=
  decidable_of_iff (w.flags.kind ≠ .continuation ∧ w.offset = 0 ∧ w.origin = some w.connection)
    ⟨fun h => ⟨h.1,h.2.1,h.2.2⟩,fun h => ⟨h.kind,h.offset,h.origin⟩⟩
def StartsAll (written : List Written) : Prop :=
  ∀ before w after, written = before ++ w :: after → (∀ v ∈ before, v.connection ≠ w.connection) → w.Starts
lemma startsAll_nil : StartsAll [] := by
  intro before w after heq
  exact absurd heq.symm (append_ne_nil_of_right_ne_nil _ (cons_ne_nil _ _))

lemma StartsAll.append (h : StartsAll written)
    (hw : (∀ v ∈ written, v.connection ≠ w.connection) → w.Starts) : StartsAll (written ++ [w]) := by
  intro before x after heq hfirst
  obtain rfl | ⟨after,y,rfl⟩ := eq_nil_or_concat after
  · obtain ⟨rfl,⟨⟩⟩ := append_inj' heq rfl
    exact hw hfirst
  · rw [concat_eq_append,← cons_append,← append_assoc] at heq
    obtain ⟨rfl,-⟩ := append_inj' heq rfl
    exact h before x after rfl hfirst

variable {c d : Client} {label : Label}

def Client.Idle (c : Client) : Prop :=
  c.sendFlags.noFin = false ∧ c.sendBufferSize ≤ c.sendBufferOffset
instance (c : Client) : Decidable c.Idle :=
  inferInstanceAs (Decidable (_ ∧ _))
def Client.Starting (c : Client) : Prop :=
  c.sendFlags.kind ≠ .continuation ∧ c.sendBufferOffset = 0 ∧ c.origin = some c.connections

structure Client.Clean (c : Client) : Prop where
  starts : StartsAll c.written
  past : ∀ w ∈ c.written, w.connection ≤ c.connections
  ready : c.established → (∀ w ∈ c.written, w.connection ≠ c.connections) →
    c.Idle ∨ c.Starting ∧ 0 < c.sendBufferSize

/-- A connection is established when nothing of the message before is left, and buffers without bytes are supplied only
while sending is on. -/
def Client.fresh (c : Client) : Label → Prop
  | .established => c.Idle
  | .writable supply memory resumed _ =>
    (resumed → supply.isSome ∧ memory) ∧ (c.canSend ∨ supply.all (!·.data.isEmpty))
  | _ => True

instance (c : Client) (label : Label) : Decidable (c.fresh label) :=
  match label with
  | .established => inferInstanceAs (Decidable c.Idle)
  | .writable _ _ _ _ => inferInstanceAs (Decidable (_ ∧ _))
  | .connect _ | .canSend _ | .canRecv _ | .disconnect | .close | .service _ _ | .closed | .destroyed
  | .receive _ _ => isTrue trivial
lemma bufferTypeToLwsFlags_kind {lastMode} (h : lastMode.noFin = false) (type : BufferType) :
    (bufferTypeToLwsFlags lastMode type).kind ≠ .continuation := by
  unfold bufferTypeToLwsFlags
  rw [h]
  cases type <;> nofun
lemma Client.Clean.orClose {r} (h : r.1.Clean) : (Client.orClose r).Clean := by
  unfold Client.orClose
  split
  · exact h
  · exact ⟨h.starts,h.past,nofun⟩

lemma write_clean (hall : StartsAll c.written) (hpast : ∀ w ∈ c.written, w.connection ≤ c.connections)
    (hstarting : (∀ w ∈ c.written, w.connection ≠ c.connections) → c.Starting) (result : Option ℕ) :
    (c.write result).1.Clean := by
  have hclean (offset : ℕ) (w : Written) (hw : w.connection = c.connections) (hstarts : c.Starting → w.Starts) :
      { c with sendBufferOffset := offset, written := c.written ++ [w] }.Clean := by
    have hall' : StartsAll (c.written ++ [w]) := by
      apply hall.append
      rw [hw]
      exact fun hfirst => hstarts (hstarting hfirst)
    refine ⟨hall',?_,fun _ hnone => absurd hw (hnone w (mem_append_right _ (mem_singleton_self w)))⟩
    intro v hv
    obtain hv | hv := mem_append.1 hv
    · exact hpast v hv
    · exact Nat.le_of_eq ((congrArg Written.connection (mem_singleton.1 hv)).trans hw)
  cases result with
  | none | some => exact hclean _ _ rfl fun ⟨hkind,hoffset,horigin⟩ => ⟨hkind,hoffset,horigin⟩

lemma Client.Clean.idle (h : c.Clean) (hestablished : c.established) (hwritten : c.sendBufferSize ≤ c.sendBufferOffset)
    (hnone : ∀ w ∈ c.written, w.connection ≠ c.connections) : c.Idle := by
  obtain hidle | ⟨hstarting,hsize⟩ := h.ready hestablished hnone
  · exact hidle
  · rw [hstarting.2.1] at hwritten
    omega

/-- What copying in does when nothing of the message before is left: a new message is started, or sending is off. -/
theorem copyIn_eq (supply : Option Supply) (memory : Bool) :
    (c.copyIn supply memory).written = c.written ∧ (c.copyIn supply memory).connections = c.connections ∧
    ((∃ s, supply = some s ∧ memory ∧ (c.copyIn supply memory).canSend = c.canSend ∧
        (c.copyIn supply memory).sendBufferSize = s.data.length ∧ (c.Idle → (c.copyIn supply memory).Starting)) ∨
      (¬(supply.isSome ∧ memory) ∧ (c.copyIn supply memory).canSend = false ∧
        (c.Idle → (c.copyIn supply memory).Idle))) := by
  cases supply with
  | none => exact ⟨rfl,rfl,.inr ⟨nofun,rfl,fun h => ⟨h.1,Nat.le_refl _⟩⟩⟩
  | some supply =>
    cases memory with
    | false => exact ⟨rfl,rfl,.inr ⟨nofun,rfl,fun h => ⟨h.1,Nat.le_refl _⟩⟩⟩
    | true =>
      refine ⟨rfl,rfl,.inl ⟨supply,rfl,rfl,rfl,rfl,fun h => ⟨?_,rfl,rfl⟩⟩⟩
      exact bufferTypeToLwsFlags_kind h.1 supply.type

lemma onSend_clean (h : c.Clean) (hestablished : c.established) {supply} {memory resumed} (result : Option ℕ)
    (hfresh : c.fresh (.writable supply memory resumed result)) : (c.onSend supply memory resumed result).1.Clean := by
  obtain ⟨hresumed,hsupply⟩ := hfresh
  unfold onSend
  split
  · exact ⟨h.starts,h.past,h.ready⟩
  split
  · rename_i hwritten
    have hidle := h.idle hestablished hwritten
    obtain ⟨hsame,hconnections,hcopy⟩ := copyIn_eq supply memory
    generalize c.copyIn supply memory = e at hsame hconnections hcopy
    have hall : StartsAll e.written := hsame ▸ h.starts
    have hpast : ∀ w ∈ e.written, w.connection ≤ e.connections := by
      rw [hsame,hconnections]
      exact h.past
    rw [← hsame,← hconnections] at hidle
    obtain ⟨s,rfl,-,hcan,hsize,hstarting⟩ | ⟨hnothing,hcan,hstill⟩ := hcopy
    · dsimp only
      split
      · rename_i hoff
        have hdata : s.data ≠ [] := by
          simp only [hcan,Bool.not_eq_true',Bool.or_eq_false_iff] at hoff
          simpa [hoff.1] using hsupply
        have hpos : 0 < e.sendBufferSize := hsize ▸ length_pos_iff.2 hdata
        exact ⟨hall,hpast,fun _ hnone => .inr ⟨hstarting (hidle hnone),hpos⟩⟩
      · exact write_clean (c := { e with canSend := e.canSend || resumed }) hall hpast
          (fun hnone => hstarting (hidle hnone)) result
    · have hoff : resumed = false := Bool.not_eq_true _ ▸ fun htrue => hnothing (hresumed htrue)
      dsimp only
      rw [hcan,hoff]
      exact ⟨hall,hpast,fun _ hnone => .inl (hstill (hidle hnone))⟩
  · rename_i hleft
    refine write_clean h.starts h.past (fun hnone => ?_) result
    obtain hidle | ⟨hstarting,-⟩ := h.ready hestablished hnone
    · exact absurd hidle.2 hleft
    · exact hstarting

lemma Client.Clean.of_keepsSending (h : c.Clean) (hattends : c.KeepsSending d) : d.Clean := by
  obtain ⟨_,hsize,hoffset,hflags,horigin,_,_,hwritten⟩ := SendSide.mk.inj hattends.sendSide
  refine ⟨hwritten ▸ h.starts,?_,fun hestablished => ?_⟩
  · rw [hwritten]
    exact fun w hw => Nat.le_trans (h.past w hw) hattends.connections
  · obtain ⟨hbefore,hconnections⟩ := hattends.established hestablished
    unfold Idle Starting
    rw [hwritten,hflags,hoffset,hsize,horigin,hconnections]
    exact h.ready hbefore

lemma step_clean (h : c.Clean) (hfresh : c.fresh label) (hstep : c.step label = some d) : d.Clean := by
  cases does_of_step hstep with
  | attends _ hattends => exact h.of_keepsSending hattends.toKeepsSending
  | establishes _ _ hside hconnections =>
    obtain ⟨_,hsize,hoffset,hflags,_,_,_,hwritten⟩ := SendSide.mk.inj hside
    refine ⟨hwritten ▸ h.starts,?_,fun _ _ => .inl ?_⟩
    · rw [hwritten,hconnections]
      exact h.past
    · unfold Idle
      rw [hflags,hoffset,hsize]
      exact hfresh
  | sends hestablished => exact (onSend_clean h hestablished _ hfresh).orClose
  | receives hreceive => exact h.of_keepsSending (receives_keepsSending hreceive)

/-- Every buffer that was supplied was ended, in order. -/
def Client.EndsAll (c : Client) : Prop :=
  c.ended.map Prod.fst = c.supplied

lemma write_endsAll (h : c.EndsAll) (result : Option ℕ) : (c.write result).1.EndsAll := by
  cases result <;> exact h
lemma copyIn_endsAll (h : c.EndsAll) (supply : Option Supply) (memory : Bool) : (c.copyIn supply memory).EndsAll := by
  have happend (s : Supply) (result : Option PrxError) :
      (c.ended ++ [(s.key,result)]).map Prod.fst = c.supplied ++ [s.key] := by
    rw [map_append,h]
    rfl
  cases supply with
  | none => exact h
  | some s => cases memory <;> exact happend s _

lemma onSend_endsAll (h : c.EndsAll) (supply : Option Supply) (memory resumed : Bool) (result : Option ℕ) :
    (c.onSend supply memory resumed result).1.EndsAll := by
  have hcopy := copyIn_endsAll h supply memory
  have hwrite := write_endsAll (c := { c.copyIn supply memory with
    canSend := (c.copyIn supply memory).canSend || resumed }) hcopy result
  unfold onSend
  split
  · exact h
  split
  · dsimp only
    split
    · exact hcopy
    · exact hwrite
  · exact write_endsAll h result

lemma step_endsAll (h : c.EndsAll) (hstep : c.step label = some d) : d.EndsAll := by
  have hsame (hside : d.sendSide = c.sendSide) : d.EndsAll := by
    obtain ⟨_,_,_,_,_,hsupplied,hended,_⟩ := SendSide.mk.inj hside
    unfold EndsAll
    rw [hended,hsupplied]
    exact h
  cases does_of_step hstep with
  | attends _ hattends => exact hsame hattends.sendSide
  | establishes _ _ hside => exact hsame hside
  | @sends supply memory resumed result =>
    have hsend := onSend_endsAll h supply memory resumed result
    unfold orClose
    split <;> exact hsend
  | receives hreceive => exact hsame (receives_keepsSending hreceive).sendSide

variable {labels : List Label}

/-- Every buffer that is supplied gets one callback at its end. The first frame of a connection is not a continuation
and starts with a buffer of that connection, if each step is fresh. -/
theorem connections_start (hruns : Runs Client.step .create labels c) :
    c.EndsAll ∧ (Along Client.step Client.fresh .create labels → StartsAll c.written) := by
  constructor
  · exact hruns.invariant (fun h _ hstep => step_endsAll h hstep) along_true
      rfl
  · intro hfresh
    have hclean : create.Clean := ⟨startsAll_nil,nofun,nofun⟩
    exact (hruns.invariant step_clean hfresh hclean).starts

def reconnected : List Label :=
  [.closed,.service true true,.connect .attached,.service true true,.established,.canSend true]
def sentAll : List Label :=
  connected ++ [.canSend true,.writable (some ⟨0,[1,2],.binaryFragment⟩) true false (some 2),
    .writable (some ⟨1,[3],.binaryMsg⟩) true false (some 1)] ++ reconnected ++
    [.writable (some ⟨2,[4],.binaryMsg⟩) true false (some 1)]
theorem sentAll_start : ∃ c, Runs Client.step .create sentAll c ∧ c.connections = 2 ∧
    c.written.map (fun w => (w.connection,w.bytes)) = [(1,[1,2]),(1,[3]),(2,[4])] ∧ c.EndsAll ∧
      StartsAll c.written := by
  obtain ⟨c,hc,hconnections,hwritten⟩ : ∃ c, Runs Client.step .create sentAll c ∧ c.connections = 2 ∧
      c.written.map (fun w => (w.connection,w.bytes)) = [(1,[1,2]),(1,[3]),(2,[4])] := by decide +kernel
  obtain ⟨hends,hstarts⟩ := connections_start hc
  exact ⟨c,hc,hconnections,hwritten,hends,hstarts (by decide +kernel)⟩

def sentPart : List Label :=
  connected ++ [.canSend true,.writable (some ⟨0,[1,2,3],.binaryFragment⟩) true false (some 2)] ++ reconnected ++
    [.writable none true false (some 1)]
def sentFragment : List Label :=
  connected ++ [.canSend true,.writable (some ⟨0,[1,2,3],.binaryFragment⟩) true false (some 3)] ++ reconnected ++
    [.writable (some ⟨1,[4],.binaryMsg⟩) true false (some 1)]

/-- The second connection starts in the middle of a buffer, or with a continuation. -/
theorem sentPart_sentFragment_not_start :
    (∃ c v w, Runs Client.step .create sentPart c ∧ c.written = [v,w] ∧ v.connection = 1 ∧ w.connection = 2 ∧
      w.offset = 2 ∧ w.origin = some 1 ∧ ¬StartsAll c.written) ∧
    ∃ c v w, Runs Client.step .create sentFragment c ∧ c.written = [v,w] ∧ v.connection = 1 ∧ w.connection = 2 ∧
      w.flags.kind = .continuation ∧ ¬StartsAll c.written := by
  have hfirst {c : Client} {v w : Written} (hwritten : c.written = [v,w]) (hv : v.connection ≠ w.connection)
      (hw : ¬w.Starts) : ¬StartsAll c.written := by
    intro h
    exact hw (h [v] w [] hwritten fun u hu => mem_singleton.1 hu ▸ hv)
  obtain ⟨⟨c,hc,hwritten⟩,⟨d,hd,hwritten'⟩⟩ : (∃ c, Runs Client.step .create sentPart c ∧
        c.written = [⟨1,⟨.binary,true⟩,0,some 1,[1,2,3]⟩,⟨2,⟨.binary,true⟩,2,some 1,[3]⟩]) ∧
      ∃ c, Runs Client.step .create sentFragment c ∧
        c.written = [⟨1,⟨.binary,true⟩,0,some 1,[1,2,3]⟩,⟨2,⟨.continuation,false⟩,0,some 2,[4]⟩] := by decide +kernel
  exact ⟨⟨c,_,_,hc,hwritten,rfl,rfl,rfl,rfl,hfirst hwritten (by decide) (by decide)⟩,
    d,_,_,hd,hwritten',rfl,rfl,rfl,hfirst hwritten' (by decide) (by decide)⟩

end EdgeProxy.Lws
