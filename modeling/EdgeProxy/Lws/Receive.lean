import EdgeProxy.Lws.Steps

/-! # The receive path

What the library delivers is a stream of bytes and ends of messages. The client hands it on in buffers of the upper
layer and keeps what was refused until the next delivery.
-/
namespace EdgeProxy.Lws
open Lib List Option Lws.Client
open Ws (BufferType)

inductive Token where
  | byte (binary : Bool) (value : UInt8)
  | fin (binary : Bool)
deriving DecidableEq

def tokens (binary more : Bool) (data : List UInt8) : List Token :=
  data.map (.byte binary) ++ if more then [] else [.fin binary]
def Delivery.tokens (delivery : Delivery) : List Token :=
  Lws.tokens delivery.binary delivery.more delivery.data
def handedTokens (buffer : List UInt8 × BufferType) : List Token :=
  Lws.tokens buffer.2.isBinary (!buffer.2.isMsg) buffer.1
def flagTokens (flags : WriteFlags) (data : List UInt8) : List Token :=
  Lws.tokens (flags.kind = .binary) flags.noFin data
def Client.arriving (c : Client) : List Token :=
  c.handed.flatMap handedTokens ++ if c.recvBuffer = [] then [] else flagTokens c.recvFlags c.recvBuffer
def Client.delivered (c : Client) : List Token :=
  c.received.flatMap Delivery.tokens
lemma tokens_append (binary more : Bool) (front rest : List UInt8) :
    tokens binary true front ++ tokens binary more rest = tokens binary more (front ++ rest) := by
  simp [tokens]

lemma handedTokens_eq {flags} (hflags : flags.kind ≠ .continuation) (data : List UInt8) (forcePartial : Bool) :
    handedTokens (data,bufferTypeFromLwsFlags flags forcePartial) =
      tokens (flags.kind = .binary) (flags.noFin || forcePartial) data := by
  obtain ⟨kind,noFin⟩ := flags
  cases kind with
  | continuation => exact absurd rfl hflags
  | text | binary => cases noFin <;> cases forcePartial <;> rfl

variable {flags : WriteFlags} {answers rest : List Answer} {data : List UInt8}

def capacity : List Answer → ℕ
  | .buffer size :: answers => size + capacity answers
  | _ => 0
def Supplies (answers : List Answer) : Prop :=
  ∀ memory, Answer.refused memory ∉ answers

inductive CopyOutcome (flags : WriteFlags) (data : List UInt8) : List Answer → Copied → Prop
  | completes (used : List Answer) {rest : List Answer} {handed : List (List UInt8 × BufferType)} :
      Supplies used → data.length ≤ capacity used →
      handed.flatMap handedTokens = (if data = [] then [] else flagTokens flags data) →
      CopyOutcome flags data (used ++ rest) ⟨handed,none,rest⟩
  | refuses (used : List Answer) (front : List UInt8) (memory : Bool) {rest : List Answer}
      {handed : List (List UInt8 × BufferType)} {back : List UInt8} :
      Supplies used → data = front ++ back → back ≠ [] → capacity used ≤ front.length →
      handed.flatMap handedTokens = tokens (flags.kind = .binary) true front →
      CopyOutcome flags data (used ++ .refused memory :: rest) ⟨handed,some (if memory then back else []),rest⟩

lemma supplies_nil : Supplies [] :=
  fun _ => not_mem_nil
lemma Supplies.cons {size} (h : Supplies answers) : Supplies (.buffer size :: answers) := by
  intro memory hmem
  cases hmem with
  | tail _ hmem => exact h memory hmem
lemma handed_part (hflags : flags.kind ≠ .continuation) {size} (hsize : size < data.length) :
    handedTokens (data.take size,bufferTypeFromLwsFlags flags (size < data.length)) =
      tokens (flags.kind = .binary) true (data.take size) := by
  rw [handedTokens_eq hflags,decide_eq_true hsize,Bool.or_true]

lemma CopyOutcome.buffer (hflags : flags.kind ≠ .continuation) {size copied} (hdata : data ≠ [])
    (h : CopyOutcome flags (data.drop size) answers copied) : CopyOutcome flags data (.buffer size :: answers)
      { copied with
        handed := (data.take size,bufferTypeFromLwsFlags flags (size < data.length)) :: copied.handed } := by
  cases h with
  | @completes used rest handed hused hlength hhanded =>
    refine .completes (.buffer size :: used) hused.cons ?_ ?_
    · rw [length_drop] at hlength
      exact Nat.sub_le_iff_le_add'.1 hlength
    · rw [if_neg hdata,flatMap_cons,hhanded]
      by_cases hsize : size < data.length
      · have hdrop : data.drop size ≠ [] := fun hnil => Nat.not_le.2 hsize (drop_eq_nil_iff.1 hnil)
        rw [if_neg hdrop,handed_part hflags hsize,flagTokens,tokens_append,take_append_drop,flagTokens]
      · have hle : data.length ≤ size := Nat.le_of_not_lt hsize
        rw [if_pos (drop_eq_nil_of_le hle),handedTokens_eq hflags,take_of_length_le hle,
          decide_eq_false hsize,Bool.or_false,append_nil,flagTokens]
  | @refuses used front memory rest handed back hused hsplit hback hcapacity hhanded =>
    have hsize : size < data.length := by
      apply Nat.lt_of_not_le
      intro hle
      rw [drop_eq_nil_of_le hle] at hsplit
      exact hback (append_eq_nil_iff.1 hsplit.symm).2
    refine .refuses (.buffer size :: used) (data.take size ++ front) memory hused.cons ?_ hback ?_ ?_
    · rw [append_assoc,← hsplit,take_append_drop]
    · rw [length_append,length_take,Nat.min_eq_left (Nat.le_of_lt hsize)]
      exact Nat.add_le_add_left hcapacity size
    · rw [flatMap_cons,hhanded,handed_part hflags hsize,tokens_append]

lemma copyOut_outcome (hflags : flags.kind ≠ .continuation) {copied}
    (h : copyOut flags answers data = some copied) : CopyOutcome flags data answers copied := by
  induction answers generalizing data copied with
  | nil =>
    cases data with
    | nil =>
      cases h
      exact .completes [] supplies_nil (Nat.zero_le _) rfl
    | cons => cases h
  | cons answer answers ih =>
    cases data with
    | nil =>
      cases h
      exact .completes [] supplies_nil (Nat.zero_le _) rfl
    | cons =>
      cases answer with
      | refused memory =>
        cases h
        exact .refuses [] [] memory supplies_nil rfl (cons_ne_nil _ _) (Nat.le_refl _) rfl
      | buffer =>
        obtain ⟨copied,hcopy,rfl⟩ := map_eq_some_iff.1 h
        exact (ih hcopy).buffer hflags (cons_ne_nil _ _)

variable {c d : Client} {delivery : Delivery}

inductive Client.Copies (c : Client) (flags : WriteFlags) (data : List UInt8) (d : Client) (rest : List Answer) :
    List Answer → Prop
  | hands (used : List Answer) : Supplies used → data.length ≤ capacity used → d.recvBuffer = [] →
      d.arriving = c.arriving ++ (if data = [] then [] else flagTokens flags data) →
        c.Copies flags data d rest (used ++ rest)
  | keeps (used : List Answer) : Supplies used → capacity used < data.length → d.recvBuffer ≠ [] →
      d.arriving = c.arriving ++ flagTokens flags data → c.Copies flags data d rest (used ++ .refused true :: rest)
  | loses (used : List Answer) : data ≠ [] → d.recvBuffer = [] →
      d.arriving.length < c.arriving.length + (flagTokens flags data).length →
      c.Copies flags data d rest (used ++ .refused false :: rest)

lemma arriving_of_empty (h : c.recvBuffer = []) : c.arriving = c.handed.flatMap handedTokens := by
  rw [arriving,if_pos h,append_nil]
lemma arriving_of_kept (h : c.recvBuffer ≠ []) :
    c.arriving = c.handed.flatMap handedTokens ++ flagTokens c.recvFlags c.recvBuffer := by
  rw [arriving,if_neg h]

lemma copyOut_copies (hflags : flags.kind ≠ .continuation) (hempty : c.recvBuffer = [])
    (h : c.copyOut flags answers data = some (d,rest)) : c.Copies flags data d rest answers := by
  obtain ⟨copied,hcopy,heq⟩ := map_eq_some_iff.1 h
  have hc := arriving_of_empty hempty
  cases copyOut_outcome hflags hcopy with
  | completes used hused hlength hhanded =>
    cases heq
    refine .hands used hused hlength hempty ?_
    rw [hc,← hhanded,← flatMap_append]
    exact arriving_of_empty hempty
  | @refuses used front memory rest handed back hused hsplit hback hcapacity hhanded =>
    obtain ⟨byte,back,rfl⟩ := exists_cons_of_ne_nil hback
    cases memory with
    | true =>
      cases heq
      refine .keeps used hused ?_ (cons_ne_nil _ _) ?_
      · rw [hsplit,length_append,length_cons]
        omega
      · rw [hc,flagTokens,hsplit,← tokens_append,← hhanded,← append_assoc,← flatMap_append]
        exact arriving_of_kept (cons_ne_nil _ _)
    | false =>
      cases heq
      refine .loses used (hsplit ▸ append_ne_nil_of_right_ne_nil _ (cons_ne_nil _ _)) rfl ?_
      have hd : ((c.handed ++ handed).flatMap handedTokens).length = c.arriving.length + front.length := by
        rw [hc,flatMap_append,hhanded]
        simp [tokens]
      have hdata : front.length < (flagTokens flags data).length := by
        rw [hsplit]
        simp [flagTokens,tokens]
      rw [arriving_of_empty rfl]
      exact Nat.lt_of_le_of_lt (Nat.le_of_eq hd) (Nat.add_lt_add_left hdata _)

def Client.Plain (c : Client) : Prop :=
  c.recvFlags.kind ≠ .continuation
lemma copyOut_frame (hflags : flags.kind ≠ .continuation) (hc : c.Plain)
    (h : c.copyOut flags answers data = some (d,rest)) : d.Plain ∧ d.received = c.received := by
  obtain ⟨copied,-,heq⟩ := map_eq_some_iff.1 h
  split at heq <;> cases heq
  · exact ⟨hc,rfl⟩
  · exact ⟨nofun,rfl⟩
  · exact ⟨hflags,rfl⟩

lemma flags_plain (delivery : Delivery) : delivery.flags.kind ≠ .continuation := by
  unfold Delivery.flags
  cases delivery.binary <;> nofun
lemma flagTokens_flags (delivery : Delivery) : flagTokens delivery.flags delivery.data = delivery.tokens := by
  unfold Delivery.flags Delivery.tokens
  cases delivery.binary <;> rfl

lemma Client.Copies.le_length (h : c.Copies flags data d rest answers) :
    d.arriving.length ≤ c.arriving.length + (flagTokens flags data).length := by
  cases h with
  | hands used _ _ _ harriving =>
    rw [harriving,length_append]
    split
    · exact Nat.add_le_add_left (Nat.zero_le _) _
    · exact Nat.le_refl _
  | keeps used _ _ _ harriving => exact Nat.le_of_eq ((congrArg List.length harriving).trans length_append)
  | loses used _ _ hlength => exact Nat.le_of_lt hlength

def Retained (answers : List Answer) : Prop :=
  Answer.refused false ∉ answers
instance (answers : List Answer) : Decidable (Retained answers) :=
  inferInstanceAs (Decidable (_ ∉ _))
lemma retained_append {used} (h : Supplies used) : Retained (used ++ rest) ↔ Retained rest := by
  unfold Retained
  rw [mem_append,not_or,and_iff_right (h false)]
lemma retained_nil : Retained [] :=
  not_mem_nil
lemma retained_kept : Retained [.refused true] := by
  decide
lemma not_retained (used : List Answer) : ¬Retained (used ++ .refused false :: rest) :=
  fun h => h (mem_append_right _ mem_cons_self)

/-- A delivery to a client that keeps nothing arrives if nothing is lost, and it is not an end of a message alone. -/
theorem Client.Copies.deliver (h : c.Copies delivery.flags delivery.data d [] answers) :
    ((Retained answers ∧ (delivery.tokens = [] ∨ delivery.data ≠ [])) ∧ d.arriving = c.arriving ++ delivery.tokens) ∨
    (¬(Retained answers ∧ (delivery.tokens = [] ∨ delivery.data ≠ [])) ∧
      d.arriving.length < c.arriving.length + delivery.tokens.length) := by
  cases h with
  | hands used hused _ _ harriving =>
    have hretained : Retained (used ++ []) := (retained_append hused).2 retained_nil
    rw [flagTokens_flags] at harriving
    by_cases hdata : delivery.data = []
    · rw [if_pos hdata,append_nil] at harriving
      by_cases htokens : delivery.tokens = []
      · refine .inl ⟨⟨hretained,.inl htokens⟩,?_⟩
        rw [htokens,append_nil,harriving]
      · refine .inr ⟨fun h => h.2.elim htokens (fun hne => hne hdata),?_⟩
        rw [harriving]
        exact Nat.lt_add_of_pos_right (length_pos_iff.2 htokens)
    · rw [if_neg hdata] at harriving
      exact .inl ⟨⟨hretained,.inr hdata⟩,harriving⟩
  | keeps used hused hcapacity _ harriving =>
    have hdata : delivery.data ≠ [] := length_pos_iff.1 (Nat.zero_lt_of_lt hcapacity)
    rw [flagTokens_flags] at harriving
    exact .inl ⟨⟨(retained_append hused).2 retained_kept,.inr hdata⟩,harriving⟩
  | loses used _ _ hlength =>
    rw [flagTokens_flags] at hlength
    exact .inr ⟨fun h => not_retained used h.1,hlength⟩

/-- All of a delivery arrives: what was kept fits in the buffers before a refusal, nothing is lost for lack of memory,
the client is not being disconnected, and it is no end of a message without bytes. -/
def Client.accepts (c : Client) (delivery : Delivery) (answers : List Answer) : Prop :=
  Retained answers ∧
    (delivery.tokens = [] ∨ c.disconnecting = false ∧ delivery.data ≠ [] ∧ c.recvBuffer.length ≤ capacity answers)

instance (c : Client) (delivery : Delivery) (answers : List Answer) : Decidable (c.accepts delivery answers) :=
  inferInstanceAs (Decidable (_ ∧ (_ ∨ _)))
def Client.Receives (c : Client) (delivery : Delivery) (answers : List Answer) (d : Client) : Prop :=
  (c.accepts delivery answers ∧ d.arriving = c.arriving ++ delivery.tokens) ∨
    (¬c.accepts delivery answers ∧ d.arriving.length < c.arriving.length + delivery.tokens.length)

lemma capacity_append {used} (h : Supplies used) (rest : List Answer) :
    capacity (used ++ rest) = capacity used + capacity rest := by
  induction used with
  | nil => exact (Nat.zero_add _).symm
  | cons answer used ih =>
    cases answer with
    | refused memory => exact absurd mem_cons_self (h memory)
    | buffer =>
      have hused : Supplies used := fun memory hmem => h memory (mem_cons_of_mem _ hmem)
      rw [cons_append,capacity,capacity,ih hused,Nat.add_assoc]
lemma receives_of_unread (haccepts : c.accepts delivery answers ↔ delivery.tokens = [])
    (hd : d.arriving = c.arriving) : c.Receives delivery answers d := by
  unfold Receives
  rw [haccepts,hd]
  by_cases htokens : delivery.tokens = []
  · exact .inl ⟨htokens,by rw [htokens,append_nil]⟩
  · exact .inr ⟨htokens,Nat.lt_add_of_pos_right (length_pos_iff.2 htokens)⟩
lemma receives_of_empty (hactive : c.disconnecting = false) (hempty : c.recvBuffer = [])
    (h : c.copyOut delivery.flags answers delivery.data = some (d,[])) : c.Receives delivery answers d := by
  have haccepts : c.accepts delivery answers ↔ Retained answers ∧ (delivery.tokens = [] ∨ delivery.data ≠ []) := by
    unfold accepts
    rw [hactive,hempty]
    simp
  unfold Receives
  rw [haccepts]
  exact (copyOut_copies (flags_plain delivery) hempty h).deliver
lemma takeKept_arriving (h : c.recvBuffer ≠ []) :
    c.arriving = c.takeKept.arriving ++ flagTokens c.recvFlags c.recvBuffer := by
  rw [arriving_of_kept h,arriving_of_empty rfl]
  rfl

/-- A delivery while something is kept: it is copied first, and a refusal leaves the delivery unread. -/
theorem receives_of_kept (hactive : c.disconnecting = false) (hplain : c.Plain) (hkept : c.recvBuffer ≠ [])
    (h : c.takeKept.copyOut c.recvFlags answers c.recvBuffer = some (d,rest)) {e}
    (hrest : (d.recvBuffer ≠ [] ∧ rest = [] ∧ e = d) ∨
      (d.recvBuffer = [] ∧ d.copyOut delivery.flags rest delivery.data = some (e,[]))) :
    c.Receives delivery answers e := by
  have hc := takeKept_arriving hkept
  cases copyOut_copies hplain rfl h with
  | hands used hused hlength hempty harriving =>
    rw [if_neg hkept,← hc] at harriving
    have hcapacity : c.recvBuffer.length ≤ capacity (used ++ rest) := by
      rw [capacity_append hused]
      exact Nat.le_trans hlength (Nat.le_add_right _ _)
    have haccepts : c.accepts delivery (used ++ rest) ↔
        Retained rest ∧ (delivery.tokens = [] ∨ delivery.data ≠ []) := by
      unfold accepts
      rw [retained_append hused,hactive]
      simp [hcapacity]
    obtain ⟨hne,-,-⟩ | ⟨-,hcopy⟩ := hrest
    · exact absurd hempty hne
    · unfold Receives
      rw [haccepts,← harriving]
      exact (copyOut_copies (flags_plain delivery) hempty hcopy).deliver
  | keeps used hused hcapacity hne harriving =>
    rw [← hc] at harriving
    obtain ⟨-,rfl,rfl⟩ | ⟨hempty,-⟩ := hrest
    · have hfull : ¬c.recvBuffer.length ≤ capacity (used ++ [.refused true]) := by
        rw [capacity_append hused]
        exact Nat.not_le_of_lt hcapacity
      have haccepts : c.accepts delivery (used ++ [.refused true]) ↔ delivery.tokens = [] := by
        unfold accepts
        rw [retained_append hused]
        simp [hfull,retained_kept]
      exact receives_of_unread haccepts harriving
    · exact absurd hempty hne
  | loses used _ hempty hlength =>
    rw [← length_append,← hc] at hlength
    obtain ⟨hne,-,-⟩ | ⟨-,hcopy⟩ := hrest
    · exact absurd hempty hne
    · have hle := (copyOut_copies (flags_plain delivery) hempty hcopy).le_length
      rw [flagTokens_flags] at hle
      exact .inr ⟨fun h => not_retained used h.1,Nat.lt_of_le_of_lt hle (Nat.add_lt_add_right hlength _)⟩

lemma onReceive_receives (hplain : c.Plain) {r} (h : c.onReceive delivery answers = some r) :
    c.Receives delivery answers r.1 ∧ r.1.Plain ∧ r.1.received = c.received := by
  unfold onReceive at h
  split at h
  · rename_i hdisconnecting
    obtain ⟨rfl,⟨⟩⟩ := ite_none_right_eq_some.1 h
    refine ⟨receives_of_unread ?_ rfl,hplain,rfl⟩
    simp [accepts,hdisconnecting,retained_nil]
  rename_i hactive
  have hactive : c.disconnecting = false := Bool.not_eq_true _ ▸ hactive
  obtain ⟨⟨d,rest⟩,hleft,h⟩ := bind_eq_some_iff.1 h
  dsimp only at h
  split at hleft
  · rename_i hempty
    cases hleft
    rw [if_neg (not_not.2 hempty)] at h
    obtain ⟨⟨e,rest⟩,hcopy,h⟩ := bind_eq_some_iff.1 h
    obtain ⟨rfl,⟨⟩⟩ := ite_none_right_eq_some.1 h
    exact ⟨receives_of_empty hactive hempty hcopy,copyOut_frame (flags_plain delivery) hplain hcopy⟩
  · rename_i hkept
    have hplainKept : c.takeKept.Plain := nofun
    obtain ⟨hplain',hreceived⟩ := copyOut_frame hplain hplainKept hleft
    split at h
    · rename_i hne
      obtain ⟨rfl,⟨⟩⟩ := ite_none_right_eq_some.1 h
      exact ⟨receives_of_kept hactive hplain hkept hleft (.inl ⟨hne,rfl,rfl⟩),hplain',hreceived⟩
    · rename_i hempty
      obtain ⟨⟨e,rest'⟩,hcopy,h⟩ := bind_eq_some_iff.1 h
      obtain ⟨rfl,⟨⟩⟩ := ite_none_right_eq_some.1 h
      obtain ⟨hplain'',hreceived'⟩ := copyOut_frame (flags_plain delivery) hplain' hcopy
      have hrest := receives_of_kept hactive hplain hkept hleft (.inr ⟨not_not.1 hempty,hcopy⟩)
      exact ⟨hrest,hplain'',hreceived'.trans hreceived⟩

variable {label : Label}

def Client.passes (c : Client) : Label → Prop
  | .receive delivery answers => c.accepts delivery answers
  | _ => True
instance (c : Client) (label : Label) : Decidable (c.passes label) :=
  match label with
  | .receive delivery answers => inferInstanceAs (Decidable (c.accepts delivery answers))
  | .connect _ | .canSend _ | .canRecv _ | .disconnect | .close | .service _ _ | .established | .closed | .destroyed
  | .writable _ _ _ _ => isTrue trivial
lemma arriving_congr (h : d.receiveSide = c.receiveSide) : d.arriving = c.arriving := by
  obtain ⟨hbuffer,hflags,hhanded,_⟩ := ReceiveSide.mk.inj h
  unfold arriving
  rw [hbuffer,hflags,hhanded]
lemma delivered_congr (h : d.receiveSide = c.receiveSide) : d.delivered = c.delivered := by
  have hreceived : d.received = c.received := congrArg ReceiveSide.received h
  unfold delivered
  rw [hreceived]

lemma orClose_receiveSide (r : Client × Bool) : (orClose r).receiveSide = r.1.receiveSide := by
  unfold orClose
  split <;> rfl
lemma write_receiveSide (result : Option ℕ) : (c.write result).1.receiveSide = c.receiveSide := by
  cases result <;> rfl
lemma copyIn_receiveSide (supply : Option Supply) (memory : Bool) :
    (c.copyIn supply memory).receiveSide = c.receiveSide := by
  cases supply <;> cases memory <;> rfl

lemma onSend_receiveSide (supply : Option Supply) (memory resumed : Bool) (result : Option ℕ) :
    (c.onSend supply memory resumed result).1.receiveSide = c.receiveSide := by
  have hcopy := copyIn_receiveSide (c := c) supply memory
  unfold onSend
  split
  · rfl
  split
  · dsimp only
    split
    · exact hcopy
    · exact (write_receiveSide _).trans hcopy
  · exact write_receiveSide _
def Client.Bounded (c : Client) : Prop :=
  c.arriving.length ≤ c.delivered.length ∧ c.Plain

lemma step_arriving (hc : c.Bounded) (h : c.step label = some d) :
    d.Bounded ∧ (d.arriving = d.delivered ↔ c.arriving = c.delivered ∧ c.passes label) := by
  have hsame (hside : d.receiveSide = c.receiveSide) (hpasses : c.passes label) :
      d.Bounded ∧ (d.arriving = d.delivered ↔ c.arriving = c.delivered ∧ c.passes label) := by
    have hflags : d.recvFlags = c.recvFlags := congrArg ReceiveSide.recvFlags hside
    unfold Bounded Plain
    rw [arriving_congr hside,delivered_congr hside,hflags,and_iff_left hpasses]
    exact ⟨hc,.rfl⟩
  cases does_of_step h with
  | attends hlabel hattends =>
    refine hsame hattends.receiveSide ?_
    cases label with
    | receive delivery answers => exact absurd rfl (hlabel delivery answers)
    | _ => trivial
  | establishes _ hside => exact hsame hside trivial
  | sends => exact hsame ((orClose_receiveSide _).trans (onSend_receiveSide _ _ _ _)) trivial
  | @receives delivery answers r hreceive =>
    have hplain : { c with received := c.received ++ [delivery] }.Plain := hc.2
    obtain ⟨hreceives,hplain,hreceived⟩ := onReceive_receives hplain hreceive
    have hside := orClose_receiveSide r
    have hdelivered : (orClose r).delivered = c.delivered ++ delivery.tokens := by
      rw [delivered_congr hside]
      unfold delivered
      rw [hreceived,flatMap_append,flatMap_singleton]
    have hflags : (orClose r).recvFlags = r.1.recvFlags := congrArg ReceiveSide.recvFlags hside
    have harriving := arriving_congr hside
    have hle := hc.1
    unfold Bounded Plain
    rw [hdelivered,hflags,harriving]
    obtain ⟨haccepts,harrives⟩ | ⟨hloses,hlength⟩ := hreceives
    · have hsum : r.1.arriving = c.arriving ++ delivery.tokens := harrives
      rw [hsum,append_left_inj,length_append,length_append]
      exact ⟨⟨Nat.add_le_add_right hle _,hplain⟩,(and_iff_left haccepts).symm⟩
    · have hless : r.1.arriving.length < c.arriving.length + delivery.tokens.length := hlength
      rw [length_append]
      refine ⟨⟨by omega,hplain⟩,iff_of_false (fun heq => ?_) (fun h => hloses h.2)⟩
      rw [heq,length_append] at hless
      omega

lemma arriving_eq_iff {labels : List Label} (hruns : Runs Client.step .create labels c) :
    c.arriving = c.delivered ↔ Along Client.step Client.passes .create labels := by
  have hiff := hruns.iff_along
    (fun _ _ => trivial) (fun hs _ h => step_arriving hs h) ⟨Nat.le_refl _,nofun⟩ trivial
  rw [hiff]
  exact and_iff_right rfl
lemma Client.Bounded.handed_eq_iff (h : c.Bounded) :
    c.handed.flatMap handedTokens = c.delivered ↔ c.arriving = c.delivered ∧ c.recvBuffer = [] := by
  by_cases hempty : c.recvBuffer = []
  · rw [arriving_of_empty hempty,and_iff_left hempty]
  · refine iff_of_false (fun heq => ?_) fun hboth => hempty hboth.2
    -- What is kept has bytes, so that more would arrive than was delivered.
    have hlength := h.1
    have hpos := length_pos_iff.2 hempty
    rw [arriving_of_kept hempty,heq,length_append,flagTokens,tokens,length_append,length_map] at hlength
    omega

/-- All that was delivered was handed on, in order, exactly if every delivery was accepted and nothing is kept; what is
kept is lost with the client. -/
theorem handed_eq_delivered_iff {labels : List Label} (hruns : Runs Client.step .create labels c) :
    c.handed.flatMap handedTokens = c.delivered ↔
      Along Client.step Client.passes .create labels ∧ c.recvBuffer = [] := by
  have hbounded : c.Bounded :=
    hruns.invariant (fun hs _ h => (step_arriving hs h).1) along_true ⟨Nat.le_refl _,nofun⟩
  rw [hbounded.handed_eq_iff,arriving_eq_iff hruns]

/-- In every run, no more bytes and ends of messages are handed over than were delivered. -/
theorem arriving_length_le (labels : List Label) :
    Always Client.step (fun c => c.arriving.length ≤ c.delivered.length) .create labels :=
  always_of_along (fun hc _ h => (step_arriving hc h).1) And.left ⟨Nat.le_refl _,nofun⟩ along_true

def slowly : List Label :=
  connected ++ [.receive ⟨[1,2,3],true,true⟩ [.buffer 2,.refused true],.canRecv true,
    .receive ⟨[4],true,false⟩ [.buffer 1,.buffer 8]]
theorem slowly_arrives : ∃ c, Runs Client.step .create slowly c ∧
    c.handed = [([1,2],.binaryFragment),([3],.binaryFragment),([4],.binaryMsg)] ∧
    c.handed.flatMap handedTokens = c.delivered := by
  obtain ⟨c,hc,hhanded,hempty⟩ : ∃ c, Runs Client.step .create slowly c ∧
      c.handed = [([1,2],.binaryFragment),([3],.binaryFragment),([4],.binaryMsg)] ∧ c.recvBuffer = [] := by
    decide +kernel
  exact ⟨c,hc,hhanded,(handed_eq_delivered_iff hc).2 ⟨by decide +kernel,hempty⟩⟩

def refusing : List Label :=
  connected ++ [.receive ⟨[1],true,false⟩ [.refused true],.canRecv true,.receive ⟨[2],true,false⟩ [.refused true],
    .canRecv true,.receive ⟨[3],true,false⟩ [.buffer 8,.buffer 8]]
def emptyLast : List Label :=
  connected ++ [.receive ⟨[1],true,true⟩ [.buffer 8],.receive ⟨[],true,false⟩ [],.receive ⟨[2],true,false⟩ [.buffer 8]]

def keptToTheEnd : List Label :=
  connected ++ [.receive ⟨[1],true,false⟩ [.refused true],.canRecv true,.service true true,.close,.closed,
    .service true true]

/-- A message is dropped, two messages are merged, and what is kept when the client is freed is lost. -/
theorem refusing_emptyLast_not_arrive :
    (∃ c, Runs Client.step .create refusing c ∧ c.handed = [([1],.binaryMsg),([3],.binaryMsg)] ∧ c.recvBuffer = [] ∧
      c.received.map (·.data) = [[1],[2],[3]] ∧ c.arriving ≠ c.delivered) ∧
    (∃ c, Runs Client.step .create emptyLast c ∧ c.handed = [([1],.binaryFragment),([2],.binaryMsg)] ∧
      c.received = [⟨[1],true,true⟩,⟨[],true,false⟩,⟨[2],true,false⟩] ∧ c.arriving ≠ c.delivered) ∧
    ∃ c, Runs Client.step .create keptToTheEnd c ∧ c.handed = [] ∧ c.freed ∧
      Along Client.step Client.passes .create keptToTheEnd := by
  decide +kernel

end EdgeProxy.Lws
