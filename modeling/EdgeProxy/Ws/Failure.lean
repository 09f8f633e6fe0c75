import EdgeProxy.Ws.Steps

/-! # Sends that fail, and the fragments of a message

A message is encoded in several writes, and a failure resets the stream. The reset drops the buffer that is being
written and what was received, but not the buffers of the message that are already ready to be sent. A buffer is made
ready when the next write finds it full, and the last one by the end of the message.
-/
namespace EdgeProxy.Ws
open Base Lib List Connection

variable {K : Type} {c : Connection K}

structure Chunk where
  memory : List Bool := []
  data : List UInt8
deriving DecidableEq

def Connection.writeAll (c : Connection K) : List Chunk → Connection K × Option PrxError
  | [] => (c,none)
  | chunk :: chunks =>
    match c.streamWriter chunk.memory chunk.data with
    | (c,none) => c.writeAll chunks
    | (c,some e) => (c,some e)

/-- `io_iot_hub_ws_connection_send_handler`; after its writes the encoder can fail itself. -/
def Connection.sendHandler (chunks : List Chunk) (codec : Option PrxError) (c : Connection K) :
    Connection K × Option PrxError :=
  match c.writeAll chunks with
  | (c,result) =>
    match result.or codec with
    | none => (c,none)
    | some e => (c.streamReset,some e)

def Connection.sendMessage (chunks : List Chunk) (codec : Option PrxError) (cb : Option K) (canSend : Option PrxError)
    (c : Connection K) : Connection K × Option PrxError :=
  match c.sendHandler chunks codec with
  | (c,result) => c.send result cb canSend

variable {d : Connection K} {buffer : Buffer K} {memory : List Bool} {data : List UInt8} {fuel : ℕ}

structure Connection.Started (c : Connection K) (buffer : Buffer K) : Prop where
  current : c.outbound.current = some buffer
  length : buffer.length = defaultFrameSize
  room : buffer.data.length ≤ defaultFrameSize

@[simp]
lemma writeLoop_nil (fuel : ℕ) (memory : List Bool) : c.writeLoop fuel memory [] = (c,none) := by
  cases fuel <;> rfl

lemma writeLoop_ready (fuel : ℕ) (memory : List Bool) (data : List UInt8) :
    c.outbound.ready <+: (c.writeLoop fuel memory data).1.outbound.ready := by
  obtain ⟨more,_,_,_,heq⟩ := writeLoop_eq (c := c) fuel memory data
  rw [heq]
  exact prefix_append _ more

lemma Connection.Started.fills (h : c.Started buffer) (room : buffer.data.length < defaultFrameSize)
    (hdata : data ≠ []) : c.writeLoop (fuel + 1) memory data =
      (c.fill buffer data).writeLoop fuel memory (data.drop (defaultFrameSize - buffer.data.length)) := by
  have hfull : ¬(buffer.length - buffer.data.length = 0) := by
    rw [h.length]
    omega
  have hflush : c.flushFull = c := by
    unfold flushFull
    rw [h.current]
    exact if_neg hfull
  rw [writeLoop,if_neg (by simpa using hdata)]
  simp [hflush,h.current,h.length]

lemma Connection.Started.fill (h : c.Started buffer) (data : List UInt8) : (c.fill buffer data).Started { buffer with
      data := buffer.data ++ data.take (buffer.length - buffer.data.length) } := by
  have hroom := h.room
  refine ⟨rfl,h.length,?_⟩
  rw [length_append,length_take,h.length]
  omega

lemma Connection.Started.flushes (h : c.Started buffer) (hfull : buffer.data.length = defaultFrameSize)
    (hdata : data ≠ []) : c.outbound.ready.length < (c.writeLoop (fuel + 1) memory data).1.outbound.ready.length := by
  have hflush : c.flushFull = { c with
      outbound.ready := c.outbound.ready ++ [{ buffer with flags := .binaryFragment }]
      outbound.current := none
      fragments := c.fragments ++ [buffer.key] } := by
    unfold flushFull
    rw [h.current]
    exact if_pos (by rw [h.length,hfull]; rfl)
  have hlonger : c.outbound.ready.length < c.flushFull.outbound.ready.length := by
    rw [hflush,length_append]
    exact Nat.lt_succ_self _
  apply Nat.lt_of_lt_of_le hlonger
  rw [writeLoop,if_neg (by simpa using hdata)]
  simp only [hflush]
  split
  · refine Nat.le_trans ?_ (writeLoop_ready fuel memory.tail _).length_le
    exact Nat.le_refl _
  · exact Nat.le_refl _

lemma Connection.Started.fits (h : c.Started buffer) (memory : List Bool)
    (hfits : buffer.data.length + data.length ≤ defaultFrameSize) :
    ∃ (d : Connection K) (buffer' : Buffer K), c.streamWriter memory data = (d,none) ∧ d.Started buffer' ∧
      d.outbound.ready = c.outbound.ready ∧ buffer'.data.length = buffer.data.length + data.length := by
  cases data with
  | nil => exact ⟨c,buffer,rfl,h,rfl,rfl⟩
  | cons byte data =>
    have hroom : buffer.data.length < defaultFrameSize :=
      Nat.lt_of_lt_of_le (Nat.lt_add_of_pos_right (Nat.succ_pos _)) hfits
    have hrest : (byte :: data).drop (defaultFrameSize - buffer.data.length) = [] :=
      drop_eq_nil_of_le (Nat.le_sub_of_add_le' hfits)
    unfold streamWriter
    rw [length_cons,h.fills hroom (cons_ne_nil _ _),hrest,writeLoop_nil]
    refine ⟨_,_,rfl,h.fill _,rfl,?_⟩
    rw [h.length,take_of_length_le (Nat.le_sub_of_add_le' hfits),length_append,length_cons]

lemma Connection.Started.overflows (h : c.Started buffer) (memory : List Bool)
    (hover : defaultFrameSize < buffer.data.length + data.length) :
    c.outbound.ready.length < (c.streamWriter memory data).1.outbound.ready.length := by
  obtain hfull | hroom := Nat.eq_or_lt_of_le h.room
  · cases data with
    | nil => exact absurd hover (by rw [hfull]; exact Nat.lt_irrefl _)
    | cons => exact h.flushes hfull (cons_ne_nil _ _)
  · -- The first round fills the buffer, and the second one has to make it ready.
    obtain ⟨byte,next,rest,rfl⟩ : ∃ byte next rest, data = byte :: next :: rest := by
      match data with
      | [] => exact absurd hover (by simp only [length_nil]; omega)
      | [byte] => exact absurd hover (by simp only [length_singleton]; omega)
      | byte :: next :: rest => exact ⟨byte,next,rest,rfl⟩
    unfold streamWriter
    rw [length_cons,h.fills hroom (cons_ne_nil _ _)]
    apply (h.fill _).flushes
    · rw [length_append,length_take,h.length]
      omega
    · intro hnil
      have hshort := drop_eq_nil_iff.1 hnil
      omega

variable {chunks : List Chunk}

def totalLength (chunks : List Chunk) : ℕ :=
  (chunks.map (·.data.length)).sum
def firstFails : List Chunk → Bool
  | [] => false
  | chunk :: chunks => if chunk.data.isEmpty then firstFails chunks else !chunk.memory.headD true

lemma writeAll_ready : c.outbound.ready <+: (c.writeAll chunks).1.outbound.ready := by
  induction chunks generalizing c with
  | nil => exact prefix_rfl
  | cons chunk chunks ih =>
    have hready : c.outbound.ready <+: (c.streamWriter chunk.memory chunk.data).1.outbound.ready :=
      writeLoop_ready _ _ _
    unfold writeAll
    split <;> rename_i d _ hwrite <;> rw [hwrite] at hready
    · exact hready.trans ih
    · exact hready

lemma Connection.Started.writeAll_fits (h : c.Started buffer) (chunks : List Chunk)
    (hfits : buffer.data.length + totalLength chunks ≤ defaultFrameSize) :
    (c.writeAll chunks).2 = none ∧ (c.writeAll chunks).1.outbound.ready = c.outbound.ready ∧
      (c.writeAll chunks).1.outbound.current ≠ none := by
  induction chunks generalizing c buffer with
  | nil => exact ⟨rfl,rfl,by rw [writeAll,h.current]; exact Option.some_ne_none _⟩
  | cons chunk chunks ih =>
    rw [totalLength,map_cons,sum_cons] at hfits
    have hchunk : buffer.data.length + chunk.data.length ≤ defaultFrameSize := by omega
    obtain ⟨d,next,hwrite,hnext,hready,hlength⟩ := h.fits chunk.memory hchunk
    have hrest := ih hnext (by rw [totalLength]; omega)
    rw [writeAll,hwrite]
    exact ⟨hrest.1,hrest.2.1.trans hready,hrest.2.2⟩

lemma Connection.Started.writeAll_overflows (h : c.Started buffer) (chunks : List Chunk)
    (hover : defaultFrameSize < buffer.data.length + totalLength chunks) :
    c.outbound.ready.length < (c.writeAll chunks).1.outbound.ready.length := by
  induction chunks generalizing c buffer with
  | nil => exact absurd hover (Nat.not_lt.2 h.room)
  | cons chunk chunks ih =>
    rw [totalLength,map_cons,sum_cons] at hover
    by_cases hfits : buffer.data.length + chunk.data.length ≤ defaultFrameSize
    · obtain ⟨d,next,hwrite,hnext,hready,hlength⟩ := h.fits chunk.memory hfits
      rw [writeAll,hwrite,← hready]
      exact ih hnext (by rw [totalLength]; omega)
    · have hlonger := h.overflows chunk.memory (Nat.lt_of_not_le hfits)
      unfold writeAll
      split <;> rename_i d _ hwrite <;> rw [hwrite] at hlonger
      · exact Nat.lt_of_lt_of_le hlonger writeAll_ready.length_le
      · exact hlonger

/-- The writes of an encoder to a stream without a current buffer. -/
theorem writeAll_of_none (chunks : List Chunk) (hcurrent : c.outbound.current = none) :
    (firstFails chunks ∧ c.writeAll chunks = (c,some .outOfMemory)) ∨
    (firstFails chunks = false ∧ totalLength chunks = 0 ∧ c.writeAll chunks = (c,none)) ∨
    (firstFails chunks = false ∧ ∃ chunks', totalLength chunks' = totalLength chunks ∧ c.writeAll chunks = { c with
        outbound.current := some (newBuffer c.buffers)
        buffers := c.buffers + 1 }.writeAll chunks') := by
  induction chunks with
  | nil => exact .inr (.inl ⟨rfl,rfl,rfl⟩)
  | cons chunk chunks ih =>
    obtain ⟨memory,data⟩ := chunk
    cases data with
    | nil => simpa [firstFails,totalLength,writeAll,streamWriter] using ih
    | cons byte data =>
      have hflush : c.flushFull = c := by
        unfold flushFull
        rw [hcurrent]
      have hfirst : firstFails (⟨memory,byte :: data⟩ :: chunks) = !memory.headD true := rfl
      cases hmemory : memory.headD true with
      | false =>
        have hwrite : c.streamWriter memory (byte :: data) = (c,some .outOfMemory) := by
          unfold streamWriter
          rw [length_cons,writeLoop,hflush]
          simp only [hcurrent,hmemory]
          rfl
        exact .inl ⟨hfirst.trans (congrArg _ hmemory),by simp only [writeAll,hwrite]⟩
      | true =>
        refine .inr (.inr ⟨hfirst.trans (congrArg _ hmemory),⟨memory.tail,byte :: data⟩ :: chunks,rfl,?_⟩)
        have hwrite : c.streamWriter memory (byte :: data) = { c with
            outbound.current := some (newBuffer c.buffers)
            buffers := c.buffers + 1 }.streamWriter memory.tail (byte :: data) := by
          unfold streamWriter
          rw [length_cons,writeLoop,hflush]
          simp only [hcurrent,hmemory]
          rfl
        simp [writeAll,hwrite]

variable {codec canSend : Option PrxError} {cb : Option K} {e : PrxError}

def Connection.Unaffected (c d : Connection K) : Prop :=
  d.outbound = c.outbound ∧ d.inbound = c.inbound ∧ d.sending = c.sending ∧ d.receiving = c.receiving ∧ d.wire = c.wire
instance [DecidableEq K] (c d : Connection K) : Decidable (c.Unaffected d) :=
  inferInstanceAs (Decidable (_ ∧ _))

/-- Nothing is being written or waits to be delivered, and the failure comes before a buffer of the message was
filled. -/
def Connection.harmless (c : Connection K) (chunks : List Chunk) (codec : Option PrxError) : Bool :=
  c.outbound.current.isNone && c.inbound.ready.isEmpty &&
    (firstFails chunks || (codec.isSome && decide (totalLength chunks ≤ defaultFrameSize)))

lemma send_of_fails (hfails : (c.send none cb canSend).2 = some e) :
    ∃ buffer pal, c.outbound.current = some buffer ∧ (c.send none cb canSend).1 = { c with
      outbound.current := none
      outbound.ready := c.outbound.ready ++ [{ buffer with flags := .binaryMsg, cb, fragments := c.fragments }]
      fragments := []
      pal } := by
  unfold send at hfails ⊢
  cases hcurrent : c.outbound.current with
  | none =>
    simp only [hcurrent] at hfails
    cases hfails
  | some buffer =>
    simp only [hcurrent] at hfails ⊢
    split at hfails <;> rename_i hclient
    · cases hfails
    rw [if_neg hclient]
    cases canSend with
    | none => cases hfails
    | some => exact ⟨buffer,_,rfl,rfl⟩

lemma sendMessage_fails (hfails : (c.sendMessage chunks codec cb canSend).2 = some e) :
    ((c.writeAll chunks).2.or codec = some e ∧ (c.sendMessage chunks codec cb canSend).1 =
      { (c.writeAll chunks).1.streamReset with
        completions := (c.writeAll chunks).1.completions ++
          (cb.map fun cb => ⟨cb,(c.writeAll chunks).1.fragments,some e⟩).toList
        fragments := [] }) ∨
    ((c.writeAll chunks).2.or codec = none ∧ ∃ buffer pal, (c.writeAll chunks).1.outbound.current = some buffer ∧
      (c.sendMessage chunks codec cb canSend).1 = { (c.writeAll chunks).1 with
        outbound.current := none
        outbound.ready := (c.writeAll chunks).1.outbound.ready ++
          [{ buffer with flags := .binaryMsg, cb, fragments := (c.writeAll chunks).1.fragments }]
        fragments := []
        pal }) := by
  unfold sendMessage sendHandler at hfails ⊢
  cases hhandler : (c.writeAll chunks).2.or codec with
  | some =>
    simp only [hhandler] at hfails ⊢
    cases hfails
    exact .inl ⟨rfl,rfl⟩
  | none =>
    simp only [hhandler] at hfails ⊢
    exact .inr ⟨trivial,send_of_fails hfails⟩

lemma writeAll_eq (c : Connection K) (chunks : List Chunk) : ∃ ready current fragments buffers, (c.writeAll chunks).1 =
    { c with outbound.ready := ready, outbound.current := current, fragments, buffers } := by
  induction chunks generalizing c with
  | nil => exact ⟨_,_,_,_,rfl⟩
  | cons chunk chunks ih =>
    obtain ⟨more,current,fragments,buffers,hwrite⟩ :=
      writeLoop_eq (c := c) chunk.data.length chunk.memory chunk.data
    unfold writeAll streamWriter
    split <;> rename_i d _ hd <;> rw [hd] at hwrite <;> cases hwrite
    · obtain ⟨_,_,_,_,hrest⟩ := ih { c with
        outbound.ready := c.outbound.ready ++ more, outbound.current := current, fragments, buffers }
      exact ⟨_,_,_,_,hrest⟩
    · exact ⟨_,_,_,_,rfl⟩

lemma writeAll_ready_iff (hcurrent : c.outbound.current = none)
    (hfails : (c.writeAll chunks).2.or codec = some e) : (c.writeAll chunks).1.outbound.ready = c.outbound.ready ↔
      firstFails chunks ∨ codec.isSome ∧ totalLength chunks ≤ defaultFrameSize := by
  obtain ⟨hfirst,hwrite⟩ | ⟨hfirst,hlength,hwrite⟩ | ⟨hfirst,chunks',hlength,hwrite⟩ := writeAll_of_none chunks hcurrent
  · rw [hwrite]
    exact iff_of_true rfl (.inl hfirst)
  · rw [hwrite] at hfails ⊢
    have hcodec : codec = some e := hfails
    exact iff_of_true rfl (.inr ⟨hcodec ▸ rfl,hlength ▸ Nat.zero_le _⟩)
  · have hstarted : { c with
        outbound.current := some (newBuffer c.buffers)
        buffers := c.buffers + 1 }.Started (newBuffer c.buffers) := ⟨rfl,rfl,Nat.zero_le _⟩
    have hnew : (newBuffer c.buffers : Buffer K).data.length = 0 := rfl
    rw [hwrite] at hfails ⊢
    by_cases hfits : totalLength chunks ≤ defaultFrameSize
    · obtain ⟨hresult,hready,-⟩ := hstarted.writeAll_fits chunks' (by rw [hnew]; omega)
      rw [hresult] at hfails
      have hcodec : codec = some e := hfails
      exact iff_of_true hready (.inr ⟨hcodec ▸ rfl,hfits⟩)
    · have hlonger := hstarted.writeAll_overflows chunks' (by rw [hnew]; omega)
      apply iff_of_false
      · intro hready
        rw [hready] at hlonger
        exact Nat.lt_irrefl _ hlonger
      · rintro (hfirst' | ⟨-,hfits'⟩)
        · exact Bool.noConfusion (hfirst.symm.trans hfirst')
        · exact hfits hfits'

/-- A failed send leaves both streams as they were exactly when nothing was being written or waited to be delivered,
and it failed before a buffer was filled. -/
theorem failedSend_unaffected_iff (c : Connection K) (chunks : List Chunk) (codec : Option PrxError) (cb : Option K)
    (canSend : Option PrxError) (e : PrxError) (hfails : (c.sendMessage chunks codec cb canSend).2 = some e) :
    c.Unaffected (c.sendMessage chunks codec cb canSend).1 ↔ c.harmless chunks codec := by
  have hharmless : c.harmless chunks codec ↔ c.outbound.current = none ∧ c.inbound.ready = [] ∧
      (firstFails chunks ∨ codec.isSome ∧ totalLength chunks ≤ defaultFrameSize) := by
    simp [harmless,and_assoc]
  have hbefore : c.outbound.ready <+: (c.writeAll chunks).1.outbound.ready := writeAll_ready
  obtain ⟨ready,current,fragments,buffers,hwrite⟩ := writeAll_eq c chunks
  rw [hharmless]
  obtain ⟨hhandler,hsend⟩ | ⟨hhandler,buffer,pal,-,hsend⟩ := sendMessage_fails hfails
  · -- The stream was reset.
    rw [hsend]
    constructor
    · rintro ⟨hout,hin,-,-,-⟩
      have hcurrent : c.outbound.current = none := (congrArg Stream.current hout).symm
      have hsame : (c.writeAll chunks).1.outbound.ready = c.outbound.ready := (congrArg Stream.ready hout :)
      exact ⟨hcurrent,(congrArg Stream.ready hin).symm,(writeAll_ready_iff hcurrent hhandler).1 hsame⟩
    · rintro ⟨hcurrent,hempty,hearly⟩
      have hsame := (writeAll_ready_iff hcurrent hhandler).2 hearly
      rw [hwrite] at hsame ⊢
      cases hsame
      refine ⟨?_,?_,rfl,rfl,rfl⟩
      · show { c.outbound with current := none } = c.outbound
        rw [← hcurrent]
      · show { c.inbound with ready := [] } = c.inbound
        rw [← hempty]
  · -- The message is queued.
    apply iff_of_false
    · rintro ⟨hout,-,-,-,-⟩
      rw [hsend] at hout
      have hlength := congrArg (List.length ∘ Stream.ready) hout
      have hle := hbefore.length_le
      simp only [Function.comp_apply,length_append,length_singleton] at hlength
      omega
    · rintro ⟨hcurrent,-,hearly⟩
      obtain ⟨hresult,hcodec⟩ := Option.or_eq_none_iff.1 hhandler
      obtain hfirst | ⟨hcodec',-⟩ := hearly
      · obtain ⟨-,hwrite⟩ | ⟨hnot,-⟩ | ⟨hnot,-⟩ := writeAll_of_none chunks hcurrent
        · rw [hwrite] at hresult
          cases hresult
        · exact Bool.noConfusion (hnot.symm.trans hfirst)
        · exact Bool.noConfusion (hnot.symm.trans hfirst)
      · rw [hcodec] at hcodec'
        cases hcodec'

def longMessage : List Chunk :=
  [⟨[],List.replicate 4096 0⟩,⟨[false],[0]⟩]
def arrived : List (Label ℕ) :=
  opened ++ [.event (.beginRecv true),.event (.endRecv [1,2] .binaryMsg none)]

/-- An encoder that fails after a few bytes leaves nothing behind. -/
theorem shortSend_unaffected :
    (relay.sendMessage [⟨[],[1,2,3]⟩] (some .writing) (some 7) none).2 = some .writing ∧
      relay.Unaffected (relay.sendMessage [⟨[],[1,2,3]⟩] (some .writing) (some 7) none).1 :=
  ⟨rfl,(failedSend_unaffected_iff relay _ _ _ _ _ rfl).2 (by decide)⟩

def Connection.afterFailure (c : Connection ℕ) : Connection ℕ :=
  (c.sendMessage longMessage none (some 7) none).1

/-- The send fails, its first buffer is sent nevertheless, and the message that had arrived is lost. -/
theorem longSend_affects : ∃ s t, Runs System.step ⟨relay,0⟩ arrived s ∧
    (s.connection.sendMessage longMessage none (some 7) none).2 = some .outOfMemory ∧
    ¬s.connection.Unaffected s.connection.afterFailure ∧
    s.connection.inbound.ready.map (·.data) = [[1,2]] ∧ s.connection.afterFailure.inbound.ready = [] ∧
    Runs System.step ⟨s.connection.afterFailure,0⟩ [.event .beginSend,.event (.endSend none)] t ∧
    s.connection.wire = [] ∧ t.connection.wire = [(1,1)] := by
  simp only [exists_and_left]
  decide +kernel

variable {ready made : List (Buffer K)} {bytes : List UInt8}

def Buffer.IsFragment (buffer : Buffer K) : Prop :=
  buffer.flags = .binaryFragment ∧ buffer.data.length = buffer.length ∧ buffer.cb = none

/-- The bytes of a message so far are in the buffers that were made ready and in the current one. -/
structure Connection.Packs (c : Connection K) (ready made : List (Buffer K)) (bytes : List UInt8) : Prop where
  ready : c.outbound.ready = ready ++ made
  fragments : ∀ b ∈ made, b.IsFragment
  bytes : made.flatMap Buffer.data ++ (c.outbound.current.map Buffer.data).getD [] = bytes
  current : ∀ b, c.outbound.current = some b → b.cb = none ∧ b.data.length ≤ b.length

lemma Connection.Packs.flushFull (h : c.Packs ready made bytes) : ∃ made', c.flushFull.Packs ready made' bytes ∧
    ∀ b, c.flushFull.outbound.current = some b → b.data.length < b.length := by
  unfold Connection.flushFull
  split
  · next buffer hcurrent =>
    obtain ⟨hcb,hle⟩ := h.current buffer hcurrent
    have hbytes := h.bytes
    rw [hcurrent] at hbytes
    split
    · refine ⟨made ++ [{ buffer with flags := .binaryFragment }],⟨?_,?_,by simpa using hbytes,nofun⟩,nofun⟩
      · rw [h.ready,append_assoc]
      · intro b hb
        rcases mem_append.1 hb with hb | hb
        · exact h.fragments b hb
        · rw [mem_singleton.1 hb]
          exact ⟨rfl,by dsimp only; omega,hcb⟩
    · refine ⟨made,h,fun b hb => ?_⟩
      cases hcurrent.symm.trans hb
      omega
  · next hcurrent => exact ⟨made,h,fun b hb => by cases hcurrent.symm.trans hb⟩

lemma Connection.Packs.fill (h : c.Packs ready made bytes) {buffer} (hcb : buffer.cb = none)
    (hle : buffer.data.length ≤ buffer.length) (hdata : (c.outbound.current.map Buffer.data).getD [] = buffer.data)
    (data : List UInt8) :
    (c.fill buffer data).Packs ready made (bytes ++ data.take (buffer.length - buffer.data.length)) := by
  refine ⟨h.ready,h.fragments,?_,fun b hb => ?_⟩
  · rw [← h.bytes,hdata,append_assoc]
    rfl
  · cases hb
    refine ⟨hcb,?_⟩
    dsimp only
    rw [length_append,length_take]
    omega

/-- A write leaves no buffer that is not ready only if there was none and nothing is written. -/
theorem Connection.Packs.writeLoop {fuel memory} (h : c.Packs ready made bytes)
    (hfuel : data.length ≤ fuel) (hok : c.writeLoop fuel memory data = (d,none)) :
    ∃ made', d.Packs ready made' (bytes ++ data) ∧
      (d.outbound.current = none → c.outbound.current = none ∧ made' = made) := by
  induction fuel generalizing c memory data made bytes with
  | zero =>
    cases length_eq_zero_iff.1 (Nat.le_zero.1 hfuel)
    cases hok
    exact ⟨made,by rwa [append_nil],fun hnone => ⟨hnone,rfl⟩⟩
  | succ fuel ih =>
    unfold writeLoop at hok
    split at hok
    · next hempty =>
      cases hok
      rw [isEmpty_iff.1 hempty,append_nil]
      exact ⟨made,h,fun hnone => ⟨hnone,rfl⟩⟩
    · obtain ⟨made',hflush,hroom⟩ := h.flushFull
      have rest {c' : Connection K} {buffer : Buffer K} {memory : List Bool}
          (hok : (c'.fill buffer data).writeLoop fuel memory (data.drop (buffer.length - buffer.data.length)) =
            (d,none)) (h : c'.Packs ready made' bytes) (hcb : buffer.cb = none)
          (hlt : buffer.data.length < buffer.length)
          (hdata : (c'.outbound.current.map Buffer.data).getD [] = buffer.data) :
          ∃ made'', d.Packs ready made'' (bytes ++ data) ∧
            (d.outbound.current = none → c.outbound.current = none ∧ made'' = made) := by
        obtain ⟨made,hpacks,hnone⟩ := ih (h.fill hcb (Nat.le_of_lt hlt) hdata data) (by rw [length_drop]; omega) hok
        rw [append_assoc,take_append_drop] at hpacks
        exact ⟨made,hpacks,fun h => by cases (hnone h).1⟩
      dsimp only at hok
      split at hok
      · next buffer hcurrent =>
        exact rest hok hflush (hflush.current buffer hcurrent).1 (hroom buffer hcurrent) (by rw [hcurrent]; rfl)
      · next hcurrent =>
        split at hok
        · exact rest hok ⟨hflush.ready,hflush.fragments,hflush.bytes,hflush.current⟩ rfl (Nat.succ_pos _)
            (by rw [hcurrent]; rfl)
        · cases hok

lemma Connection.Packs.writeAll {chunks} (h : c.Packs ready made bytes) (hok : c.writeAll chunks = (d,none)) :
    ∃ made', d.Packs ready made' (bytes ++ chunks.flatMap Chunk.data) ∧
      (d.outbound.current = none → c.outbound.current = none ∧ made' = made) := by
  induction chunks generalizing c made bytes with
  | nil =>
    cases hok
    exact ⟨made,by simpa using h,fun hnone => ⟨hnone,rfl⟩⟩
  | cons chunk chunks ih =>
    unfold writeAll at hok
    split at hok
    · next hwrite =>
      obtain ⟨made',hpacks,hnone⟩ := h.writeLoop (Nat.le_refl _) hwrite
      obtain ⟨made'',hpacks',hnone'⟩ := ih hpacks hok
      rw [append_assoc] at hpacks'
      refine ⟨made'',hpacks',fun h => ?_⟩
      obtain ⟨hcurrent,rfl⟩ := hnone' h
      exact hnone hcurrent
    · cases hok

/-- A message is made ready in fragments and a last buffer, which has the callback; without any bytes there is none. -/
theorem message_fragmented {chunks : List Chunk} (begins : c.outbound.current = none)
    (written : c.writeAll chunks = (d,none)) (cb : Option K) (canSend : Option PrxError) :
    ∃ made, (d.send none cb canSend).1.outbound.ready = c.outbound.ready ++ made ∧
      made.flatMap Buffer.data = chunks.flatMap Chunk.data ∧ (∀ b ∈ made.dropLast, b.IsFragment) ∧
      ∀ b ∈ made.getLast?, b.flags = .binaryMsg ∧ b.cb = cb := by
  have hstart : c.Packs c.outbound.ready [] [] :=
    ⟨(append_nil _).symm,nofun,by rw [begins]; rfl,fun b hb => by cases begins.symm.trans hb⟩
  obtain ⟨made,hpacks,hnone⟩ := hstart.writeAll written
  have hbytes := hpacks.bytes
  unfold send
  cases hcurrent : d.outbound.current with
  | none =>
    obtain ⟨_,rfl⟩ := hnone hcurrent
    rw [hcurrent] at hbytes
    exact ⟨[],hpacks.ready,hbytes,nofun,nofun⟩
  | some buffer =>
    rw [hcurrent] at hbytes
    refine ⟨made ++ [{ buffer with flags := .binaryMsg, cb, fragments := d.fragments }],?_,?_,?_,?_⟩
    · dsimp only
      rw [← append_assoc,← hpacks.ready]
      repeat' split
      all_goals rfl
    · simpa using hbytes
    · rw [dropLast_concat]
      exact hpacks.fragments
    · intro b hb
      rw [List.getLast?_concat] at hb
      cases hb
      exact ⟨rfl,rfl⟩

def twoWrites : List Chunk :=
  [⟨[],.replicate 4096 1⟩,⟨[],[2,3]⟩]
theorem twoWrites_fragmented : ∃ (d : Connection ℕ) (made : List (Buffer ℕ)),
    (initial none none none none none).writeAll twoWrites = (d,none) ∧
    (d.send none (some 7) none).1.outbound.ready = made ∧ made.length = 2 ∧
    made.flatMap Buffer.data = twoWrites.flatMap Chunk.data ∧ (∀ b ∈ made.dropLast, b.IsFragment) ∧
    ∀ b ∈ made.getLast?, b.flags = .binaryMsg ∧ b.cb = some 7 := by
  obtain ⟨⟨d,e⟩,hd⟩ : ∃ r, (initial none none none none none : Connection ℕ).writeAll twoWrites = r := ⟨_,rfl⟩
  obtain rfl : e = none := (congrArg Prod.snd hd).symm.trans (by decide +kernel)
  have hlength : (d.send none (some 7) none).1.outbound.ready.length = 2 := by
    rw [← show _ = d from congrArg Prod.fst hd]
    decide +kernel
  obtain ⟨made,hready,hmade⟩ := message_fragmented rfl hd (some 7) none
  exact ⟨d,made,hd,hready,(congrArg length hready).symm.trans hlength,hmade⟩

end EdgeProxy.Ws
