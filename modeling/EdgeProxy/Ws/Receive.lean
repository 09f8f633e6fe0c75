import Mathlib.Data.List.Perm.Basic
import Mathlib.Data.List.Forall2
import EdgeProxy.Ws.Steps

/-! # Boundaries of messages that are received

The receiver of a message reads the buffers in progress. It reads its own message as long as the one before left
nothing in progress, and as long as what is ready ends where a connection ends.
-/
namespace EdgeProxy.Ws
open Lib List Option Ws.Buffer Connection

variable {K : Type} {c d : Connection K} {now : ℤ} {results : Results} {buffer : Buffer K}

def Buffer.unread (buffer : Buffer K) : List UInt8 :=
  buffer.data.drop buffer.readOffset
def Stream.unread (s : Stream K) : List UInt8 :=
  (s.current.toList ++ s.inprogress).flatMap Buffer.unread
def Buffer.Filled (buffer : Buffer K) : Prop :=
  buffer.length = buffer.data.length ∧ buffer.readOffset ≤ buffer.length

def split : List UInt8 → List (Buffer K) → List (List UInt8) × List UInt8
  | start, [] => ([],start)
  | start, buffer :: buffers =>
    if buffer.flags = .binaryMsg then
      let (messages,rest) := split [] buffers
      ((start ++ buffer.data) :: messages,rest)
    else split (start ++ buffer.data) buffers
lemma split_append (buffer : Buffer K) (start : List UInt8) (xs : List (Buffer K)) : split start (xs ++ [buffer]) =
    if buffer.flags = .binaryMsg then ((split start xs).1 ++ [(split start xs).2 ++ buffer.data],[])
    else ((split start xs).1,(split start xs).2 ++ buffer.data) := by
  induction xs generalizing start with
  | nil => simp [split]
  | cons x xs ih =>
    simp only [cons_append,split]
    split
    · rw [ih]
      split <;> rfl
    · rw [ih]

lemma split_takeMessage (start : List UInt8) {xs message rest : List (Buffer K)}
    (h : takeMessage xs = some (message,rest)) :
    split start xs = ((start ++ message.flatMap data) :: (split [] rest).1,(split [] rest).2) := by
  induction xs generalizing start message with
  | nil => cases h
  | cons x xs ih =>
    unfold takeMessage at h
    rw [split]
    split at h
    · rename_i hflags
      cases h
      rw [if_pos hflags,flatMap_singleton]
    · rename_i hflags
      obtain ⟨⟨message,rest⟩,htake,⟨⟩⟩ := map_eq_some_iff.1 h
      rw [if_neg hflags,ih _ htake,flatMap_cons,append_assoc]

lemma takeMessage_isSome (start : List UInt8) {xs : List (Buffer K)} (h : (split start xs).1 ≠ []) :
    (takeMessage xs).isSome := by
  induction xs generalizing start with
  | nil => exact absurd rfl h
  | cons x xs ih =>
    unfold takeMessage
    unfold split at h
    split
    · rfl
    · rename_i hflags
      rw [if_neg hflags] at h
      rw [isSome_map]
      exact ih _ h

lemma mem_takeMessage {xs message rest : List (Buffer K)} (h : takeMessage xs = some (message,rest)) :
    xs = message ++ rest := by
  induction xs generalizing message with
  | nil => cases h
  | cons x xs ih =>
    unfold takeMessage at h
    split at h
    · cases h
      rfl
    · obtain ⟨⟨message,rest⟩,htake,⟨⟩⟩ := map_eq_some_iff.1 h
      rw [ih htake]
      rfl

variable {rest : List (Buffer K)} {count : ℕ}

structure Reading.Gets (reading : Reading K) (count : ℕ) (unread : List UInt8) : Prop where
  bytes : reading.bytes = unread.take count
  left : (reading.current.toList ++ reading.inprogress).flatMap Buffer.unread = unread.drop count
  result : reading.result = none ↔ count ≤ unread.length
  filled : ∀ buffer ∈ reading.current.toList ++ reading.inprogress, buffer.Filled

lemma Buffer.Filled.unread_length (h : buffer.Filled) : buffer.unread.length = buffer.length - buffer.readOffset := by
  rw [unread,length_drop,h.1]
lemma readLoop_within (hbuffer : buffer.Filled) (hle : count ≤ buffer.unread.length) :
    readLoop count buffer rest = ⟨buffer.unread.take count,if buffer.length = buffer.readOffset + count then none
      else some { buffer with readOffset := buffer.readOffset + count },rest,none⟩ := by
  rw [hbuffer.unread_length] at hle
  unfold readLoop
  rw [Nat.min_eq_right hle]
  dsimp only
  rw [Nat.sub_self]
  rfl
lemma readLoop_beyond_nil (hbuffer : buffer.Filled) (hlt : buffer.unread.length < count) :
    readLoop count buffer [] = ⟨buffer.unread,none,[],some .reading⟩ := by
  have hall : buffer.unread.take buffer.unread.length = buffer.unread := take_length
  rw [hbuffer.unread_length] at hlt hall
  unfold readLoop
  rw [Nat.min_eq_left (Nat.le_of_lt hlt)]
  rw [if_neg (Nat.sub_ne_zero_of_lt hlt)]
  exact congrArg (Reading.mk · none [] (some .reading)) hall
lemma readLoop_beyond_cons {next} (hbuffer : buffer.Filled) (hlt : buffer.unread.length < count) :
    readLoop count buffer (next :: rest) = { readLoop (count - buffer.unread.length) next rest with
      bytes := buffer.unread ++ (readLoop (count - buffer.unread.length) next rest).bytes } := by
  have hall : buffer.unread.take buffer.unread.length = buffer.unread := take_length
  rw [hbuffer.unread_length] at hlt hall ⊢
  conv_lhs => unfold readLoop
  rw [Nat.min_eq_left (Nat.le_of_lt hlt)]
  rw [if_neg (Nat.sub_ne_zero_of_lt hlt)]
  exact congrArg (fun bytes => Reading.mk (bytes ++ _) _ _ _) hall

lemma readLoop_gets_within (hbuffer : buffer.Filled) (hrest : ∀ buffer ∈ rest, buffer.Filled)
    (hle : count ≤ buffer.unread.length) :
    (readLoop count buffer rest).Gets count (buffer.unread ++ rest.flatMap unread) := by
  have hlength := hbuffer.unread_length
  rw [readLoop_within hbuffer hle]
  refine ⟨(take_append_of_le_length hle).symm,?_,iff_of_true rfl ?_,?_⟩
  · rw [drop_append_of_le_length hle]
    split
    · rw [drop_eq_nil_of_le (by omega)]
      rfl
    · rw [unread,drop_drop]
      rfl
  · rw [length_append]
    omega
  · intro b hb
    rcases mem_append.1 hb with hb | hb
    · split at hb
      · cases hb
      · cases mem_singleton.1 hb
        refine ⟨hbuffer.1,?_⟩
        have := hbuffer.2
        dsimp only
        omega
    · exact hrest b hb

lemma readLoop_gets (hbuffer : buffer.Filled) (hrest : ∀ buffer ∈ rest, buffer.Filled) :
    (readLoop count buffer rest).Gets count (buffer.unread ++ rest.flatMap unread) := by
  induction rest generalizing count buffer with
  | nil =>
    rcases Nat.lt_or_ge buffer.unread.length count with hlt | hle
    · have hlen : buffer.unread.length ≤ count := Nat.le_of_lt hlt
      rw [readLoop_beyond_nil hbuffer hlt,flatMap_nil,append_nil]
      refine ⟨(take_of_length_le hlen).symm,(drop_eq_nil_of_le hlen).symm,?_,forall_mem_nil _⟩
      exact iff_of_false nofun (Nat.not_le_of_lt hlt)
    · exact readLoop_gets_within hbuffer hrest hle
  | cons next rest ih =>
    rcases Nat.lt_or_ge buffer.unread.length count with hlt | hle
    · obtain ⟨hnext,hrest⟩ := forall_mem_cons.1 hrest
      obtain ⟨hbytes,hleft,hresult,hfilled⟩ := @ih _ (count - buffer.unread.length) hnext hrest
      have hlen : buffer.unread.length ≤ count := Nat.le_of_lt hlt
      rw [readLoop_beyond_cons hbuffer hlt,flatMap_cons]
      refine ⟨?_,?_,?_,hfilled⟩
      · rw [take_append,take_of_length_le hlen,← hbytes]
      · rw [drop_append,drop_eq_nil_of_le hlen]
        exact hleft
      · rw [length_append]
        refine hresult.trans ?_
        omega
    · exact readLoop_gets_within hbuffer hrest hle

lemma read_gets (count : ℕ) {s : Stream K} (hs : ∀ buffer ∈ s.current.toList ++ s.inprogress, buffer.Filled) :
    (s.read count).Gets count s.unread := by
  unfold Stream.read
  split
  · rename_i hzero
    cases hzero
    exact ⟨rfl,rfl,iff_of_true rfl (Nat.zero_le _),hs⟩
  rename_i hcount
  unfold Stream.unread
  split
  · rename_i buffer hcurrent
    rw [hcurrent] at hs ⊢
    obtain ⟨hbuffer,hrest⟩ := forall_mem_cons.1 hs
    exact readLoop_gets hbuffer hrest
  · rename_i hcurrent hinprogress
    rw [hcurrent,hinprogress]
    refine ⟨take_nil.symm,drop_nil.symm,iff_of_false nofun ?_,forall_mem_nil _⟩
    exact fun hle => hcount (Nat.le_zero.1 hle)
  · rename_i buffer rest hcurrent hinprogress
    rw [hcurrent,hinprogress] at hs ⊢
    obtain ⟨hbuffer,hrest⟩ := forall_mem_cons.1 hs
    exact readLoop_gets hbuffer hrest

structure Incoming (K : Type) where
  stream : Stream K
  incoming : List (List UInt8)
  unfinished : List UInt8
  deliveries : List (List UInt8)
  delivering : Bool
  queued : ℕ
  receiving : Option (Buffer K)

def Connection.arrivals (c : Connection K) : Incoming K where
  stream := c.inbound
  incoming := c.incoming
  unfinished := c.unfinished
  deliveries := c.deliveries
  delivering := c.delivering
  queued := c.tasks.countP (·.task = .deliverStream)
  receiving := c.receiving

/-- What was read in each callback is a beginning of a message, and what was read in one that has not returned is that
message without what is unread. -/
def Incoming.Reads (i : Incoming K) (taken : List (List UInt8)) : Prop :=
  if i.delivering then ∃ ds ts r, i.deliveries = ds ++ [r] ∧ taken = ts ++ [r ++ i.stream.unread] ∧
    List.Forall₂ (· <+: ·) ds ts
  else List.Forall₂ (· <+: ·) i.deliveries taken

lemma Incoming.Reads.forall₂ {i : Incoming K} {taken} (h : i.Reads taken) :
    List.Forall₂ (· <+: ·) i.deliveries taken := by
  unfold Incoming.Reads at h
  split at h
  · obtain ⟨ds,ts,r,hds,hts,hforall⟩ := h
    rw [hds,hts]
    exact rel_append hforall (.cons (prefix_append _ _) .nil)
  · exact h

/-- The messages that were received are the ones that were delivered, followed by what is ready. Only
what is being delivered is in progress, and there are as many messages ready as are about to be delivered. -/
structure Incoming.Separate (i : Incoming K) : Prop where
  ready : ∀ buffer ∈ i.stream.ready, buffer.Filled ∧ buffer.readOffset = 0
  filled : ∀ buffer ∈ i.stream.current.toList ++ i.stream.inprogress, buffer.Filled
  messages : ∃ taken, i.incoming = taken ++ (split [] i.stream.ready).1 ∧ i.Reads taken
  unfinished : i.unfinished = (split [] i.stream.ready).2
  idle : i.delivering = false → i.stream.current = none ∧ i.stream.inprogress = []
  queued : i.queued ≤ (split [] i.stream.ready).1.length
  fresh : ∀ buffer ∈ i.receiving, buffer.readOffset = 0

variable {i : Incoming K}

lemma Incoming.Separate.hold (h : i.Separate) {receiving}
    (hfresh : ∀ buffer ∈ receiving, buffer.readOffset = 0) : { i with receiving }.Separate :=
  ⟨h.ready,h.filled,h.messages,h.unfinished,h.idle,h.queued,hfresh⟩
lemma Incoming.Separate.fewer (h : i.Separate) {queued} (hle : queued ≤ i.queued) : { i with queued }.Separate :=
  ⟨h.ready,h.filled,h.messages,h.unfinished,h.idle,Nat.le_trans hle h.queued,h.fresh⟩

lemma Incoming.Separate.receive (h : i.Separate) (hfilled : buffer.Filled) (hoffset : buffer.readOffset = 0)
    (hbinary : buffer.flags.isBinary) {queued}
    (hqueued : queued = if buffer.flags = .binaryMsg then i.queued + 1 else i.queued)
    {receiving} (hfresh : ∀ buffer ∈ receiving, buffer.readOffset = 0) : Incoming.Separate { i with
      stream.ready := i.stream.ready ++ [buffer]
      incoming := if buffer.flags.isMsg then i.incoming ++ [i.unfinished ++ buffer.data] else i.incoming
      unfinished := if buffer.flags.isMsg then [] else i.unfinished ++ buffer.data
      queued
      receiving } := by
  have hmsg : buffer.flags.isMsg ↔ buffer.flags = .binaryMsg := by
    revert hbinary
    cases buffer.flags <;> simp [BufferType.isMsg,BufferType.isBinary]
  obtain ⟨taken,hincoming,hreads⟩ := h.messages
  have hsplit := split_append buffer [] i.stream.ready
  refine ⟨?_,h.filled,⟨taken,?_,hreads⟩,?_,h.idle,?_,hfresh⟩
  · intro b hb
    rcases mem_append.1 hb with hb | hb
    · exact h.ready b hb
    · cases mem_singleton.1 hb
      exact ⟨hfilled,hoffset⟩
  · rw [hsplit,hincoming,h.unfinished]
    simp only [hmsg]
    split <;> simp
  · rw [hsplit,h.unfinished]
    simp only [hmsg]
    split <;> rfl
  · dsimp only
    rw [hqueued,hsplit]
    have := h.queued
    split
    · rw [length_append]
      exact Nat.succ_le_succ this
    · exact this

lemma Incoming.Separate.deliver (h : i.Separate) (hidle : i.delivering = false) {message ready : List (Buffer K)}
    (htake : takeMessage i.stream.ready = some (message,ready)) {readable queued} (hqueued : queued + 1 ≤ i.queued) :
    Incoming.Separate { i with
      stream := ⟨ready,i.stream.inprogress ++ message,i.stream.done,i.stream.current,readable⟩
      deliveries := i.deliveries ++ [[]]
      delivering := true
      queued } := by
  obtain ⟨hcurrent,hinprogress⟩ := h.idle hidle
  obtain ⟨taken,hincoming,hreads⟩ := h.messages
  have hready := h.ready
  have hsplit := split_takeMessage [] htake
  rw [mem_takeMessage htake] at hready
  have hunread : message.flatMap unread = message.flatMap data := by
    refine flatMap_congr fun b hb => ?_
    rw [unread,(hready b (mem_append_left _ hb)).2]
    rfl
  rw [hsplit] at hincoming
  refine ⟨fun b hb => hready b (mem_append_right _ hb),?_,
    ⟨taken ++ [message.flatMap data],?_,i.deliveries,taken,[],rfl,?_,hreads.forall₂⟩,?_,nofun,?_,h.fresh⟩
  · rw [hcurrent,hinprogress]
    intro b hb
    exact (hready b (mem_append_left _ hb)).1
  · rw [hincoming,append_assoc]
    rfl
  · rw [hcurrent,hinprogress,← hunread]
    rfl
  · rw [h.unfinished,hsplit]
  · have := h.queued
    rw [hsplit] at this
    exact Nat.le_of_succ_le_succ (Nat.le_trans hqueued this)

lemma Incoming.Separate.read (h : i.Separate) (hdelivering : i.delivering) (count : ℕ) {readable : UInt64} :
    Incoming.Separate { i with
      stream := ⟨i.stream.ready,(i.stream.read count).inprogress,i.stream.done,(i.stream.read count).current,readable⟩
      deliveries := extendLast i.deliveries (i.stream.read count).bytes } := by
  have hgets := read_gets count h.filled
  obtain ⟨taken,hincoming,hreads⟩ := h.messages
  rw [Incoming.Reads,if_pos hdelivering] at hreads
  obtain ⟨ds,ts,r,hds,hts,hforall⟩ := hreads
  have hunread : r ++ (i.stream.read count).bytes ++
      ((i.stream.read count).current.toList ++ (i.stream.read count).inprogress).flatMap unread =
      r ++ i.stream.unread := by
    rw [hgets.bytes,hgets.left,append_assoc,take_append_drop]
  refine ⟨h.ready,hgets.filled,⟨taken,hincoming,?_⟩,h.unfinished,fun hidle => ?_,h.queued,h.fresh⟩
  · rw [Incoming.Reads,if_pos hdelivering]
    refine ⟨ds,ts,r ++ (i.stream.read count).bytes,?_,?_,hforall⟩
    · simp [hds,extendLast]
    · rw [hts,← hunread]
      rfl
  · cases hdelivering.symm.trans hidle

lemma Incoming.Separate.received (h : i.Separate) (hinprogress : i.stream.inprogress = []) (readable : UInt64) :
    Incoming.Separate { i with
      stream := ⟨i.stream.ready,i.stream.inprogress,i.stream.done,none,readable⟩
      delivering := false } := by
  obtain ⟨taken,hincoming,hreads⟩ := h.messages
  refine ⟨h.ready,?_,⟨taken,hincoming,hreads.forall₂⟩,h.unfinished,fun _ => ⟨rfl,hinprogress⟩,h.queued,h.fresh⟩
  rw [hinprogress]
  exact forall_mem_nil _

variable {label : Label K}

/-- What is received is binary, a connection ends only between messages, the stream is reset only when no buffer is
ready that was received, and a receiver leaves at most a part of its last buffer. -/
def Connection.bounded (c : Connection K) : Label K → Bool
  | .event (.endRecv _ type none) => type.isBinary
  | .event (.connected none) => c.unfinished.isEmpty
  | .reset => c.inbound.ready.isEmpty
  | .received _ => c.inbound.inprogress.isEmpty
  | _ => true

/-- A connection that is not freed keeps messages apart; of a freed one it is known what was read. -/
def Connection.KeepsApart (c : Connection K) : Prop :=
  (∃ taken, taken <+: c.incoming ∧ List.Forall₂ (· <+: ·) c.deliveries taken) ∧ (c.frees = 0 → c.arrivals.Separate)

lemma Connection.KeepsApart.of_separate (h : c.arrivals.Separate) : c.KeepsApart := by
  obtain ⟨taken,hincoming,hreads⟩ := h.messages
  exact ⟨⟨taken,⟨_,hincoming.symm⟩,hreads.forall₂⟩,fun _ => h⟩
lemma separate_of_tasks (h : c.arrivals.Separate) {tasks}
    (hle : tasks.countP (·.task = .deliverStream) ≤ c.tasks.countP (·.task = .deliverStream)) :
    { c with tasks }.arrivals.Separate :=
  h.fewer hle
lemma doNext_separate (h : c.arrivals.Separate) {task} (hne : task ≠ .deliverStream) :
    (c.doNext task).arrivals.Separate := by
  apply separate_of_tasks h
  simp [hne]
lemma doLater_separate (h : c.arrivals.Separate) {task} (delay : UInt32) (hne : task ≠ .deliverStream) :
    (c.doLater task delay).arrivals.Separate := by
  apply separate_of_tasks h
  simpa [hne] using List.Sublist.countP_le filter_sublist
lemma free_keepsApart (h : c.arrivals.Separate) : c.free.KeepsApart := by
  unfold free
  dsimp only
  split
  · exact .of_separate h
  · exact ⟨(KeepsApart.of_separate h).1,nofun⟩

lemma runTask_keepsApart (h : c.arrivals.Separate) {task} (hne : task ≠ .deliverStream)
    (hrun : c.runTask now results task = .ok d) : d.KeepsApart := by
  cases task with
  | disconnect =>
    cases hrun
    unfold disconnect
    dsimp only
    split <;> exact .of_separate h
  | free =>
    cases hrun
    exact free_keepsApart h
  | reset =>
    cases hrun
    have hclear : c.clearTasks.arrivals.Separate := separate_of_tasks h (Nat.zero_le _)
    unfold reset
    dsimp only
    split
    · exact .of_separate hclear
    · have hlater : (c.clearTasks.doLater .reconnect (.ofNat (c.backOffInSeconds * 1000))).arrivals.Separate :=
        doLater_separate hclear _ nofun
      exact .of_separate hlater
  | deliverStream => exact absurd rfl hne
  | deliverSendResults | onConnected =>
    cases hrun
    exact .of_separate h
  | onDisconnected =>
    cases hrun
    unfold onDisconnected
    split
    · exact .of_separate (doNext_separate h nofun)
    split
    · exact .of_separate (doNext_separate h nofun)
    · exact .of_separate h
  | monitor =>
    cases hrun
    rcases monitor_eq c now with heq | ⟨_,heq⟩ <;> rw [heq]
    · exact .of_separate (doNext_separate h nofun)
    · exact .of_separate (doLater_separate h _ nofun)
  | reconnect =>
    cases hrun
    obtain ⟨wsclient,expiry,pal,lastActivity,task,htask,heq⟩ :=
      reconnect_eq c now results
    rw [heq]
    refine .of_separate (doNext_separate h ?_)
    rcases htask with rfl | rfl <;> exact nofun

lemma mem_none_readOffset : ∀ buffer ∈ (none : Option (Buffer K)), buffer.readOffset = 0 :=
  fun buffer h => absurd h (not_mem_none buffer)

lemma onEndReceive_separate (h : c.arrivals.Separate) (hreceiving : c.receiving = some buffer) {data} {type result}
    (hbinary : result = none → type.isBinary) : (c.onEndReceive data type result buffer).arrivals.Separate := by
  have hnone := h.hold mem_none_readOffset
  unfold onEndReceive
  split
  · exact hnone
  · exact doNext_separate hnone nofun
  · have hoffset : buffer.readOffset = 0 := h.fresh buffer hreceiving
    have hfilled : Filled { buffer with flags := type, length := data.length, data } :=
      ⟨rfl,hoffset ▸ Nat.zero_le _⟩
    cases type with
    | binaryMsg =>
      refine h.receive hfilled hoffset rfl ?_ mem_none_readOffset
      exact countP_append
    | binaryFragment => exact h.receive hfilled hoffset rfl rfl mem_none_readOffset
    | _ => cases hbinary rfl

lemma handleEvent_separate (h : c.arrivals.Separate) {event} (hbounded : c.bounded (.event event : Label K))
    (hevent : c.handleEvent event = some d) : d.arrivals.Separate := by
  cases event with
  | connected error =>
    cases error with
    | none =>
      cases hevent
      have hempty : c.unfinished = [] := isEmpty_iff.1 hbounded
      have hsame : ({ c with epoch := c.epoch + 1, unfinished := [] }).arrivals = c.arrivals := by
        rw [← hempty]
        rfl
      exact doNext_separate (hsame ▸ h) nofun
    | some =>
      cases hevent
      exact doNext_separate h nofun
  | disconnected =>
    cases hevent
    exact doNext_separate h nofun
  | closed =>
    obtain ⟨_,⟨⟩⟩ := ite_none_left_eq_some.1 hevent
    exact doNext_separate h nofun
  | beginRecv =>
    obtain ⟨_,⟨⟩⟩ := ite_none_left_eq_some.1 hevent
    unfold onBeginReceive
    split
    · refine h.hold ?_
      rintro _ ⟨⟩
      rfl
    · exact h
  | endRecv =>
    obtain ⟨buffer,hreceiving,rfl⟩ := map_eq_some_iff.1 hevent
    refine onEndReceive_separate h hreceiving fun hresult => ?_
    cases hresult
    exact hbounded
  | beginSend =>
    obtain ⟨_,⟨⟩⟩ := ite_none_left_eq_some.1 hevent
    unfold onBeginSend
    split <;> exact h
  | endSend =>
    obtain ⟨buffer,_,rfl⟩ := map_eq_some_iff.1 hevent
    unfold onEndSend
    dsimp only
    split
    · split
      · exact doNext_separate h nofun
      · exact h
    · exact h
    · exact doNext_separate h nofun

lemma countP_eraseIdx {tasks : List Entry} {index entry} (h : tasks[index]? = some entry)
    (htask : entry.task = .deliverStream) :
    (tasks.eraseIdx index).countP (·.task = .deliverStream) + 1 = tasks.countP (·.task = .deliverStream) := by
  obtain ⟨hlt,rfl⟩ := List.getElem?_eq_some_iff.1 h
  rw [← (getElem_cons_eraseIdx_perm hlt).countP_eq,countP_cons_of_pos (by simpa using htask)]

lemma Connection.Does.keepsApart (hdoes : c.Does now label d) (h : c.arrivals.Separate)
    (hbounded : c.bounded label) : d.KeepsApart := by
  cases hdoes with
  | idles => exact .of_separate h
  | connects => exact .of_separate (doNext_separate h nofun)
  | closes => exact free_keepsApart h
  | @writes memory data =>
    obtain ⟨_,_,_,_,heq⟩ := writeLoop_eq data.length memory data
    rw [streamWriter,heq]
    exact .of_separate h
  | resets =>
    have hempty : c.inbound.ready = [] := isEmpty_iff.1 hbounded
    have hsame : c.streamReset.arrivals = c.arrivals := by
      unfold streamReset arrivals
      rw [← hempty]
    exact .of_separate (hsame ▸ h)
  | @sends result cb canSend =>
    obtain ⟨_,_,_,_,heq⟩ := send_eq result cb canSend
    rw [heq]
    exact .of_separate h
  | @runs index results entry _ hentry hidle hrun =>
    by_cases htask : entry.task = .deliverStream
    · rw [htask] at hrun
      obtain ⟨message,ready,htake,rfl⟩ := deliverStream_eq hrun
      exact .of_separate (h.deliver hidle htake (Nat.le_of_eq (countP_eraseIdx hentry htask)))
    · have hrest : { c with tasks := c.tasks.eraseIdx index }.arrivals.Separate :=
        separate_of_tasks h (List.Sublist.countP_le (eraseIdx_sublist _ _))
      exact runTask_keepsApart hrest htask hrun
  | drops => exact .of_separate (separate_of_tasks h (List.Sublist.countP_le (eraseIdx_sublist _ _)))
  | @reads count hdelivering => exact .of_separate (h.read hdelivering count)
  | @receives result hdelivering =>
    have hempty : c.inbound.inprogress = [] := isEmpty_iff.1 hbounded
    have hreceived := h.received hempty 0
    unfold received
    split
    · exact .of_separate hreceived
    · exact .of_separate (doNext_separate hreceived nofun)
  | events _ hevent => exact .of_separate (handleEvent_separate h hbounded hevent)

variable {s : System K}

/-- In a callback that has not returned, the receiver can read exactly the rest of the message. -/
def Connection.ReadsRest (c : Connection K) (message read : List UInt8) : Prop :=
  ∀ count, (c.read count).2.bytes = (message.drop read.length).take count ∧
    ((c.read count).2.result = none ↔ count ≤ message.length - read.length)

lemma Incoming.Separate.readsRest (h : c.arrivals.Separate) (hdelivering : c.delivering) :
    ∃ ds r message, c.deliveries = ds ++ [r] ∧ c.incoming[ds.length]? = some message ∧ c.ReadsRest message r := by
  obtain ⟨taken,hincoming,hreads⟩ := h.messages
  rw [Incoming.Reads,if_pos (show c.arrivals.delivering from hdelivering)] at hreads
  obtain ⟨ds,ts,r,hds,hts,hforall⟩ := hreads
  refine ⟨ds,r,r ++ c.inbound.unread,hds,?_,fun count => ?_⟩
  · change c.incoming = _ at hincoming
    rw [hincoming,hts,hforall.length_eq,append_assoc,List.getElem?_append_right (Nat.le_refl _),Nat.sub_self]
    rfl
  · have hgets := read_gets count h.filled
    rw [drop_left,length_append,Nat.add_sub_cancel_left]
    exact ⟨hgets.bytes,hgets.result⟩

/-- Along bounded runs what was read in each callback is a beginning of the message that is its own in order, and the
task that delivers a message finds one. -/
theorem receives_own_message (userName password : Option String) (tokenProvider : Option (Option String))
    (userHeaderKey pwdHeaderKey : Option String)
    (results : CreateResults) {c : Connection K}
    (created : Connection.create userName password tokenProvider userHeaderKey pwdHeaderKey results = .ok c) (clock : ℤ)
    {labels : List (Label K)} {s : System K} (hruns : Runs System.step ⟨c,clock⟩ labels s)
    (hbounded : Along System.step (fun u label => u.connection.bounded label) ⟨c,clock⟩ labels) :
    (∀ (k : ℕ) (read : List UInt8), s.connection.deliveries[k]? = some read →
      ∃ message, s.connection.incoming[k]? = some message ∧ read <+: message) ∧
    (s.connection.frees = 0 → s.connection.delivering → ∃ ds r message, s.connection.deliveries = ds ++ [r] ∧
      s.connection.incoming[ds.length]? = some message ∧ s.connection.ReadsRest message r) ∧
    (s.connection.frees = 0 → ∀ entry ∈ s.connection.tasks, entry.task = .deliverStream →
      (takeMessage s.connection.inbound.ready).isSome) := by
  have hs : s.connection.KeepsApart := by
    refine hruns.invariant (I := fun s => s.connection.KeepsApart) (fun hs hbounded hstep => ?_) hbounded
      (.of_separate ?_)
    · obtain ⟨hfrees,hdoes⟩ := System.does_of_step hstep
      exact hdoes.keepsApart (hs.2 hfrees) hbounded
    · rw [create_eq created]
      exact ⟨nofun,nofun,⟨[],rfl,.nil⟩,rfl,fun _ => ⟨rfl,rfl⟩,Nat.le_refl 0,mem_none_readOffset⟩
  obtain ⟨⟨taken,htaken,hforall⟩,hseparate⟩ := hs
  refine ⟨fun k read hread => ?_,fun hfrees hdelivering => ?_,fun hfrees entry hentry htask => ?_⟩
  · obtain ⟨hlt,rfl⟩ := List.getElem?_eq_some_iff.1 hread
    have hlt' : k < taken.length := hforall.length_eq ▸ hlt
    refine ⟨taken[k],?_,hforall.get hlt hlt'⟩
    obtain ⟨rest,hrest⟩ := htaken
    rw [← hrest,List.getElem?_append_left hlt',List.getElem?_eq_getElem hlt']
  · exact (hseparate hfrees).readsRest hdelivering
  · refine takeMessage_isSome [] fun hnone => ?_
    have hqueued : s.connection.tasks.countP (·.task = .deliverStream) ≤
        (split [] s.connection.inbound.ready).1.length := (hseparate hfrees).queued
    have hpos : 0 < s.connection.tasks.countP (·.task = .deliverStream) :=
      countP_pos_iff.2 ⟨entry,hentry,by simpa using htask⟩
    rw [hnone] at hqueued
    exact Nat.not_lt_zero _ (Nat.lt_of_lt_of_le hpos hqueued)

def twoFragments : List (Label ℕ) :=
  [.event (.beginRecv true),.event (.endRecv [1] .binaryFragment none),.event (.beginRecv true),
    .event (.endRecv [2] .binaryMsg none),.run 1 {}]
def nextMessage : List (Label ℕ) :=
  [.event (.beginRecv true),.event (.endRecv [3] .binaryMsg none),.run 1 {},.read 1,.received none]
def readAll : List (Label ℕ) :=
  opened ++ twoFragments ++ [.read 2,.received none] ++ nextMessage

theorem readAll_own : ∃ s, Runs System.step ⟨relay,0⟩ readAll s ∧ s.connection.deliveries = [[1,2],[3]] ∧
    ∀ (k : ℕ) (read : List UInt8), s.connection.deliveries[k]? = some read →
      ∃ message, s.connection.incoming[k]? = some message ∧ read <+: message := by
  obtain ⟨s,hs,hdeliveries⟩ : ∃ s, Runs System.step ⟨relay,0⟩ readAll s ∧ s.connection.deliveries = [[1,2],[3]] := by
    decide +kernel
  refine ⟨s,hs,hdeliveries,?_⟩
  exact (receives_own_message none none none none none {} relay_created 0 hs (by decide +kernel)).1
def readPart : List (Label ℕ) :=
  opened ++ twoFragments ++ [.read 1,.received none] ++ nextMessage

/-- What the receiver of a message leaves is read by the next one. -/
theorem readPart_not_own : ∃ s, Runs System.step ⟨relay,0⟩ readPart s ∧ s.connection.incoming = [[1,2],[3]] ∧
    s.connection.deliveries = [[1],[2]] ∧ ¬([2] : List UInt8) <+: [3] := by
  decide +kernel

end EdgeProxy.Ws
