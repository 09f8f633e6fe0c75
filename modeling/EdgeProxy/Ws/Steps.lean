import EdgeProxy.Lib.Transition
import EdgeProxy.Ws.Connection

/-! # What a step of the websocket connection can do -/
namespace EdgeProxy.Ws
open Base Option Connection

variable {K : Type} {c d : Connection K} {now : ℤ} {label : Label K}

inductive Connection.Does (now : ℤ) (c : Connection K) : Label K → Connection K → Prop
  | idles {ticks : ℕ} : c.Does now (.advance ticks) c
  | connects {reconnectCb : Bool} : c.closed = false → c.Does now (.connect reconnectCb) (c.connect reconnectCb)
  | closes : c.closed = false → c.Does now .close c.close
  | writes {memory : List Bool} {data : List UInt8} : c.closed = false →
      c.Does now (.write memory data) { (c.streamWriter memory data).1 with writing := true }
  | resets : c.closed = false → c.Does now .reset { c.streamReset with writing := true }
  | sends {result : Option PrxError} {cb : Option K} {canSend : Option PrxError} : c.closed = false →
      c.Does now (.send result cb canSend) { (c.send result cb canSend).1 with writing := false }
  | runs {index : ℕ} {results : Results} {entry : Entry} {d : Connection K} : c.tasks[index]? = some entry →
      c.delivering = false → ({ c with tasks := c.tasks.eraseIdx index }).runTask now results entry.task = .ok d →
      c.Does now (.run index results) d
  | drops {index : ℕ} : c.Does now (.drop index) { c with tasks := c.tasks.eraseIdx index }
  | reads {count : ℕ} : c.delivering → c.Does now (.read count) (c.read count).1
  | receives {result : Option PrxError} : c.delivering → c.Does now (.received result) (c.received now result)
  | events {event : Event} {d : Connection K} : c.wsclient → c.handleEvent event = some d →
      c.Does now (.event event) d

lemma takeTask_eq {index task} (h : c.takeTask index = some (task,d)) :
    ∃ entry, c.tasks[index]? = some entry ∧ task = entry.task ∧ d = { c with tasks := c.tasks.eraseIdx index } := by
  obtain ⟨entry,hentry,⟨⟩⟩ := map_eq_some_iff.1 h
  exact ⟨entry,hentry,rfl,rfl⟩

lemma does_of_step (h : c.step now label = some d) : c.frees = 0 ∧ c.Does now label d := by
  unfold step at h
  split at h
  · cases h
  rename_i hfrees
  refine ⟨not_not.1 hfrees,?_⟩
  cases label with
  | advance =>
    cases h
    exact .idles
  | connect =>
    obtain ⟨hmay,⟨⟩⟩ := ite_none_left_eq_some.1 h
    rw [not_or,Bool.not_eq_true] at hmay
    exact .connects hmay.1
  | close =>
    obtain ⟨hmay,⟨⟩⟩ := ite_none_left_eq_some.1 h
    rw [not_or,Bool.not_eq_true] at hmay
    exact .closes hmay.1
  | write =>
    obtain ⟨hopen,⟨⟩⟩ := ite_none_left_eq_some.1 h
    exact .writes (Bool.not_eq_true _ ▸ hopen)
  | reset =>
    obtain ⟨hopen,⟨⟩⟩ := ite_none_left_eq_some.1 h
    exact .resets (Bool.not_eq_true _ ▸ hopen)
  | send =>
    obtain ⟨hopen,⟨⟩⟩ := ite_none_left_eq_some.1 h
    exact .sends (Bool.not_eq_true _ ▸ hopen)
  | run index results =>
    obtain ⟨hmay,h⟩ := ite_none_left_eq_some.1 h
    rw [not_or,Bool.not_eq_true,Bool.not_eq_true] at hmay
    obtain ⟨⟨task,e⟩,htake,hrun⟩ := bind_eq_some_iff.1 h
    obtain ⟨entry,hentry,rfl,rfl⟩ := takeTask_eq htake
    refine .runs hentry hmay.2 ?_
    dsimp only at hrun
    cases hresult : ({ c with tasks := c.tasks.eraseIdx index }).runTask now results entry.task with
    | error => simp [hresult,Except.toOption] at hrun
    | ok =>
      rw [hresult] at hrun
      exact congrArg Except.ok (Option.some.inj hrun)
  | drop =>
    obtain ⟨⟨task,e⟩,htake,rfl⟩ := map_eq_some_iff.1 h
    obtain ⟨_,_,_,rfl⟩ := takeTask_eq htake
    exact .drops
  | read =>
    obtain ⟨hmay,⟨⟩⟩ := ite_none_right_eq_some.1 h
    exact .reads hmay.1
  | received =>
    obtain ⟨hmay,⟨⟩⟩ := ite_none_right_eq_some.1 h
    exact .receives hmay.1
  | event =>
    obtain ⟨hclient,hevent⟩ := ite_none_right_eq_some.1 h
    exact .events hclient hevent

lemma System.does_of_step {s t : System K} (h : s.step label = some t) :
    s.connection.frees = 0 ∧ s.connection.Does s.clock label t.connection := by
  obtain ⟨connection,hstep,rfl⟩ := map_eq_some_iff.1 h
  exact Ws.does_of_step hstep
lemma create_eq {userName password tokenProvider userHeaderKey pwdHeaderKey} {results}
    (created : create userName password tokenProvider userHeaderKey pwdHeaderKey results = .ok c) :
    c = .initial userName password tokenProvider userHeaderKey pwdHeaderKey := by
  unfold create at created
  repeat' split at created
  all_goals cases created
  rfl

variable {results : Results}

lemma addHeader_eq (key value : Option String) (result : Option PrxError) :
    ∃ pal, (c.addHeader key value result).1 = { c with pal } := by
  unfold addHeader
  split <;> exact ⟨_,rfl⟩
lemma addHeaders_eq (token : Option String) (results : Results) :
    ∃ pal, (c.addHeaders token results).1 = { c with pal } := by
  obtain ⟨pal,huser⟩ := addHeader_eq c.userHeaderKey (c.userName <|> c.tokenProvider.join) results.addUserHeader
  unfold addHeaders
  split <;> rename_i d _ h <;> rw [h] at huser <;> cases huser
  · exact ⟨pal,rfl⟩
  · obtain ⟨pal,hpwd⟩ := addHeader_eq c.pwdHeaderKey (c.password <|> token) results.addPwdHeader
    exact ⟨pal,hpwd⟩
lemma openClient_eq (c : Connection K) (now : ℤ) (results : Results) :
    ∃ wsclient expiry pal, (c.openClient now results).1 = { c with wsclient, expiry, pal } := by
  unfold openClient
  split
  · exact ⟨_,_,_,rfl⟩
  dsimp only
  split
  · exact ⟨_,_,_,rfl⟩
  split
  · exact ⟨_,_,_,rfl⟩
  · obtain ⟨pal,hheaders⟩ := addHeaders_eq _ results
    exact ⟨_,_,pal,hheaders⟩

lemma deliverStream_eq (h : c.deliverStream = .ok d) :
    ∃ message ready, takeMessage c.inbound.ready = some (message,ready) ∧ d = { c with
      inbound.ready := ready
      inbound.inprogress := c.inbound.inprogress ++ message
      inbound.readable := .ofNat (message.map Buffer.length).sum
      delivering := true
      deliveries := c.deliveries ++ [[]] } := by
  unfold deliverStream at h
  split at h
  · cases h
  · rename_i message ready htake
    cases h
    exact ⟨message,ready,htake,rfl⟩

lemma monitor_eq (c : Connection K) (now : ℤ) :
    c.monitor now = c.doNext .disconnect ∨ ∃ delay, c.monitor now = c.doLater .monitor delay := by
  unfold monitor
  dsimp only
  split
  · exact .inl rfl
  split
  · split
    · exact .inl rfl
    · exact .inr ⟨_,rfl⟩
  · exact .inr ⟨_,rfl⟩
lemma reconnect_eq (c : Connection K) (now : ℤ) (results : Results) :
    ∃ wsclient expiry pal lastActivity task, (task = .reset ∨ task = .monitor) ∧
    c.reconnect now results = { c with wsclient, expiry, pal, lastActivity }.doNext task := by
  obtain ⟨wsclient,expiry,pal,hopen⟩ := openClient_eq c now results
  unfold reconnect
  split <;> rename_i d _ h <;> rw [h] at hopen <;> cases hopen
  · exact ⟨_,_,_,_,_,.inl rfl,rfl⟩
  · split
    · exact ⟨_,_,_,_,_,.inl rfl,rfl⟩
    · exact ⟨_,_,_,_,_,.inr rfl,rfl⟩
lemma flushFull_eq : ∃ more current fragments, c.flushFull =
    { c with outbound.ready := c.outbound.ready ++ more, outbound.current := current, fragments } := by
  unfold flushFull
  repeat' split
  exacts [⟨[_],_,_,rfl⟩,⟨[],_,_,by rw [List.append_nil]⟩,⟨[],_,_,by rw [List.append_nil]⟩]

lemma writeLoop_eq (fuel : ℕ) (memory : List Bool) (data : List UInt8) :
    ∃ more current fragments buffers, (c.writeLoop fuel memory data).1 =
      { c with outbound.ready := c.outbound.ready ++ more, outbound.current := current, fragments, buffers } := by
  induction fuel generalizing c memory data with
  | zero => exact ⟨[],_,_,_,by rw [List.append_nil]; rfl⟩
  | succ fuel ih =>
    obtain ⟨more,current,fragments,hflush⟩ := flushFull_eq (c := c)
    unfold writeLoop
    rw [hflush]
    split
    · exact ⟨[],_,_,_,by rw [List.append_nil]⟩
    dsimp only
    split
    · obtain ⟨_,_,_,_,hwrite⟩ := ih memory _
      exact ⟨_,_,_,_,hwrite.trans (by rw [← List.append_assoc]; rfl)⟩
    · split
      · obtain ⟨_,_,_,_,hwrite⟩ := ih memory.tail _
        exact ⟨_,_,_,_,hwrite.trans (by rw [← List.append_assoc]; rfl)⟩
      · exact ⟨_,_,_,_,rfl⟩

lemma send_eq (result : Option PrxError) (cb : Option K) (canSend : Option PrxError) :
    ∃ outbound fragments pal completions,
      (c.send result cb canSend).1 = { c with outbound, fragments, pal, completions } := by
  unfold send
  dsimp only
  repeat' split
  all_goals exact ⟨_,_,_,_,rfl⟩

def relay : Connection ℕ :=
  .initial none none none none none
lemma relay_created : create none none none none none {} = .ok relay :=
  rfl
def opened : List (Label ℕ) :=
  [.connect true,.run 0 {},.run 0 {},.event (.connected none),.run 1 {}]

end EdgeProxy.Ws
