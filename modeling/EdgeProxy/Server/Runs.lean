import EdgeProxy.Server.LinkMessage
import EdgeProxy.Server.Polls

/-! # Runs of the whole server

Link requests, accepts and the steps of other sockets leave a socket alone. What every run of a socket keeps, the runs
of the server keep for all sockets of the table.
-/
namespace EdgeProxy.Server
open Codec Lib Cell List

/-- Unless the server has used an object that is undefined, all sockets have the property. -/
def PrxServer.All (P : Cell → Prop) (s : PrxServer) : Prop :=
  s.undefined = false → ∀ c ∈ s.sockets, P c

open PrxServer

lemma always_all {I P : Cell → Prop} (hborn : ∀ {c}, Born c → I c)
    (hstep : ∀ {c label c'}, I c → c.step label = some c' → I c') (hp : ∀ {c}, I c → P c) (id : IoRef)
    (labels : List ServerLabel) : Always PrxServer.step (All P) (.start id) labels := by
  refine always_of_along (I := All I) (fun hs _ h defined => ?_) (fun hs defined c hmem => hp (hs defined c hmem))
    (fun _ _ hmem => absurd hmem not_mem_nil) along_true
  obtain ⟨defined₀,steps⟩ := steps_of_step h
  exact steps.all_sockets defined (hs defined₀) (fun _ _ h hc => hstep hc h) (fun _ => hborn (.link _ _ _ _ _ _))
    fun _ _ _ _ => hborn (.accept _ _ _ _ _)

variable (id : IoRef) (labels : List ServerLabel)

/-- A socket of the server has got to its state by a run of its own from its creation. -/
lemma sockets_run :
    Always PrxServer.step (All fun c => ∃ c₀ labels, Born c₀ ∧ Runs Cell.step c₀ labels c) (.start id) labels := by
  refine always_all (fun born => ⟨_,[],born,.refl _⟩) ?_ (fun hc => hc) id labels
  rintro c label c' ⟨c₀,labels,born,hruns⟩ h
  exact ⟨c₀,_,born,hruns.append (.step h (.refl c'))⟩

/-- What an open socket has received is what it delivered, what is in hand and what is queued, in this order. -/
theorem received_conserved :
    Always PrxServer.step (All fun c => c.isOpen → c.incoming.Conserved) (.start id) labels := by
  refine always_all (I := fun c => FreeClosed c ∧ (c.isOpen → c.incoming.Conserved)) ?_ ?_ And.right id labels
  · exact fun born => ⟨born.initial.queuesWellFormed.free,fun _ => born.initial.lossFree.1⟩
  · intro c label c' hc h
    refine ⟨step_freeClosed hc.1 h,fun open' => ?_⟩
    obtain ⟨_,takes⟩ := takes_of_step h
    rcases takes.incoming hc.1 with hchannel | closed
    · refine hchannel.conserved_iff.2 (hc.2 ?_)
      by_contra closed
      simp [takes.isOpen (by simpa using closed)] at open'
    · simp [closed] at open'

/-- No poll request is answered twice, and none that waits has been answered. -/
theorem polls_answered_once :
    Always PrxServer.step (All fun c => (c.history.answers.map Prod.fst ++ c.socket.readQueue.map Message.object).Nodup)
      (.start id) labels := by
  refine always_all (I := fun c => c.polling.Once) (fun born => born.initial.pollsKept.once)
    (fun hc h => (takes_of_step h).2.polling.once hc) (fun {c} hc => nodup_iff_count_le_one.2 fun object => ?_)
    id labels
  have hcount := hc.once object
  simp only [Polling.count,polling,map_append,count_append] at hcount ⊢
  omega

end EdgeProxy.Server
