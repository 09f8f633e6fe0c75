import Mathlib.Data.Int.Basic
import EdgeProxy.Base.Error

/-! # The browse server

How a session of `prx_browse.c` is accepted.
-/
namespace EdgeProxy.Server
open Base List

inductive SessionObject where
  | requests
  | schedulerRef
  | outbound
  | inbound
deriving DecidableEq

structure BrowseServer where
  schedulerRefs : ℤ
  sessions : List ℕ
  destroy : Bool

/-- What comes of an accept: the objects it created, and those on which steps of its cleanup worked. -/
structure Accepted where
  server : BrowseServer
  created : List SessionObject
  cleanedUp : List SessionObject
  result : Except PrxError Unit

/-- `prx_browse_session_free` for a session that is not in the list of the server: its requests are counted without a
check, and its scheduler is that of the server also before there is a reference. -/
def prxBrowseSessionFree (created : List SessionObject) (server : BrowseServer) (error : PrxError) : Accepted :=
  { server := { server with schedulerRefs := server.schedulerRefs - 1 }
    created
    cleanedUp := .requests :: [.requests,.outbound,.inbound].filter (created.contains ·) ++ [.schedulerRef]
    result := .error error }

/-- What the steps of an accept return. -/
structure AcceptSteps where
  session : Bool
  codec : Bool
  requests : Bool
  outbound : Except PrxError Unit
  inbound : Except PrxError Unit

def prxBrowseServerAccept (steps : AcceptSteps) (session : ℕ) (server : BrowseServer) : Accepted :=
  if !steps.session then { server, created := [], cleanedUp := [], result := .error .outOfMemory }
  else if !steps.codec then prxBrowseSessionFree [] server .notSupported
  else if !steps.requests then prxBrowseSessionFree [] server .outOfMemory
  else
    let server := { server with schedulerRefs := server.schedulerRefs + 1 }
    match steps.outbound, steps.inbound with
    | .error error, _ => prxBrowseSessionFree [.requests,.schedulerRef] server error
    | .ok _, .error error => prxBrowseSessionFree [.requests,.schedulerRef,.outbound] server error
    | .ok _, .ok _ =>
      if server.destroy then prxBrowseSessionFree [.requests,.schedulerRef,.outbound,.inbound] server .badState
      else {
        server := { server with sessions := server.sessions ++ [session] }
        created := [.requests,.schedulerRef,.outbound,.inbound]
        cleanedUp := []
        result := .ok () }

structure Accepted.Harmless (server : BrowseServer) (accepted : Accepted) : Prop where
  unchanged : accepted.server = server
  proper : accepted.cleanedUp ⊆ accepted.created

lemma not_harmless_sessionFree (server : BrowseServer) (error : PrxError) :
    ¬(prxBrowseSessionFree [] server error).Harmless server :=
  fun h => nomatch h.proper mem_cons_self
lemma harmless_sessionFree {created} (server : BrowseServer) (error : PrxError)
    (hcreated : [.requests,.schedulerRef] ⊆ created) :
    (prxBrowseSessionFree created { server with schedulerRefs := server.schedulerRefs + 1 } error).Harmless server := by
  constructor
  · simp [prxBrowseSessionFree]
  · intro object h
    cases object with
    | requests | schedulerRef => exact hcreated (by decide)
    | outbound | inbound => simpa [prxBrowseSessionFree] using h

/-- A failed accept has no effect exactly if there is no session, or a codec and a table of requests for it. -/
theorem accept_harmless_iff (steps : AcceptSteps) (session : ℕ) (server : BrowseServer) :
    ((prxBrowseServerAccept steps session server).result ≠ .ok () →
      (prxBrowseServerAccept steps session server).Harmless server) ↔
      (steps.session → steps.codec ∧ steps.requests) := by
  unfold prxBrowseServerAccept
  split_ifs
  · exact iff_of_true (fun _ => ⟨rfl,nofun⟩) (by simp_all)
  · exact iff_of_false (fun h => not_harmless_sessionFree _ _ (h nofun)) (by simp_all)
  · exact iff_of_false (fun h => not_harmless_sessionFree _ _ (h nofun)) (by simp_all)
  · refine iff_of_true (fun hfailed => ?_) (by simp_all)
    revert hfailed
    dsimp only
    split
    · exact fun _ => harmless_sessionFree _ _ (by decide)
    · exact fun _ => harmless_sessionFree _ _ (by decide)
    · split_ifs
      · exact fun _ => harmless_sessionFree _ _ (by decide)
      · exact fun h => absurd rfl h

/-- Without a codec, the scheduler of the server loses a reference. -/
theorem noCodec_not_harmless : ∃ steps session server, (prxBrowseServerAccept steps session server).result ≠ .ok () ∧
    ¬(prxBrowseServerAccept steps session server).Harmless server :=
  ⟨⟨true,false,true,.ok (),.ok ()⟩,0,⟨1,[],false⟩,nofun,fun h => nomatch h.unchanged⟩

end EdgeProxy.Server
