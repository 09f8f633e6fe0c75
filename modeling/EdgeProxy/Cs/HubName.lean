import EdgeProxy.Cs.RoundTrip

/-! # The hub of a connection string

The name of the hub is kept as an entry when it is first asked for, and setting another host name leaves that entry as
it was.
-/
namespace EdgeProxy.Cs

variable {sasTokenValidate : Bytes → Bool} {cs : IoCs}

inductive CsOp where
  | clone
  | setHostName (hostName : Option Bytes)
  | setDeviceId (deviceId : Option Bytes)
  | setEndpoint (endpoint : Option Bytes)
  | getHubName
deriving DecidableEq

def CsOp.apply (cs : IoCs) : CsOp → IoCs
  | clone => ioCsClone cs
  | setHostName hostName => (ioCsSetHostName cs hostName).toOption.getD cs
  | setDeviceId deviceId => (ioCsSetDeviceId cs deviceId).toOption.getD cs
  | setEndpoint endpoint => ioCsSetEndpoint cs endpoint
  | getHubName => (ioCsGetHubName cs).1

def IoCs.run (cs : IoCs) (ops : List CsOp) : IoCs :=
  ops.foldl CsOp.apply cs
def hubOf (hostName : Bytes) : Bytes :=
  hostName.takeWhile (· ≠ 0x2e)

/-- The name of the hub is that of the current host. -/
def HubFollows (cs : IoCs) : Prop :=
  (ioCsGetHubName cs).2 = (ioCsGetHostName cs).2.map hubOf

def CsOp.host (hostName : Bytes) : CsOp → Bytes
  | setHostName (some new) =>
    match ioCsValidateHostName new with
    | .ok () => stringConstructTrim new trimChars
    | .error _ => hostName
  | _ => hostName
def firstAsked (hostName : Bytes) : List CsOp → Option Bytes
  | [] => none
  | .getHubName :: _ => some hostName
  | op :: ops => firstAsked (op.host hostName) ops
def Dotted (cs : IoCs) (hostName : Bytes) : Prop :=
  cs .hostName = some hostName ∧ 0x2e ∈ hostName

variable {hostName : Bytes}

lemma dot_of_validHostName (h : ioCsValidateHostName hostName = .ok ()) : 0x2e ∈ hostName := by
  unfold ioCsValidateHostName at h
  by_contra hdot
  rw [if_pos hdot] at h
  cases h
lemma getHubName_of_none (h : Dotted cs hostName) (hhub : cs .hubName = none) :
    ioCsGetHubName cs = (cs.set .hubName (some (hubOf hostName)),some (hubOf hostName)) := by
  rw [ioCsGetHubName,hhub,ioCsGetHostName_of_host h.1]
  exact if_pos h.2

lemma getHubName_of_some {hubName} (h : cs .hubName = some hubName) : ioCsGetHubName cs = (cs,some hubName) := by
  rw [ioCsGetHubName,h]
lemma set_other (cs : IoCs) {entry} (hhost : entry ≠ .hostName) (hhub : entry ≠ .hubName) (value : Option Bytes) :
    cs.set entry value .hostName = cs .hostName ∧ cs.set entry value .hubName = cs .hubName :=
  ⟨IoCs.set_of_ne cs hhost.symm value,IoCs.set_of_ne cs hhub.symm value⟩

lemma apply_entries (h : Dotted cs hostName) (op : CsOp) :
    Dotted (op.apply cs) (op.host hostName) ∧ op.apply cs .hubName =
        if op = .getHubName then some ((cs .hubName).getD (hubOf hostName)) else cs .hubName := by
  cases op with
  | clone => exact ⟨h,rfl⟩
  | setHostName new =>
    cases new with
    | none => exact ⟨h,rfl⟩
    | some new =>
      rw [CsOp.apply,CsOp.host,ioCsSetHostName]
      cases hvalid : ioCsValidateHostName new with
      | error => exact ⟨h,rfl⟩
      | ok =>
        have hdot := mem_stringConstructTrim (dot_of_validHostName hvalid) (show 0x2e ∉ trimChars by decide)
        exact ⟨⟨IoCs.set_same cs .hostName _,hdot⟩,IoCs.set_of_ne cs (show .hubName ≠ .hostName by decide) _⟩
  | setDeviceId deviceId =>
    have hset := set_other cs (show Entry.deviceId ≠ .hostName by decide) (by decide)
    cases deviceId with
    | none => exact ⟨⟨(hset none).1.trans h.1,h.2⟩,(hset none).2⟩
    | some deviceId =>
      rw [CsOp.apply,ioCsSetDeviceId]
      cases ioCsValidateDeviceId deviceId with
      | error => exact ⟨h,rfl⟩
      | ok => exact ⟨⟨(hset _).1.trans h.1,h.2⟩,(hset _).2⟩
  | setEndpoint endpoint =>
    obtain ⟨hhost,hhub⟩ := set_other cs (show Entry.endpoint ≠ .hostName by decide) (by decide)
      (endpoint.map fun endpoint => stringTrimBack (stringTrimScheme endpoint) trimChars)
    exact ⟨⟨hhost.trans h.1,h.2⟩,hhub⟩
  | getHubName =>
    rw [CsOp.apply]
    cases hhub : cs .hubName with
    | some =>
      rw [getHubName_of_some hhub]
      exact ⟨h,hhub⟩
    | none =>
      rw [getHubName_of_none h hhub]
      have hhost := IoCs.set_of_ne cs (show .hostName ≠ .hubName by decide) (some (hubOf hostName))
      exact ⟨⟨hhost.trans h.1,h.2⟩,IoCs.set_same cs .hubName _⟩

lemma run_entries (h : Dotted cs hostName) (ops : List CsOp) : Dotted (cs.run ops) (ops.foldl CsOp.host hostName) ∧
      cs.run ops .hubName = (cs .hubName).or ((firstAsked hostName ops).map hubOf) := by
  induction ops generalizing cs hostName with
  | nil => exact ⟨h,by simp [IoCs.run,firstAsked]⟩
  | cons op ops ih =>
    obtain ⟨hdotted,hhub⟩ := apply_entries h op
    obtain ⟨hrun,hrunHub⟩ := ih hdotted
    refine ⟨hrun,hrunHub.trans ?_⟩
    rw [hhub]
    cases op with
    | getHubName => cases cs .hubName <;> simp [firstAsked]
    | _ => rfl

/-- The hub of a connection string is that of its host exactly when it was so when the hub was first asked for. -/
theorem hubFollows_iff (hbuilt : Built sasTokenValidate cs) (ops : List CsOp) :
    HubFollows (cs.run ops) ↔ ∀ asked, firstAsked ((cs .hostName).getD []) ops = some asked →
        hubOf asked = hubOf (ops.foldl CsOp.host ((cs .hostName).getD [])) := by
  obtain ⟨hvalid,hnone⟩ := hbuilt.valid
  obtain ⟨hostName,hhost,-,hhostValid⟩ := hvalid.host
  have hdotted : Dotted cs hostName := ⟨hhost,dot_of_validHostName hhostValid⟩
  obtain ⟨hrun,hhub⟩ := run_entries hdotted ops
  rw [hhost,Option.getD_some,HubFollows,ioCsGetHostName_of_host hrun.1]
  rw [hnone] at hhub
  cases hasked : firstAsked hostName ops with
  | none =>
    rw [hasked] at hhub
    rw [getHubName_of_none hrun hhub]
    exact iff_of_true rfl nofun
  | some asked =>
    rw [hasked] at hhub
    rw [getHubName_of_some hhub]
    constructor
    · rintro heq _ ⟨⟩
      exact Option.some.inj heq
    · exact fun h => congrArg some (h asked rfl)

/-- The host may be changed before the hub is asked for. -/
theorem movedHost_hubFollows : ∃ cs, Built (fun _ => true) cs ∧
    HubFollows (cs.run [.setHostName (some (ascii "other.net")),.getHubName,.setDeviceId none,.clone]) := by
  have hcreate : ioCsCreate (fun _ => true) (ascii "hub.net") none none none = .ok _ := rfl
  refine ⟨_,.parts hcreate,(hubFollows_iff (.parts hcreate) _).2 ?_⟩
  decide

/-- After that, the hub is still the old one. -/
theorem movedHost_not_hubFollows : ∃ cs, Built (fun _ => true) cs ∧
    ¬HubFollows (cs.run [.getHubName,.setHostName (some (ascii "other.net"))]) := by
  have hcreate : ioCsCreate (fun _ => true) (ascii "hub.net") none none none = .ok _ := rfl
  refine ⟨_,.parts hcreate,?_⟩
  unfold HubFollows
  decide

end EdgeProxy.Cs
