/-
  TargetFacade.Hub.Model — one hub: what it has armed, who is up, and the verbs Listen,
  Connect and Disconnect with what they call (FacadeHub.cpp).

  `armed` is m_mapArmed, `peers` m_mapPeers, `unretired` m_setUnretired and `cons` the
  kernel's list of this hub's connections. PostP2PeerCon refuses an address that is on the
  list already. What the key files, the kernel and the file system answer is the
  environment's: an `ArmEnv` for each arming verb, a `RetireEnv` for each retraction.

  `handed` is read by nothing: it records, for each connection given to PostP2PeerCon, where
  the hub's enforcement stood at that moment.
-/

import TargetFacade.Trust.Model

namespace TargetFacade

open OrdMap

structure ArmedCon where
  strEndpoint : WStr
  bListen : Bool
  deriving DecidableEq, Repr

inductive ConMode where
  | service
  | client
  | accept
  deriving DecidableEq, Repr

inductive ConPhase where
  /-- Posted, listening or in an attempt: not logged in. -/
  | posted
  /-- A dial between two attempts. -/
  | waiting
  | login
  deriving DecidableEq, Repr

structure Con where
  /-- Which object it is; the code reads it nowhere. -/
  nId : Nat
  csPeer : WStr
  eMode : ConMode
  rEp : FacadeEndpoint
  /-- `m_uAutoRestart` is set when the connection is made. -/
  bRetry : Bool
  ePhase : ConPhase
  deriving DecidableEq, Repr

/-- The far side's address, when it gives one, is the connection's from then on. -/
def Con.loggedIn (c : Con) (strThat : WStr) : Con :=
  { c with csPeer := if strThat.isEmpty then c.csPeer else strThat, ePhase := .login }

structure Handover where
  peer : WStr
  requireAuth : Bool
  lastArm : Option ArmResult
  loaded : List AllowLine
  lastTrust : Option (WStr × SecKeys)

/-- The sentence LoadPeerKeys leaves. -/
inductive KeyWhat where
  | empty
  | path
  | load (csPub : WStr) (e : IdResult)
  | exported (csPub : WStr)
  deriving DecidableEq, Repr

def KeyWhat.text (k : KernelText) : KeyWhat → WStr
  | .empty => []
  | .path => L "a key file path could not be encoded"
  | .load csPub e => csPub ++ L " -> " ++ k.idResult e ++
      L (". That file is the peer's own published identity; copy it out of the peer's security directory, " ++
         "because a login this hub cannot verify is one it refuses.")
  | .exported csPub => L "the public point in " ++ csPub ++ L " could not be exported"

/-- The sentences a hub puts on the diagnostic stream. -/
inductive HubWhy where
  | patternTooSoon (address peer : WStr) (eArm : ArmResult)
  | noKeyMaterial (address peer : WStr)
  | noPublishedKey (address peer : WStr) (what : KeyWhat)
  | refused (what : What)
  deriving DecidableEq, Repr

def HubWhy.text (k : KernelText) : HubWhy → WStr
  | .patternTooSoon address peer eArm =>
      L "TargetFacade: hub '" ++ address ++ L "' is secure and cannot arm the pattern listener '" ++ peer ++
      L ("' yet: a pattern names no peer whose key could be looked up, so this hub must ALREADY be " ++
         "authenticating (") ++ k.arm eArm ++
      L ("). Link it, or Listen for one named peer, first -- the pattern then filters who may claim to log in " ++
         "while the allow-list decides whose signature is accepted. Nothing was armed.")
  | .noKeyMaterial address peer =>
      L "TargetFacade: hub '" ++ address ++
      L "' was created secure but holds no key material, so it cannot authenticate '" ++ peer ++
      L "'. Nothing was armed."
  | .noPublishedKey address peer what =>
      L "TargetFacade: hub '" ++ address ++ L "' has no published key for peer '" ++ peer ++ L "': " ++
      what.text k ++ L " Nothing was armed."
  | .refused what => L "TargetFacade: " ++ what.text k ++ L " Nothing was armed."

/-- What RaiseEvent carries. -/
inductive HubEvent where
  | unrelatedLink (address peer : WStr)
  deriving DecidableEq, Repr

def HubEvent.text : HubEvent → WStr
  | .unrelatedLink address peer =>
      L "TargetFacade: '" ++ address ++ L "' and peer '" ++ peer ++
      L ("' are neither ancestor nor descendant. The link is armed and carries direct traffic, but nothing can " ++
         "be ROUTED through it and a broadcast will not relay beyond it.")

/-- CreateHubEx refuses an empty address, so no hub has one. -/
abbrev HubAddress := { csAddress : WStr // csAddress ≠ [] }

structure Hub where
  oAddress : HubAddress
  bSecure : Bool
  bProvisioned : Bool
  bCallerPumped : Bool
  oSecKeys : SecKeys
  csSecDir : WStr
  trust : Trust
  armed : Map WStr ArmedCon
  peers : Map WStr Bool
  unretired : OSet WStr
  cons : List Con
  nNextCon : Nat
  said : List HubWhy
  events : List HubEvent
  /-- OnPeerUp and OnPeerDown, as they were called. -/
  callbacks : List (WStr × Bool)
  handed : List Handover

abbrev Hub.csAddress (h : Hub) : WStr := h.oAddress.1

/-- A hub as CreateHubEx returns it. -/
def Hub.created (oAddress : HubAddress) (bSecure bCallerPumped : Bool) (oSecKeys : SecKeys) (csSecDir : WStr)
    (temp file : Option (List AllowLine)) : Hub where
  oAddress := oAddress
  bSecure := bSecure
  bProvisioned := bSecure
  bCallerPumped := bCallerPumped
  oSecKeys := oSecKeys
  csSecDir := csSecDir
  trust := .created temp file
  armed := ∅
  peers := ∅
  unretired := ∅
  cons := []
  nNextCon := 0
  said := []
  events := []
  callbacks := []
  handed := []

def Hub.RaiseSecurityError (h : Hub) (what : HubWhy) : Hub := { h with said := h.said ++ [what] }

def Hub.RaiseEvent (h : Hub) (e : HubEvent) : Hub := { h with events := h.events ++ [e] }

def Hub.ConExists (h : Hub) (peer : WStr) : Bool := h.cons.any (·.csPeer == peer)

/-! ## Peer state -/

/-- The locked section: whether the entry changed, and the map. -/
def MarkPeerLocked (strPeer : WStr) (bUp : Bool) (m : Map WStr Bool) : Bool × Map WStr Bool :=
  if strPeer.isEmpty then (false, m)
  else ((m[strPeer]?).getD false != bUp, m.insert strPeer bUp)

def Hub.MarkPeer (h : Hub) (strPeer : WStr) (bUp : Bool) : Hub :=
  let (bChanged, peers) := MarkPeerLocked strPeer bUp h.peers
  { h with peers := peers, callbacks := if bChanged then h.callbacks ++ [(strPeer, bUp)] else h.callbacks }

def IsPeerUp (peers : Map WStr Bool) (peer : WStr) : Bool := (peers[peer]?).getD false

/-! ## Arming one connection -/

/-- What the key files of the security directory answer, by path. -/
structure KeyEnv where
  utf8 : WStr → Bool := fun _ => true
  loadPublic : WStr → IdResult
  exportPublic : WStr → Option Point
  agreement : WStr → Option Point
  fingerprint : Point → List UInt8

structure ArmEnv where
  keys : KeyEnv
  trust : TrustEnv
  /-- The factory makes the connection. -/
  factory : Bool := true
  /-- PostP2PeerCon finds the pump and takes an address that is not on the list. -/
  accepts : Bool := true

def SecKeys.zero : SecKeys := ⟨0, 0, false, []⟩

def LoadPeerKeys (peer csDir : WStr) (env : KeyEnv) : IdResult × KeyWhat × SecKeys :=
  if peer.isEmpty then (.IdErrArgs, .empty, .zero)
  else
    let csStem := SecurityStemOf peer
    let csPub := csDir ++ csStem ++ L ".key.pub"
    let csAgree := csDir ++ csStem ++ L ".agree.pub"
    if !env.utf8 csPub || !env.utf8 csAgree then (.IdErrArgs, .path, .zero)
    else
      match env.loadPublic csPub with
      | .IdOk =>
        match env.exportPublic csPub with
        | some aId =>
          -- the agreement file is optional
          let oAgree := env.agreement csAgree
          (.IdOk, .empty, ⟨aId, oAgree.getD 0, oAgree.isSome, env.fingerprint aId⟩)
        | none => (.IdErrFormat, .exported csPub, .zero)
      | e => (e, .load csPub e, .zero)

/-- Dials redial, except a dmx:// or serial:// one the caller typed. -/
def MakeCon (bFactory : Bool) (nId : Nat) (rEp : FacadeEndpoint) (peer : WStr) (bListen : Bool) : Option Con :=
  if !bFactory then none
  else
    let bRetry := match rEp.eKind with
      | .tcp | .pipe => !bListen
      | .dmx => !bListen && rEp.bDerived
      | .serial => false
    some ⟨nId, peer, if bListen then .service else .client, rEp, bRetry, .posted⟩

/-- Where the hub's enforcement stands as a connection for `peer` is given to the kernel. -/
def Hub.handover (h : Hub) (peer : WStr) : Handover :=
  ⟨peer, h.trust.requireAuth, h.trust.lastArm, h.trust.loaded, h.trust.lastTrust⟩

def PostCon (env : ArmEnv) (pCon : Option Con) (h : Hub) : HRESULT × Hub :=
  match pCon with
  | none => (P2PF_E_CON_FACTORY, h)
  | some c =>
    let h := { h with handed := h.handed ++ [h.handover c.csPeer] }
    if env.accepts && !h.ConExists c.csPeer then
      (S_OK, { h with cons := h.cons ++ [c], nNextCon := h.nNextCon + 1 })
    else (P2PF_E_CON_DUPLICATE, h)

/-- Recorded before the post, and put back when it is refused. -/
def ArmRecorded (env : ArmEnv) (peer : WStr) (rEp : FacadeEndpoint) (bListen : Bool) (h : Hub) : HRESULT × Hub :=
  let oPrev := h.armed[peer]?
  let h := { h with armed := h.armed.insert peer ⟨rEp.Format, bListen⟩ }
  let (hr, h) := PostCon env (MakeCon env.factory h.nNextCon rEp peer bListen) h
  if FAILED hr then (hr, { h with armed := putBack h.armed peer oPrev }) else (hr, h)

def ArmResolved (env : ArmEnv) (peer : WStr) (rEp : FacadeEndpoint) (bListen : Bool) (h : Hub) : HRESULT × Hub :=
  if peer.isEmpty then (E_INVALIDARG, h)
  else if IsSwappedPeerArgument peer then (E_INVALIDARG, h)
  else
    let eRel := ClassifyPeer h.csAddress peer
    if eRel = .self then (E_INVALIDARG, h)
    else
      let (hr, h) := ArmRecorded env peer rEp bListen h
      if FAILED hr then (hr, h)
      else if eRel ≠ .unrelated then (S_OK, h)
      else (P2PF_S_UNRELATED_LINK, h.RaiseEvent (.unrelatedLink h.csAddress peer))

/-! ## The arming verbs -/

/-- What the network answers a hub that resolves an omitted endpoint. -/
structure Owner where
  LookupEndpoint : WStr → FacadeEndpoint → HRESULT × FacadeEndpoint
  ResolveDial : WStr → WStr → FacadeEndpoint → HRESULT × FacadeEndpoint

def ResolveEndpoint (pOwner : Option Owner) (csAddress peer : WStr) (bListen : Bool) (rEp : FacadeEndpoint) :
    HRESULT × FacadeEndpoint :=
  if csAddress.isEmpty then (P2PF_E_UNRESOLVED, rEp)
  else
    -- tier 1, the deployment map: a dial asks about its peer, a listen about itself
    let (hrMap, rEp) := match pOwner with
      | some o => o.LookupEndpoint (if bListen then csAddress else peer) rEp
      | none => (P2PF_E_UNRESOLVED, rEp)
    if !FAILED hrMap then (S_OK, if bListen then { rEp with csHost := [] } else rEp)
    else if bListen then
      (S_OK, { rEp with eKind := .dmx, csName := DeriveDmxService csAddress peer, bDerived := true })
    else
      match pOwner with
      | none => (P2PF_E_UNRESOLVED, rEp)
      | some o =>
        let (hr, rEp) := o.ResolveDial peer csAddress rEp
        if FAILED hr then (hr, rEp) else (hr, { rEp with bDerived := true })

def AdmitPatternPeer (env : ArmEnv) (peer : WStr) (h : Hub) : HRESULT × Hub :=
  let (eArm, t) := AuthArm env.trust.arm h.trust
  let h := { h with trust := t }
  if eArm = .ArmOk then (S_OK, h)
  else (P2PF_E_SECURITY, h.RaiseSecurityError (.patternTooSoon h.csAddress peer eArm))

def TrustPublishedPeer (env : ArmEnv) (peer : WStr) (h : Hub) : HRESULT × Hub :=
  if h.csSecDir.isEmpty then (P2PF_E_SECURITY, h.RaiseSecurityError (.noKeyMaterial h.csAddress peer))
  else
    match LoadPeerKeys peer h.csSecDir env.keys with
    | (.IdOk, _, oKeys) =>
      let (hr, csWhat, t) := TrustAndEnforce h.csAddress peer oKeys h.csSecDir env.trust h.trust
      let h := { h with trust := t }
      if FAILED hr then (hr, h.RaiseSecurityError (.refused csWhat)) else (hr, h)
    | (_, csWhat, _) => (P2PF_E_SECURITY, h.RaiseSecurityError (.noPublishedKey h.csAddress peer csWhat))

section Arming

variable (inet : InetPton)

/-- The endpoint an arming verb arms: the one it is given, or one resolved. -/
def endpointFor (pOwner : Option Owner) (csAddress peer endpoint : WStr) (bListen : Bool) : HRESULT × FacadeEndpoint :=
  if !endpoint.isEmpty then ParseFacadeEndpoint inet endpoint bListen {}
  else ResolveEndpoint pOwner csAddress peer bListen {}

/-- `peer` is none when it is NULL; `endpoint` is empty when it is NULL. -/
def ArmUnified (pOwner : Option Owner) (env : ArmEnv) (peer : Option WStr) (endpoint : WStr) (bListen : Bool)
    (h : Hub) : HRESULT × Hub :=
  match peer with
  | none => (E_POINTER, h)
  | some peer =>
    if peer.isEmpty then (E_INVALIDARG, h)
    else if IsSwappedPeerArgument peer then (E_INVALIDARG, h)
    else
      let (hr, oEp) := endpointFor inet pOwner h.csAddress peer endpoint bListen
      if FAILED hr then (hr, h)
      else if h.bSecure then
        let (hr, h) := if IsPattern peer then AdmitPatternPeer env peer h else TrustPublishedPeer env peer h
        if FAILED hr then (hr, h) else ArmResolved env peer oEp bListen h
      else ArmResolved env peer oEp bListen h

def Listen (pOwner : Option Owner) (env : ArmEnv) (toPeer : Option WStr) (endpoint : WStr) (h : Hub) :
    HRESULT × Hub :=
  ArmUnified inet pOwner env toPeer endpoint true h

def Connect (pOwner : Option Owner) (env : ArmEnv) (toPeer : Option WStr) (endpoint : WStr) (h : Hub) :
    HRESULT × Hub :=
  ArmUnified inet pOwner env toPeer endpoint false h

end Arming

def Hub.ArmedListener (h : Hub) (peer : WStr) : WStr :=
  if peer.isEmpty then []
  else
    match h.armed[peer]? with
    | some a => if a.bListen then a.strEndpoint else []
    | none => []

/-! ## Retracting connections -/

def kUnwindSlices : Nat := 40
def kRetireSlices : Nat := 120

/-- What the pump does with the connections a DESTROY was sent to. -/
structure RetireEnv where
  /-- The hub context is there for the whole call. -/
  alive : Bool := true
  /-- The connection is still on the list at the given slice. -/
  stays : Nat → Con → Bool
  /-- Its going raises On_ConClose. -/
  closes : Con → Bool := fun _ => true
  /-- The caller is the hub's pump thread. -/
  bOwnsPump : Bool := false

/-- The slices of CloseCon: TRUE at the first that finds no connection for the peer. -/
def closeSlices (env : RetireEnv) (peer : WStr) : Nat → Nat → List Con → Bool × List Con
  | 0, nSlice, cons => (false, cons.filter fun c => c.csPeer != peer || env.stays nSlice c)
  | n + 1, nSlice, cons =>
    let cons := cons.filter fun c => c.csPeer != peer || env.stays nSlice c
    if !cons.any (·.csPeer == peer) then (true, cons) else closeSlices env peer n (nSlice + 1) cons

def CloseCon (env : RetireEnv) (peer : WStr) (nSlices : Nat) (h : Hub) : Bool × Hub :=
  if peer.isEmpty then (false, h)
  else
    let h := { h with armed := h.armed.erase peer }
    -- a hub whose context has gone has no connections either
    if !env.alive then (true, { h with cons := [] })
    else
      let (bGone, cons) := closeSlices env peer nSlices 0 h.cons
      let bClosed := h.cons.any fun c => c.csPeer == peer && !cons.contains c && env.closes c
      let h := { h with cons := cons }
      (bGone, if bClosed then h.MarkPeer peer false else h)

def Disconnect (env : RetireEnv) (peer : Option WStr) (h : Hub) : HRESULT × Hub :=
  match peer with
  | none => (E_POINTER, h)
  | some peer =>
    if peer.isEmpty then (E_INVALIDARG, h)
    else if !h.bCallerPumped && env.bOwnsPump then (P2PF_E_PUMP_THREAD, h)
    else if !env.alive then (P2PF_E_CLOSED, h)
    else if !h.ConExists peer then (P2PF_E_NO_PEER, h)
    else
      let bWasUp := IsPeerUp h.peers peer
      let (bGone, h) := CloseCon env peer kRetireSlices h
      let h := if bWasUp then h.MarkPeer peer false else h
      let h := { h with unretired := if bGone then h.unretired.erase peer else h.unretired.insert peer }
      (if bGone then S_OK else S_FALSE, h)

/-- The peers DrainCons signals. -/
def Hub.DrainPeers (h : Hub) : OSet WStr :=
  let aSet := h.peers.toList.foldl (fun s e => if e.2 then s.insert e.1 else s) ∅
  let aSet := h.armed.toList.foldl (fun s e => if (h.peers[e.1]?).isNone then s.insert e.1 else s) aSet
  h.unretired.toList.foldl (fun s p => s.insert p) aSet

end TargetFacade
