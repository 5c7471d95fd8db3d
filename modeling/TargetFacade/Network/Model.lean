/-
  TargetFacade.Network.Model — the network: the hubs it owns, the deployment map, and Link
  with the security edge it makes (FacadeNetwork.cpp).

  `hubs` is m_listHubs. A verb works on the hubs the registry finds and writes them back
  under their addresses; Link holds m_oCSection throughout, so nothing else of the network
  runs beside it.
-/

import TargetFacade.Hub.Model

namespace TargetFacade

open OrdMap

/-- Where the module's own directory is, for a network no directory was named to. -/
inductive DirAnswer where
  | noModule
  | noPath
  | noDirectory
  | notCreated (csDir : WStr) (dwErr : Nat)
  | dir (csDir : WStr)

/-- The sentences the network puts on the diagnostic stream. -/
inductive NetWhy where
  | noModule
  | noPath
  | noDirectory
  | notCreated (csDir : WStr) (dwErr : Nat)
  | unprovisioned (address : WStr)
  | postures (listener : WStr) (bListener : Bool) (dialer : WStr) (bDialer : Bool)
  | refused (what : What)
  deriving DecidableEq, Repr

def NetWhy.text (k : KernelText) : NetWhy → WStr
  | .noModule => L ("TargetFacade: the module holding the facade could not be identified, so the security " ++
      "directory could not be resolved. Name one with SetSecurityDir.")
  | .noPath => L ("TargetFacade: the facade module's own path could not be read, so the security directory could " ++
      "not be resolved. Name one with SetSecurityDir.")
  | .noDirectory => L "TargetFacade: the facade module's path has no directory. Name one with SetSecurityDir."
  | .notCreated csDir dwErr => L "TargetFacade: the security directory " ++ csDir ++
      L " could not be created (Win32 " ++ fmtU dwErr ++ L "). Name a writable one with SetSecurityDir."
  | .unprovisioned address => L "TargetFacade: hub '" ++ address ++
      L "' is secure but holds no key material, so it cannot be linked. Nothing was armed."
  | .postures listener bListener dialer bDialer =>
      let posture := fun b : Bool => if b then L "secure" else L "plain"
      L "TargetFacade: hub '" ++ listener ++ L "' is " ++ posture bListener ++ L " and hub '" ++ dialer ++ L "' is " ++
      posture bDialer ++
      L (", so the login one of them demands is one the other cannot perform. Create both with P2PF_HUB_SECURE " ++
         "or neither. Nothing was armed.")
  | .refused what => L "TargetFacade: " ++ what.text k ++ L " Nothing was armed."

structure Net where
  hubs : List Hub
  mapEndpoints : Map WStr WStr
  csSecDir : WStr
  bSecUsed : Bool
  said : List NetWhy

def Net.RaiseSecurityError (net : Net) (what : NetWhy) : Net := { net with said := net.said ++ [what] }

def Net.FindHubLocked (net : Net) (address : WStr) : Option Hub := net.hubs.find? (·.csAddress == address)

/-- The hub's state is written back under its address. -/
def Net.setHub (net : Net) (h : Hub) : Net :=
  { net with hubs := net.hubs.map fun g => if g.csAddress = h.csAddress then h else g }

theorem find_address {net : Net} {address : WStr} {h : Hub} (hf : net.FindHubLocked address = some h) :
    h.csAddress = address := by
  simpa using List.find?_some hf

theorem find_congr {net net' : Net} (h : net'.hubs = net.hubs) (address : WStr) :
    net'.FindHubLocked address = net.FindHubLocked address := by
  unfold Net.FindHubLocked
  rw [h]

/-- The hub written back is the one found at its address; every other one is as it was. -/
theorem find_setHub {net : Net} {h : Hub} (address : WStr) :
    (net.setHub h).FindHubLocked address =
      if address = h.csAddress then (net.FindHubLocked address).map fun _ => h else net.FindHubLocked address := by
  unfold Net.setHub Net.FindHubLocked
  induction net.hubs with
  | nil => simp
  | cons g hubs ih =>
    rw [List.map_cons, List.find?_cons, List.find?_cons, ih]
    by_cases hg : g.csAddress = h.csAddress
    · by_cases ha : address = h.csAddress
      · simp [hg, ha]
      · have hne : (h.csAddress == address) = false := by simpa using fun e => ha e.symm
        simp [hg, ha, hne]
    · by_cases ha : address = h.csAddress
      · have hne : (g.csAddress == h.csAddress) = false := by simpa using hg
        simp [hg, ha, hne]
      · simp [hg, ha]

/-! ## Resolving an omitted endpoint -/

section Resolution

variable (inet : InetPton)

def Net.LookupEndpoint (net : Net) (address : WStr) (rEp : FacadeEndpoint) : HRESULT × FacadeEndpoint :=
  if address.isEmpty then (P2PF_E_UNRESOLVED, rEp)
  else
    match net.mapEndpoints[address]? with
    | none => (P2PF_E_UNRESOLVED, rEp)
    | some csValue => ParseFacadeEndpoint inet csValue false rEp

def Net.ResolveDial (net : Net) (peerAddr dialerAddr : WStr) (rEp : FacadeEndpoint) : HRESULT × FacadeEndpoint :=
  if peerAddr.isEmpty || dialerAddr.isEmpty then (P2PF_E_UNRESOLVED, rEp)
  else
    match net.FindHubLocked peerAddr with
    | none => (P2PF_E_UNRESOLVED, rEp)
    | some pPeer =>
      let csEndpoint := pPeer.ArmedListener dialerAddr
      if csEndpoint.isEmpty then (P2PF_E_UNRESOLVED, rEp)
      else
        let (hr, rEp) := ParseFacadeEndpoint inet csEndpoint true rEp
        if FAILED hr then (hr, rEp)
        else if rEp.eKind = .tcp && rEp.csHost.isEmpty then
          (S_OK, { rEp with csHost := if rEp.eFamily = .iPv6 then L "::1" else L "127.0.0.1" })
        else (S_OK, rEp)

def Net.owner (net : Net) : Owner := ⟨net.LookupEndpoint inet, net.ResolveDial inet⟩

end Resolution

/-! ## The security edge -/

def Net.EnsureSecurityDirLocked (net : Net) (answer : DirAnswer) : HRESULT × WStr × Net :=
  if net.csSecDir.isEmpty then
    match answer with
    | .noModule => (P2PF_E_SECURITY, [], net.RaiseSecurityError .noModule)
    | .noPath => (P2PF_E_SECURITY, [], net.RaiseSecurityError .noPath)
    | .noDirectory => (P2PF_E_SECURITY, [], net.RaiseSecurityError .noDirectory)
    | .notCreated csDir dwErr => (P2PF_E_SECURITY, [], net.RaiseSecurityError (.notCreated csDir dwErr))
    | .dir csDir => (S_OK, csDir, { net with csSecDir := csDir, bSecUsed := true })
  else (S_OK, net.csSecDir, { net with bSecUsed := true })

structure EdgeEnv where
  dir : DirAnswer
  /-- The first hub trusts the second. -/
  first : TrustEnv
  /-- The second hub trusts the first. -/
  second : TrustEnv
  /-- The first hub's peer is withdrawn. -/
  withdraw : WriteEnv

def SecureEdgeLocked (env : EdgeEnv) (net : Net) (pA pB : Hub) : HRESULT × Net × Hub × Hub :=
  let (hr, csDir, net) := net.EnsureSecurityDirLocked env.dir
  if FAILED hr then (hr, net, pA, pB)
  else if !pA.bProvisioned then (P2PF_E_SECURITY, net.RaiseSecurityError (.unprovisioned pA.csAddress), pA, pB)
  else if !pB.bProvisioned then (P2PF_E_SECURITY, net.RaiseSecurityError (.unprovisioned pB.csAddress), pA, pB)
  else
    let bAlreadyTrusted := pA.trust.Trusts pB.csAddress
    let (hrTrust, csWhat, t) := TrustAndEnforce pA.csAddress pB.csAddress pB.oSecKeys csDir env.first pA.trust
    let pA := { pA with trust := t }
    if FAILED hrTrust then (P2PF_E_SECURITY, net.RaiseSecurityError (.refused csWhat), pA, pB)
    else
      let (hrTrust, csWhat, t) := TrustAndEnforce pB.csAddress pA.csAddress pA.oSecKeys csDir env.second pB.trust
      let pB := { pB with trust := t }
      if FAILED hrTrust then
        -- only what this call granted is withdrawn
        let pA := if !bAlreadyTrusted then
            { pA with trust := (UntrustPeer pA.csAddress pB.csAddress csDir env.withdraw pA.trust).2.2 }
          else pA
        (P2PF_E_SECURITY, net.RaiseSecurityError (.refused csWhat), pA, pB)
      else (S_OK, net, pA, pB)

/-! ## Link -/

structure LinkEnv where
  edge : EdgeEnv
  listen : ArmEnv
  dial : ArmEnv
  unwind : RetireEnv

/-- The two spellings of a link's endpoint: the listener's, then the dialer's. -/
def linkEndpoints (inet : InetPton) (listenerAddr dialerAddr endpoint : WStr) :
    HRESULT × FacadeEndpoint × FacadeEndpoint :=
  if !endpoint.isEmpty then
    let (hr, oDial) := ParseFacadeEndpoint inet endpoint false {}
    if FAILED hr then (hr, {}, oDial)
    else if oDial.eKind = .serial then (P2PF_E_ENDPOINT, {}, oDial)
    else (S_OK, { oDial with csHost := [] }, oDial)
  else
    let oListen : FacadeEndpoint :=
      { eKind := .dmx, csName := DeriveDmxService listenerAddr dialerAddr, bDerived := true }
    (S_OK, oListen, oListen)

/-- Both arms of a link, the listener's taken back when the dialer's is refused. -/
def armEdge (env : LinkEnv) (oListen oDial : FacadeEndpoint) (pListener pDialer : Hub) : HRESULT × Hub × Hub :=
  let (hrListen, pListener) := ArmResolved env.listen pDialer.csAddress oListen true pListener
  if FAILED hrListen then (hrListen, pListener, pDialer)
  else
    let (hrDial, pDialer) := ArmResolved env.dial pListener.csAddress oDial false pDialer
    if FAILED hrDial then
      let (bGone, pListener) := CloseCon env.unwind pDialer.csAddress kUnwindSlices pListener
      (if !bGone then P2PF_E_LINK_PARTIAL else hrDial, pListener, pDialer)
    else
      (if hrListen = P2PF_S_UNRELATED_LINK || hrDial = P2PF_S_UNRELATED_LINK then P2PF_S_UNRELATED_LINK else S_OK,
        pListener, pDialer)

/-- An address is none when it is NULL. -/
def Link (inet : InetPton) (env : LinkEnv) (listenerAddr dialerAddr : Option WStr) (endpoint : WStr) (net : Net) :
    HRESULT × Net :=
  match listenerAddr, dialerAddr with
  | some listenerAddr, some dialerAddr =>
    if listenerAddr.isEmpty || dialerAddr.isEmpty then (E_INVALIDARG, net)
    else if listenerAddr = dialerAddr then (E_INVALIDARG, net)
    else if IsSwappedPeerArgument listenerAddr || IsSwappedPeerArgument dialerAddr then (E_INVALIDARG, net)
    else
      let (hr, oListen, oDial) := linkEndpoints inet listenerAddr dialerAddr endpoint
      if FAILED hr then (hr, net)
      else
        match net.FindHubLocked listenerAddr, net.FindHubLocked dialerAddr with
        | some pListener, some pDialer =>
          if pListener.ConExists dialerAddr || pDialer.ConExists listenerAddr then (P2PF_E_CON_DUPLICATE, net)
          else if pListener.bSecure ≠ pDialer.bSecure then
            (P2PF_E_SECURITY, net.RaiseSecurityError
              (.postures pListener.csAddress pListener.bSecure pDialer.csAddress pDialer.bSecure))
          else
            let (hrSec, net, pListener, pDialer) :=
              if pListener.bSecure then SecureEdgeLocked env.edge net pListener pDialer
              else (S_OK, net, pListener, pDialer)
            if FAILED hrSec then (hrSec, (net.setHub pListener).setHub pDialer)
            else
              let (hr, pListener, pDialer) := armEdge env oListen oDial pListener pDialer
              (hr, (net.setHub pListener).setHub pDialer)
        | _, _ => (P2PF_E_NO_HUB, net)
  | _, _ => (E_POINTER, net)

end TargetFacade
