/-
  TargetFacade.Endpoint — the endpoint grammar, the peer guards and the topology
  classifier (FacadeEndpoint.cpp).

  `InetPton` is Windows': whether a text is an IPv4 literal, and the sixteen bytes of an
  IPv6 literal. White space is `iswspace` and the scheme compare folds ASCII only, as in
  the C locale.
-/

import TargetFacade.Base

namespace TargetFacade

inductive FacadeTransport where
  | tcp
  | pipe
  | dmx
  | serial
  deriving DecidableEq, Repr

inductive FacadeFamily where
  | iPv4
  | iPv6
  | dual
  deriving DecidableEq, Repr

structure FacadeEndpoint where
  eKind : FacadeTransport := .tcp
  csHost : WStr := []
  csName : WStr := []
  uNum : Nat := 0
  eFamily : FacadeFamily := .iPv4
  /-- Resolved from an omitted endpoint; no part of the endpoint's identity. -/
  bDerived : Bool := false
  deriving DecidableEq, Repr

structure InetPton where
  v4 : WStr → Bool
  v6 : WStr → Option (Vector UInt8 16)

/-! ## CString -/

def iswspace (c : WChar) : Bool :=
  (9 ≤ c && c ≤ 13) || c == 32 || c == 0x85 || c == 0xA0 || c == 0x1680 || (0x2000 ≤ c && c ≤ 0x200A) ||
    c == 0x2028 || c == 0x2029 || c == 0x202F || c == 0x205F || c == 0x3000

def Trim (s : WStr) : WStr := ((s.dropWhile iswspace).reverse.dropWhile iswspace).reverse

def Find (s : WStr) (c : WChar) : Option Nat := s.findIdx? (· == c)

def ReverseFind (s : WStr) (c : WChar) : Option Nat := (s.reverse.findIdx? (· == c)).map (s.length - 1 - ·)

def lower (c : WChar) : WChar := if 65 ≤ c && c ≤ 90 then c + 32 else c

/-- `CompareNoCase (..) == 0`. -/
def IsScheme (csToken wanted : WStr) : Bool := csToken.map lower == wanted.map lower

/-! ## The grammar -/

def kPortMax : Nat := 65535
def kComPortMax : Nat := 255

def scanDigits : Nat → WStr → Option Nat
  | acc, [] => some acc
  | acc, c :: s => if c < 48 || c > 57 then none else scanDigits (min (acc * 10 + (c - 48).toNat) 0xFFFFFFFF) s

/-- A run of decimal digits, saturating. -/
def ScanUInt (s : WStr) : Option Nat := if s.isEmpty then none else scanDigits 0 s

def IsAnyHost4 (csHost : WStr) : Bool := csHost.isEmpty || csHost == L "*" || csHost == L "0.0.0.0"

section Grammar

variable (inet : InetPton)

def IsIPv6Literal (csHost : WStr) (bAllowZone : Bool) : Bool :=
  match Find csHost 37 with
  | some nZone =>
    if !bAllowZone || nZone == csHost.length - 1 then false else (inet.v6 (csHost.take nZone)).isSome
  | none => (inet.v6 csHost).isSome

def IsIPv6Any (csHost : WStr) : Bool :=
  match inet.v6 csHost with
  | some a => a.toList.all (· == 0)
  | none => false

/-- The host, the port text and whether the host was bracketed. -/
def splitHostPort (csTarget : WStr) : Option (WStr × WStr × Bool) :=
  if csTarget.take 1 == L "[" then
    match Find csTarget 93 with
    | none => none
    | some nClose =>
      if (csTarget.drop (nClose + 1)).take 1 != L ":" then none
      else
        let csHost := (csTarget.drop 1).take (nClose - 1)
        if csHost.isEmpty then none else some (csHost, csTarget.drop (nClose + 2), true)
  else
    match ReverseFind csTarget 58 with
    | none => none
    | some nPortSep =>
      let csHost := csTarget.take nPortSep
      -- an unbracketed ':' in the host is a v6 literal whose last group was read as the port
      if csHost.contains 58 || csHost.contains 93 then none else some (csHost, csTarget.drop (nPortSep + 1), false)

/-- What a listen may say of its host: the family it leaves, or a refusal. -/
def listenHost (csHost : WStr) (bBracketed bTcpAuto bTcp4 : Bool) (eFamily : FacadeFamily) : Option FacadeFamily :=
  if bBracketed then
    if !IsIPv6Any inet csHost then none else some (if bTcpAuto then .dual else eFamily)
  else if csHost == L "0.0.0.0" then
    if !bTcpAuto && !bTcp4 then none else some eFamily
  else if !IsAnyHost4 csHost then none
  else some eFamily

/-- What a dial may say of its host. -/
def dialHost (csHost : WStr) (bBracketed bTcpAuto : Bool) (eFamily : FacadeFamily) : Option FacadeFamily :=
  if csHost.isEmpty then none
  else
    let eFamily := if bBracketed && bTcpAuto then .iPv6 else eFamily
    -- a dotted quad can never be dialled from a v6-only socket
    if eFamily == .iPv6 && inet.v4 csHost then none else some eFamily

def parseTcp (bTcpAuto bTcp4 bTcp6 bTcp46 : Bool) (csTarget : WStr) (bListen : Bool) (rOut : FacadeEndpoint) :
    Option FacadeEndpoint :=
  match splitHostPort csTarget with
  | none => none
  | some (csHost, csPort, bBracketed) =>
    match ScanUInt csPort with
    | none => none
    | some uPort =>
      if uPort < 1 || uPort > kPortMax then none
      else if bBracketed && !IsIPv6Literal inet csHost (!bListen) then none
      else if bTcp4 && bBracketed then none
      else
        let eFamily : FacadeFamily := if bTcp6 then .iPv6 else if bTcp46 then .dual else .iPv4
        if bListen then
          (listenHost inet csHost bBracketed bTcpAuto bTcp4 eFamily).map fun f =>
            { rOut with eKind := .tcp, eFamily := f, csHost := [], csName := [], uNum := uPort }
        else
          (dialHost inet csHost bBracketed bTcpAuto eFamily).map fun f =>
            { rOut with eKind := .tcp, eFamily := f, csHost := csHost, csName := [], uNum := uPort }

def parseSerial (csTarget : WStr) (rOut : FacadeEndpoint) : Option FacadeEndpoint :=
  let csNum := if IsScheme (csTarget.take 3) (L "COM") then csTarget.drop 3 else csTarget
  match ScanUInt csNum with
  | none => none
  | some uCom =>
    if uCom < 1 || uCom > kComPortMax then none
    else some { rOut with eKind := .serial, uNum := uCom, eFamily := .iPv4, csHost := [], csName := [] }

/-- The record the text is parsed into, when the text is accepted. -/
def parseCore (s : WStr) (bListen : Bool) (rOut : FacadeEndpoint) : Option FacadeEndpoint :=
  if s.isEmpty then none
  else
    let csAll := Trim s
    match Find csAll 58 with
    | none => none
    | some nColon =>
      if nColon == 0 then none
      else
        let csScheme := csAll.take nColon
        let csTarget := csAll.drop (nColon + 1)
        let csTarget := if csTarget.take 2 == L "//" then csTarget.drop 2 else csTarget
        let bTcpAuto := IsScheme csScheme (L "tcp")
        let bTcp4 := IsScheme csScheme (L "tcp4") || IsScheme csScheme (L "ipv4")
        let bTcp6 := IsScheme csScheme (L "tcp6") || IsScheme csScheme (L "ipv6")
        let bTcp46 := IsScheme csScheme (L "tcp46")
        if bTcpAuto || bTcp4 || bTcp6 || bTcp46 then
          parseTcp inet bTcpAuto bTcp4 bTcp6 bTcp46 csTarget bListen rOut
        else if IsScheme csScheme (L "pipe") || IsScheme csScheme (L "dmx") then
          if csTarget.isEmpty then none
          else
            some { rOut with
              eKind := if IsScheme csScheme (L "pipe") then .pipe else .dmx
              csName := csTarget, csHost := [], uNum := 0, eFamily := .iPv4 }
        else if IsScheme csScheme (L "serial") || IsScheme csScheme (L "com") then
          parseSerial csTarget rOut
        else none

def ParseFacadeEndpoint (s : WStr) (bListen : Bool) (rOut : FacadeEndpoint) : HRESULT × FacadeEndpoint :=
  match parseCore inet s bListen rOut with
  | some ep => (S_OK, ep)
  | none => (P2PF_E_ENDPOINT, rOut)

end Grammar

/-- The canonical spelling, which ignores `bDerived`. -/
def FacadeEndpoint.Format (ep : FacadeEndpoint) : WStr :=
  match ep.eKind with
  | .tcp =>
    let scheme := match ep.eFamily with
      | .iPv6 => L "tcp6"
      | .dual => L "tcp46"
      | .iPv4 => L "tcp"
    if ep.csHost.contains 58 then scheme ++ L "://[" ++ ep.csHost ++ L "]:" ++ fmtU ep.uNum
    else scheme ++ L "://" ++ ep.csHost ++ L ":" ++ fmtU ep.uNum
  | .pipe => L "pipe://" ++ ep.csName
  | .dmx => L "dmx://" ++ ep.csName
  | .serial => L "serial://COM" ++ fmtU ep.uNum

/-! ## Guards and the classifier -/

def IsPattern (s : WStr) : Bool := s.any ([42, 63, 35, 124, 60, 62, 44] : WStr).contains

def wcsstr (sub : WStr) : WStr → Bool
  | [] => sub.isEmpty
  | c :: s => sub.isPrefixOf (c :: s) || wcsstr sub s

/-- A ':' or a "//": the caller passed an endpoint where an address belongs. -/
def IsSwappedPeerArgument (peer : WStr) : Bool := peer.contains 58 || wcsstr (L "//") peer

/-- `child` is below `parent`: a prefix on a dot boundary. -/
def IsBelow (parent child : WStr) : Bool :=
  !parent.isEmpty && parent.isPrefixOf child && child[parent.length]? == some 46

inductive FacadeRelation where
  | self
  | descendant
  | ancestor
  | unrelated
  | pattern
  deriving DecidableEq, Repr

def ClassifyPeer (address peer : WStr) : FacadeRelation :=
  if address.isEmpty || peer.isEmpty then .pattern
  else if IsPattern peer then .pattern
  else if address == peer then .self
  else if IsBelow address peer then .descendant
  else if IsBelow peer address then .ancestor
  else .unrelated

def DeriveDmxService (listener dialer : WStr) : WStr := L "P2PF|" ++ listener ++ L "|" ++ dialer

end TargetFacade
