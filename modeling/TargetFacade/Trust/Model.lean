/-
  TargetFacade.Trust.Model — one secure hub's trusted set, its allow-list and the
  enforcement switches (FacadeHub.cpp, "ABI 11 -- security").

  Four copies of one set: `trusted` is m_mapTrusted, `temp` and `file` are the hub's
  "<stem>.allow.new" and "<stem>.allow", `loaded` is what the kernel took from the last
  SetAllowList it accepted. A line carries the address whose UTF-8 its first column is,
  the identity point and, when there is one, the agreement point.

  What the file system and the kernel answer is the environment's: a `WriteEnv` for each
  run of WriteAllowList, an `ArmGate` for each AuthArm. DeleteFile takes a file away;
  AppendAllowList creates its file or appends to it; MoveFileEx fails when its source is
  missing, or with the error the environment names; SetAllowList builds the new list to the
  side and swaps it in only when it answers IdOk.
-/

import TargetFacade.Endpoint

namespace TargetFacade

open OrdMap

inductive IdResult where
  | IdOk
  | IdErrArgs
  | IdErrIo
  | IdErrFormat
  | IdErrNotFound
  | other (n : Nat)
  deriving DecidableEq, Repr

inductive ArmResult where
  | ArmOk
  | ArmNotRequired
  | ArmEmptyAllow
  | ArmNoRevocation
  | ArmRevocationUnusable
  | other (n : Nat)
  deriving DecidableEq, Repr

/-- A public point, 64 raw bytes. -/
abbrev Point := BitVec 512

structure SecKeys where
  aId : Point
  aAgree : Point
  bAgree : Bool
  szFingerprint : List UInt8
  deriving DecidableEq

/-- The columns an allow-list line carries for these keys. -/
def SecKeys.published (k : SecKeys) : Point × Option Point := (k.aId, if k.bAgree then some k.aAgree else none)

abbrev AllowLine := WStr × Point × Option Point

structure Trust where
  trusted : Map WStr SecKeys
  temp : Option (List AllowLine)
  file : Option (List AllowLine)
  loaded : List AllowLine
  requireAuth : Bool
  requireSeal : Bool
  requireRelayAuth : Bool
  /-- AuthArm's most recent answer; read by nothing. -/
  lastArm : Option ArmResult
  /-- The entry the last successful TrustAndEnforce granted; read by nothing. -/
  lastTrust : Option (WStr × SecKeys)

def lines (m : Map WStr SecKeys) : List AllowLine := m.toList.map fun e => (e.1, e.2.published)

/-- What the calls of one WriteAllowList answer. -/
structure WriteEnv where
  tempPath : Bool := true
  who : WStr → Bool := fun _ => true
  append : WStr → IdResult := fun _ => .IdOk
  move : Option Nat := none
  allowPath : Bool := true
  load : IdResult := .IdOk

/-- The kernel's arming gate: its answer, as the enforcement flag stands. -/
structure ArmGate where
  answer : Bool → ArmResult
  off : answer false ≠ .ArmOk
  revocationPath : Option WStr := none
  allowPath : Option WStr := none

structure TrustEnv where
  write : WriteEnv
  arm : ArmGate
  undo : WriteEnv

/-- The sentences `rcsWhat` receives. -/
inductive What where
  | empty
  | path
  | writing (csAllow : WStr) (e : IdResult)
  | replaced (csAllow : WStr) (dwErr : Nat)
  | load (csAllow : WStr) (e : IdResult)
  | enforce (address : WStr) (eArm : ArmResult) (file : WStr)
  deriving DecidableEq, Repr

/-- `IdResultText` and `AuthArmText`. -/
structure KernelText where
  idResult : IdResult → WStr
  arm : ArmResult → WStr

def What.text (k : KernelText) : What → WStr
  | .empty => []
  | .path => L "the allow-list path could not be encoded"
  | .writing csAllow e => L "writing " ++ csAllow ++ L " -> " ++ k.idResult e
  | .replaced csAllow dwErr => csAllow ++ L " could not be replaced (Win32 " ++ fmtU dwErr ++ L ")"
  | .load csAllow e => L "SetAllowList(" ++ csAllow ++ L ") -> " ++ k.idResult e
  | .enforce address eArm file => L "hub '" ++ address ++ L "' requires authentication and cannot enforce it (" ++
      k.arm eArm ++ L "). File: " ++ file

/-! ## The file stem -/

def kStemMax : Nat := 96

def plainChar (c : WChar) : Bool :=
  (97 ≤ c && c ≤ 122) || (65 ≤ c && c ≤ 90) || (48 ≤ c && c ≤ 57) || c == 46 || c == 45 || c == 95

/-- FNV-1a over the exact address. -/
def fnv1a (csAddress : WStr) : UInt32 :=
  csAddress.foldl (fun uHash c => (uHash ^^^ c.toUInt32) * 16777619) 2166136261

/-- `%08x`. -/
def fmtX8 (n : UInt32) : WStr :=
  (List.range 8).map fun i =>
    let d := (n.toNat >>> (4 * (7 - i))) % 16
    (if d < 10 then 48 + d else 87 + d).toUInt16

def SecurityStemOf (csAddress : WStr) : WStr :=
  let cut := csAddress.take kStemMax
  let csOut := cut.map fun c => if plainChar c then c else 95
  let bMangled := decide (kStemMax < csAddress.length) || cut.any (!plainChar ·) || csOut.isEmpty
  let csOut := if csOut.isEmpty then L "hub" else csOut
  if bMangled then csOut ++ L "-" ++ fmtX8 (fnv1a csAddress) else csOut

/-! ## Writing the allow-list -/

def ERROR_FILE_NOT_FOUND : Nat := 2

/-- One AppendAllowList a peer, up to the first that fails. -/
def appendLines (env : WriteEnv) : List (WStr × SecKeys) → Option (List AllowLine) →
    IdResult × Option (List AllowLine)
  | [], temp => (.IdOk, temp)
  | (who, keys) :: rest, temp =>
    if !env.who who then (.IdErrArgs, temp)
    else
      match env.append who with
      | .IdOk => appendLines env rest (some (temp.getD [] ++ [(who, keys.published)]))
      | e => (e, temp)

def WriteAllowList (address csDir : WStr) (env : WriteEnv) (t : Trust) : IdResult × What × Trust :=
  let csAllow := csDir ++ SecurityStemOf address ++ L ".allow"
  if !env.tempPath then (.IdErrArgs, .path, t)
  else
    -- any earlier temp file is deleted first, so the lines go to a missing one
    match appendLines env t.trusted.toList none with
    | (.IdOk, temp) =>
      match temp, env.move with
      | some ls, none =>
        let t := { t with temp := none, file := some ls }
        if !env.allowPath then (.IdErrArgs, .path, t)
        else if env.load = .IdOk then (.IdOk, .empty, { t with loaded := ls })
        else (env.load, .load csAllow env.load, t)
      | some _, some dwErr => (.IdErrIo, .replaced csAllow dwErr, { t with temp := none })
      | none, dwErr => (.IdErrIo, .replaced csAllow (dwErr.getD ERROR_FILE_NOT_FOUND), { t with temp := none })
    | (e, _) => (e, .writing csAllow e, { t with temp := none })

/-! ## The enforcement switches -/

def Trust.RequireAuth (t : Trust) (b : Bool) : Trust := { t with requireAuth := b }

def Trust.ApplyDefaultPosture (t : Trust) : Trust :=
  { t with requireAuth := false, requireSeal := false, requireRelayAuth := false }

def Trust.RelinquishSecurity (t : Trust) : Trust := t.ApplyDefaultPosture

def AuthArm (gate : ArmGate) (t : Trust) : ArmResult × Trust :=
  let eArm := gate.answer t.requireAuth
  (eArm, { t with lastArm := some eArm })

def ArmRefusalFile (gate : ArmGate) (eArm : ArmResult) : WStr :=
  let bRevoc := eArm = .ArmNoRevocation || eArm = .ArmRevocationUnusable
  ((if bRevoc then gate.revocationPath else gate.allowPath).getD [])

/-! ## Trust -/

/-- `oPrev` is what the entry was: absent when `bHadEntry` is false. -/
def RestoreTrust (peer : WStr) (oPrev : Option SecKeys) (t : Trust) : Trust :=
  { t with trusted := putBack t.trusted peer oPrev }

def TrustAndEnforce (address peer : WStr) (rKeys : SecKeys) (csDir : WStr) (env : TrustEnv) (t : Trust) :
    HRESULT × What × Trust :=
  if peer.isEmpty then (E_INVALIDARG, .empty, t)
  else
    let bWasFirst := t.trusted.isEmpty
    let oPrev := t.trusted[peer]?
    let t := { t with trusted := t.trusted.insert peer rKeys }
    match WriteAllowList address csDir env.write t with
    | (.IdOk, _, t) =>
      let t := t.RequireAuth true
      let (eArm, t) := AuthArm env.arm t
      if eArm = .ArmOk then (S_OK, .empty, { t with lastTrust := some (peer, rKeys) })
      else
        let rcsWhat := What.enforce address eArm (ArmRefusalFile env.arm eArm)
        let t := RestoreTrust peer oPrev t
        -- best effort: put the file back
        let (_, _, t) := WriteAllowList address csDir env.undo t
        (P2PF_E_SECURITY, rcsWhat, if bWasFirst then t.RelinquishSecurity else t)
    | (_, rcsWhat, t) => (P2PF_E_SECURITY, rcsWhat, RestoreTrust peer oPrev t)

def Trust.Trusts (t : Trust) (peer : WStr) : Bool := if peer.isEmpty then false else (t.trusted[peer]?).isSome

def UntrustPeer (address peer csDir : WStr) (env : WriteEnv) (t : Trust) : IdResult × What × Trust :=
  if peer.isEmpty then (.IdErrArgs, .empty, t)
  else WriteAllowList address csDir env { t with trusted := t.trusted.erase peer }

/-! ## What the results compare -/

/-- The kernel's list holds the lines of the trusted set. -/
def Trust.Agrees (t : Trust) : Prop := ∀ l, l ∈ t.loaded ↔ l ∈ lines t.trusted

/-- The same trusted set, the same loaded lines and the same enforcement. -/
def SameTrust (t t' : Trust) : Prop :=
  t'.trusted = t.trusted ∧ (∀ l, l ∈ t'.loaded ↔ l ∈ t.loaded) ∧ t'.requireAuth = t.requireAuth

/-- A hub as it is created: nothing trusted, nothing loaded, nothing enforced, and whatever
    files an earlier process left. -/
def Trust.created (temp file : Option (List AllowLine)) : Trust :=
  ⟨∅, temp, file, [], false, false, false, none, none⟩

end TargetFacade
