/-
  TargetFacade.Base — wide strings, the result codes of the flat ABI, the platforms it is built for,
  and the two functions that hand a value back (FacadeInternal.h).
-/

import TargetFacade.Lib.OrdMap
import TargetFacade.Lib.Runs

namespace TargetFacade

abbrev WChar := UInt16

/-- A wide string: its units up to the terminating NUL. -/
abbrev WStr := List WChar

/-- A wide literal, `L"..."`. -/
def L (s : String) : WStr := s.toList.map fun c => c.toNat.toUInt16

/-- `%u`. -/
def fmtU (n : Nat) : WStr := (Nat.toDigits 10 n).map fun c => c.toNat.toUInt16

/-- The codes of TargetFacade.h, and the system codes the facade returns. -/
inductive HRESULT where
  | S_OK
  | S_FALSE
  | E_POINTER
  | E_INVALIDARG
  | E_OUTOFMEMORY
  | E_FAIL
  | ERROR_MORE_DATA
  | P2PF_E_ABI_MISMATCH
  | P2PF_E_STARTUP
  | P2PF_E_HUB_SPAWN
  | P2PF_E_CON_FACTORY
  | P2PF_E_CON_DUPLICATE
  | P2PF_E_RESERVED_TOPIC
  | P2PF_E_CLOSED
  | P2PF_E_HUB_DUPLICATE
  | P2PF_E_ENDPOINT
  | P2PF_E_UNRESOLVED
  | P2PF_E_NO_HUB
  | P2PF_E_LINK_PARTIAL
  | P2PF_S_UNRELATED_LINK
  | P2PF_E_NO_PEER
  | P2PF_E_TIMEOUT
  | P2PF_E_NO_SINK
  | P2PF_E_OPTION
  | P2PF_E_PUMP_THREAD
  | P2PF_E_NO_MESSAGE
  | P2PF_E_NO_FIELD
  | P2PF_E_FIELD_LIMIT
  | P2PF_E_NOT_PUMPED
  | P2PF_E_PUMP_OWNER
  | P2PF_E_NO_DIAG
  | P2PF_E_SECURITY
  deriving DecidableEq, Repr

export HRESULT (S_OK S_FALSE E_POINTER E_INVALIDARG P2PF_E_HUB_SPAWN P2PF_E_CON_FACTORY P2PF_E_CON_DUPLICATE
  P2PF_E_RESERVED_TOPIC P2PF_E_CLOSED P2PF_E_HUB_DUPLICATE P2PF_E_ENDPOINT P2PF_E_UNRESOLVED P2PF_E_NO_HUB
  P2PF_E_LINK_PARTIAL P2PF_S_UNRELATED_LINK P2PF_E_NO_PEER P2PF_E_PUMP_THREAD P2PF_E_SECURITY)

/-- The platforms of the project files. -/
inductive Platform where
  | Win32
  | x64
  deriving DecidableEq, Repr

/-- The number of bits of size_t. -/
def Platform.uWord : Platform → Nat
  | .Win32 => 32
  | .x64 => 64

/-- The severity bit: three codes are successes. -/
def FAILED : HRESULT → Bool
  | .S_OK | .S_FALSE | .P2PF_S_UNRELATED_LINK => false
  | _ => true

@[simp] theorem failed_S_OK : FAILED S_OK = false := rfl
@[simp] theorem failed_S_FALSE : FAILED S_FALSE = false := rfl
@[simp] theorem failed_S_UNRELATED_LINK : FAILED P2PF_S_UNRELATED_LINK = false := rfl

/-- The answer, the caller's buffer and its count: the buffer is the text in it, none when NULL. -/
def CopyOut (value : WStr) (buf : Option WStr) (cch : Option Nat) : HRESULT × Option WStr × Option Nat :=
  match cch with
  | none => (E_POINTER, buf, none)
  | some uHave =>
    let uNeed := value.length + 1
    match buf with
    | none => (S_OK, none, some uNeed)
    | some text => if uHave < uNeed then (.ERROR_MORE_DATA, some text, some uNeed) else (S_OK, some value, some uNeed)

def CopyOutBytes (value : List UInt8) (buf : Option (List UInt8)) (size : Option Nat) :
    HRESULT × Option (List UInt8) × Option Nat :=
  match size with
  | none => (E_POINTER, buf, none)
  | some uHave =>
    let uSize := value.length
    match buf with
    | none => (S_OK, none, some uSize)
    | some bytes => if uHave < uSize then (.ERROR_MORE_DATA, some bytes, some uSize) else (S_OK, some value, some uSize)

/-- A buffer that is filled holds the value. -/
theorem copyOut_text {value : WStr} {buf : Option WStr} {cch : Option Nat} {text : WStr}
    (hbuf : buf.isSome = true) (h : (CopyOut value buf cch).1 = S_OK) (hout : (CopyOut value buf cch).2.1 = some text) :
    text = value := by
  obtain ⟨old, rfl⟩ := Option.isSome_iff_exists.mp hbuf
  unfold CopyOut at h hout
  cases cch with
  | none => cases h
  | some uHave =>
    simp only at h hout
    split at h
    · cases h
    · rename_i hlt
      rw [if_neg hlt] at hout
      exact (Option.some.inj hout).symm

end TargetFacade
