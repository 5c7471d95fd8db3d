/-
  TargetFacade.Com.Payload — a payload as a VARIANT (ComHub.cpp: VariantToBytes,
  BytesToVariant).

  A payload is a byte array, a string, VT_EMPTY or VT_NULL, and a script hands it over bare,
  by reference, or as a VARIANT that refers to another. `IsPayload v b` is what ComHub.h says
  of them: "BYREF and VARIANT-in-VARIANT wrappers are unwrapped".

  VariantToBytes takes one VARIANT wrapper off, and then looks through by-reference arrays
  only. So it refuses a by-reference string, and a second wrapper; it takes a byte array under
  any further flags, and an array whose upper bound is no LONG for an empty one:
  - `converts_iff`: it answers as the payload says exactly when nothing of that is the case
    (`SeenThrough`), whatever the VARIANT.
  - `roundTrips_iff`: and BytesToVariant is undone exactly up to 2^31 bytes.
-/

import Mathlib.Algebra.Order.Ring.Nat
import TargetFacade.Hub.BCastFrame

namespace TargetFacade

/-! ## VARIANT and SAFEARRAY -/

def VT_EMPTY : UInt16 := 0
def VT_NULL : UInt16 := 1
def VT_BSTR : UInt16 := 8
def VT_VARIANT : UInt16 := 12
def VT_UI1 : UInt16 := 17
def VT_TYPEMASK : UInt16 := 0x0FFF
def VT_ARRAY : UInt16 := 0x2000
def VT_BYREF : UInt16 := 0x4000

/-- The codes these two conversions answer. -/
inductive VariantHr where
  | S_OK
  | E_POINTER
  | E_OUTOFMEMORY
  | E_UNEXPECTED
  | DISP_E_TYPEMISMATCH
  deriving DecidableEq, Repr

/-- The bound is that of the first dimension. -/
structure SAFEARRAY where
  cDims : UInt16
  cLocks : UInt16
  lLbound : Int32
  cElements : UInt32
  pvData : List UInt8
  sized : cDims = 1 → pvData.length = cElements.toNat

namespace SAFEARRAY

/-- SafeArrayGetUBound. -/
def uBound (a : SAFEARRAY) : Int32 := a.lLbound + ⟨a.cElements⟩ - 1

/-- SafeArrayAccessData, and as many bytes of the data: none where the data has not as many. -/
def read (a : SAFEARRAY) (cb : Nat) : Option (VariantHr × List UInt8) :=
  if a.cLocks = 0xFFFF then some (.E_UNEXPECTED, [])
  else if a.pvData.length < cb then none
  else some (.S_OK, a.pvData.take cb)

/-- SafeArrayAccessData, and `src` copied to the data. -/
def write (a : SAFEARRAY) (src : List UInt8) : Option SAFEARRAY :=
  if a.cLocks = 0xFFFF then none
  else some { a with
    pvData := src.take a.pvData.length ++ a.pvData.drop src.length
    sized := fun h => by
      have := a.sized h
      rw [List.length_append, List.length_take, List.length_drop]
      omega }

end SAFEARRAY

/-- The arms of the union, each as it reads under the tag that selects it. A pointer is none when it is NULL. -/
structure VARIANT where
  vt : UInt16
  bstrVal : Option WStr
  pbstrVal : Option (Option WStr)
  parray : Option SAFEARRAY
  pparray : Option (Option SAFEARRAY)
  pvarVal : Option VARIANT

/-- VariantInit. -/
def VARIANT.empty : VARIANT := ⟨VT_EMPTY, none, none, none, none, none⟩

/-! ## The two conversions -/

/-- One VARIANT wrapper taken off. -/
def VARIANT.target (vIn : VARIANT) : VARIANT :=
  if vIn.vt = VT_VARIANT ||| VT_BYREF then vIn.pvarVal.getD vIn else vIn

/-- The string and its terminator. -/
def bstrBytes (bstrVal : Option WStr) : List UInt8 := u16le.write (bstrVal.getD [] ++ [0])

def IsByteArray (vt : UInt16) : Prop := vt &&& VT_ARRAY ≠ 0 ∧ vt &&& VT_TYPEMASK = VT_UI1

instance (vt : UInt16) : Decidable (IsByteArray vt) := inferInstanceAs (Decidable (_ ∧ _))

/-- The array of a VARIANT with VT_ARRAY. -/
def VARIANT.array (v : VARIANT) : Option SAFEARRAY := if v.vt &&& VT_BYREF ≠ 0 then v.pparray.getD none else v.parray

def arrayToBytes (w : Platform) (psa : Option SAFEARRAY) : Option (VariantHr × List UInt8) :=
  match psa with
  | none => some (.S_OK, [])
  | some psa =>
    if psa.cDims ≠ 1 then some (.DISP_E_TYPEMISMATCH, [])
    else
      -- the bounds of the one dimension are there to be read
      let lo := psa.lLbound
      let hi := psa.uBound
      if hi < lo then some (.S_OK, [])
      else psa.read (sizeT w.uWord (hi.toInt - lo.toInt + 1).toNat)

/-- What VariantToBytes makes of the VARIANT it has got to. -/
def bareToBytes (w : Platform) (pv : VARIANT) : Option (VariantHr × List UInt8) :=
  if pv.vt = VT_EMPTY ∨ pv.vt = VT_NULL then some (.S_OK, [])
  else if pv.vt = VT_BSTR then some (.S_OK, bstrBytes pv.bstrVal)
  else if IsByteArray pv.vt then arrayToBytes w pv.array
  else some (.DISP_E_TYPEMISMATCH, [])

/-- The answer and `out`; none where it reads memory that is not the array's. -/
def VariantToBytes (w : Platform) (vIn : VARIANT) : Option (VariantHr × List UInt8) := bareToBytes w vIn.target

/-- `bMemory` is whether there is memory for it. -/
def SafeArrayCreateVector (bMemory : Bool) (lLbound : Int32) (cElements : UInt32) : Option SAFEARRAY :=
  if bMemory then some ⟨1, 0, lLbound, cElements, List.replicate cElements.toNat 0, fun _ => List.length_replicate⟩ else none

/-- `pOut` is what it holds, none when it is NULL; there are `cb` bytes at `pData` and more. -/
def BytesToVariant (bMemory : Bool) (pData : List UInt8) (cb : UInt32) (pOut : Option VARIANT) :
    VariantHr × Option VARIANT :=
  match pOut with
  | none => (.E_POINTER, none)
  | some _ =>
    match SafeArrayCreateVector bMemory 0 cb with
    | none => (.E_OUTOFMEMORY, some .empty)
    | some psa =>
      let filled := if cb = 0 then some psa else psa.write (pData.take cb.toNat)
      match filled with
      | none => (.E_UNEXPECTED, some .empty)
      | some psa => (.S_OK, some { VARIANT.empty with vt := VT_ARRAY ||| VT_UI1, parray := some psa })

/-! ## Payloads -/

/-- The data of a one-dimensional array can be had: it is empty, or the array can be locked. -/
def SAFEARRAY.Readable (a : SAFEARRAY) : Prop := a.cDims = 1 ∧ (a.cElements = 0 ∨ a.cLocks ≠ 0xFFFF)

def ArrayBytes (psa : Option SAFEARRAY) (b : List UInt8) : Prop :=
  match psa with
  | none => b = []
  | some a => a.Readable ∧ b = a.pvData

/-- A bare payload and its bytes, or one by reference, or one in a VARIANT. -/
inductive IsPayload : VARIANT → List UInt8 → Prop
  | empty {v} : v.vt = VT_EMPTY → IsPayload v []
  | null {v} : v.vt = VT_NULL → IsPayload v []
  | text {v} : v.vt = VT_BSTR → IsPayload v (bstrBytes v.bstrVal)
  | array {v b} : v.vt = VT_ARRAY ||| VT_UI1 → ArrayBytes v.parray b → IsPayload v b
  | textRef {v s} : v.vt = VT_BSTR ||| VT_BYREF → v.pbstrVal = some s → IsPayload v (bstrBytes s)
  | arrayRef {v b} : v.vt = VT_ARRAY ||| VT_UI1 ||| VT_BYREF → ArrayBytes (v.pparray.getD none) b → IsPayload v b
  | wrapped {v inner b} : v.vt = VT_VARIANT ||| VT_BYREF → v.pvarVal = some inner → IsPayload inner b → IsPayload v b

/-- An answer for what is said of the bytes: the ones it is said of, or a refusal with an empty output. -/
structure Agrees (P : List UInt8 → Prop) (r : Option (VariantHr × List UInt8)) : Prop where
  bytes : ∀ b, P b → r = some (.S_OK, b)
  other : (∀ b, ¬ P b) → ∃ hr, hr ≠ .S_OK ∧ r = some (hr, [])

/-- A payload is converted to its bytes, and what is none is refused. -/
def Converts (w : Platform) (v : VARIANT) : Prop := Agrees (IsPayload v) (VariantToBytes w v)

/-- The upper bound is a LONG. A first dimension with none in it at the lowest LONG has none, and reads as one of 2^32. -/
def SAFEARRAY.Bounded (w : Platform) (a : SAFEARRAY) : Prop :=
  (a.lLbound.toInt + a.cElements.toNat - 1 = a.uBound.toInt) ∨ (a.cElements = 0 ∧ w = .Win32 ∧ a.cLocks ≠ 0xFFFF)

/-- A byte array, or one by reference, and no further flag. -/
def PlainArray (vt : UInt16) : Prop := vt = VT_ARRAY ||| VT_UI1 ∨ vt = VT_ARRAY ||| VT_UI1 ||| VT_BYREF

/-- The VARIANT is no by-reference string, no wrapper of a payload, no array under further flags that
    is taken, and no array without a LONG for its upper bound. -/
structure BareSeen (w : Platform) (t : VARIANT) : Prop where
  text : t.vt = VT_BSTR ||| VT_BYREF → t.pbstrVal = none
  wrapped : t.vt = VT_VARIANT ||| VT_BYREF → ∀ b, ¬ IsPayload t b
  flags : IsByteArray t.vt → ¬ PlainArray t.vt →
    ∃ a, t.array = some a ∧ (a.cDims ≠ 1 ∨ (a.lLbound ≤ a.uBound ∧ a.cLocks = 0xFFFF))
  bounds : PlainArray t.vt → ∀ a, t.array = some a → a.cDims = 1 → a.Bounded w

/-- So it is under one wrapper at most. -/
def SeenThrough (w : Platform) (v : VARIANT) : Prop := BareSeen w v.target

/-- BytesToVariant is undone, or it has no memory and says so. -/
def RoundTrips (w : Platform) (bMemory : Bool) (pOut : VARIANT) (b : List UInt8) : Prop :=
  match BytesToVariant bMemory b (UInt32.ofNat b.length) (some pOut) with
  | (.S_OK, some v) => VariantToBytes w v = some (.S_OK, b)
  | (hr, _) => hr = .E_OUTOFMEMORY ∧ bMemory = false

/-! ## Agreement -/

theorem agrees_refused {P : List UInt8 → Prop} {hr : VariantHr} (h : hr ≠ .S_OK) : Agrees P (some (hr, [])) ↔ ∀ b, ¬ P b := by
  constructor
  · intro ha b hb
    have heq := ha.bytes b hb
    simp only [Option.some.injEq, Prod.mk.injEq] at heq
    exact h heq.1
  · intro hno
    exact ⟨fun b hb => absurd hb (hno b), fun _ => ⟨hr, h, rfl⟩⟩

theorem agrees_ok {P : List UInt8 → Prop} {b : List UInt8} : Agrees P (some (.S_OK, b)) ↔ ∀ b', P b' ↔ b' = b := by
  constructor
  · intro ha b'
    have hone (b' : List UInt8) (hb : P b') : b' = b := by
      have heq := ha.bytes b' hb
      simp only [Option.some.injEq, Prod.mk.injEq, true_and] at heq
      exact heq.symm
    refine ⟨hone b', fun heq => ?_⟩
    by_contra hnot
    have hno : ∀ c, ¬ P c := by
      intro c hc
      rw [hone c hc, ← heq] at hc
      exact hnot hc
    obtain ⟨hr, hbad, hrefused⟩ := ha.other hno
    simp only [Option.some.injEq, Prod.mk.injEq] at hrefused
    exact hbad hrefused.1.symm
  · intro h
    refine ⟨fun b' hb => ?_, fun hno => absurd ((h b).mpr rfl) (hno b)⟩
    rw [(h b').mp hb]

theorem agrees_none {P : List UInt8 → Prop} : ¬ Agrees P none := by
  intro h
  by_cases hP : ∃ b, P b
  · obtain ⟨b, hb⟩ := hP
    cases h.bytes b hb
  · obtain ⟨hr, -, hnone⟩ := h.other (not_exists.mp hP)
    cases hnone

theorem agrees_congr {P Q : List UInt8 → Prop} {r : Option (VariantHr × List UInt8)} (h : ∀ b, P b ↔ Q b) :
    Agrees P r ↔ Agrees Q r := by
  have heq : P = Q := funext fun b => propext (h b)
  rw [heq]

/-! ## Arrays -/

/-- The upper bound wraps round once at most. -/
theorem uBound_cases (a : SAFEARRAY) :
    a.uBound.toInt = a.lLbound.toInt + a.cElements.toNat - 1 ∨
    (a.uBound.toInt = a.lLbound.toInt + a.cElements.toNat - 1 - 2 ^ 32 ∧ a.cElements ≠ 0) ∨
    (a.uBound.toInt = 2 ^ 31 - 1 ∧ a.lLbound.toInt = -2 ^ 31 ∧ a.cElements = 0) := by
  have hlo := a.lLbound.le_toInt
  have hlo' := a.lLbound.toInt_lt
  have hc := a.cElements.toNat_lt
  have hzero : a.cElements = 0 ↔ a.cElements.toNat = 0 := UInt32.toNat_inj.symm
  have hcast : (⟨a.cElements⟩ : Int32).toInt = Int.bmod a.cElements.toNat (2 ^ 32) := by
    show a.cElements.toBitVec.toInt = _
    rw [BitVec.toInt_eq_toNat_bmod]
    rfl
  have hhi : a.uBound.toInt = Int.bmod (a.lLbound.toInt + a.cElements.toNat - 1) (2 ^ 32) := by
    unfold SAFEARRAY.uBound
    rw [Int32.toInt_sub, Int32.toInt_add, hcast]
    have hone : (1 : Int32).toInt = 1 := rfl
    rw [hone, Int.add_bmod_bmod, Int.bmod_sub_bmod]
  rw [ne_eq, hzero, hhi, Int.bmod_def]
  split <;> omega

theorem sizeT_below {w : Platform} {n : Nat} (h : n < 2 ^ 32) : sizeT w.uWord n = n := by
  have hpow : n < 2 ^ w.uWord := by
    cases w
    · exact h
    · exact Nat.lt_trans h (by decide)
  rw [sizeT, BitVec.toNat_ofNat, Nat.mod_eq_of_lt hpow]

/-- The data is copied out whole: as many bytes as the bounds tell are as many as there are. -/
theorem read_all {a : SAFEARRAY} (hd : a.cDims = 1) (hl : a.cLocks ≠ 0xFFFF) : a.read a.cElements.toNat = some (.S_OK, a.pvData) := by
  have hlen := a.sized hd
  unfold SAFEARRAY.read
  rw [if_neg hl, if_neg (by omega), ← hlen, List.take_length]

section OneDimension

variable {w : Platform} {a : SAFEARRAY}

theorem none_iff : a.cElements = 0 ↔ a.cElements.toNat = 0 := UInt32.toNat_inj.symm

theorem arrayBytes_one (hd : a.cDims = 1) (b : List UInt8) :
    ArrayBytes (some a) b ↔ (a.cElements = 0 ∨ a.cLocks ≠ 0xFFFF) ∧ b = a.pvData :=
  ⟨fun h => ⟨h.1.2, h.2⟩, fun h => ⟨⟨hd, h.1⟩, h.2⟩⟩

/-- An upper bound below the lower one: the array is taken for an empty one. -/
theorem taken_empty_iff (hd : a.cDims = 1) (h : a.uBound < a.lLbound) :
    Agrees (fun b => (a.cElements = 0 ∨ a.cLocks ≠ 0xFFFF) ∧ b = a.pvData) (some (.S_OK, [])) ↔ a.Bounded w := by
  have hlt := Int32.lt_iff_toInt_lt.mp h
  have hlo := a.lLbound.le_toInt
  have hlen := a.sized hd
  have hnil : a.cElements = 0 ↔ a.pvData = [] := by rw [none_iff, ← hlen, List.length_eq_zero_iff]
  have hempty : a.cElements = 0 ↔ a.lLbound.toInt + a.cElements.toNat - 1 = a.uBound.toInt := by
    rw [none_iff]
    constructor
    · intro h
      rcases uBound_cases a with h' | ⟨-, h'⟩ | ⟨h', h'', -⟩
      · omega
      · exact absurd (none_iff.mpr h) h'
      · omega
    · intro h
      omega
  rw [agrees_ok]
  constructor
  · intro h
    exact .inl (hempty.mp (hnil.mpr ((h []).mpr rfl).2.symm))
  · intro h b
    have hz : a.cElements = 0 := h.elim hempty.mpr And.left
    rw [hnil.mp hz]
    exact ⟨fun hb => hb.2, fun hb => ⟨.inl hz, hb⟩⟩

/-- An array that cannot be locked is refused. -/
theorem locked_iff (h : ¬ a.uBound < a.lLbound) (hl : a.cLocks = 0xFFFF) :
    Agrees (fun b => (a.cElements = 0 ∨ a.cLocks ≠ 0xFFFF) ∧ b = a.pvData) (some (.E_UNEXPECTED, [])) ↔ a.Bounded w := by
  have hge := mt Int32.lt_iff_toInt_lt.mpr h
  have hc := a.cElements.toNat_lt
  rw [agrees_refused (by simp)]
  constructor
  · intro h
    have hz : ¬ a.cElements = 0 := fun hz => h a.pvData ⟨.inl hz, rfl⟩
    rcases uBound_cases a with h' | ⟨h', -⟩ | ⟨-, -, h'⟩
    · exact .inl h'.symm
    · omega
    · exact absurd h' hz
  · rintro (h | ⟨-, -, h⟩) b ⟨hz | hl', -⟩
    · rw [none_iff] at hz
      omega
    · exact hl' hl
    · exact h hl
    · exact hl' hl

/-- One that can is read by its bounds. They tell what there is, or of 2^32 where there is none. -/
theorem counted_iff (hd : a.cDims = 1) (h : ¬ a.uBound < a.lLbound) (hl : a.cLocks ≠ 0xFFFF) :
    Agrees (fun b => (a.cElements = 0 ∨ a.cLocks ≠ 0xFFFF) ∧ b = a.pvData)
      (a.read (sizeT w.uWord (a.uBound.toInt - a.lLbound.toInt + 1).toNat)) ↔ a.Bounded w := by
  have hge := mt Int32.lt_iff_toInt_lt.mpr h
  have hc := a.cElements.toNat_lt
  have hwhole : Agrees (fun b => (a.cElements = 0 ∨ a.cLocks ≠ 0xFFFF) ∧ b = a.pvData) (some (.S_OK, a.pvData)) :=
    agrees_ok.mpr fun b => ⟨And.right, fun hb => ⟨.inr hl, hb⟩⟩
  rcases uBound_cases a with h' | ⟨h', -⟩ | ⟨h', h'', hz⟩
  · have hcount : (a.uBound.toInt - a.lLbound.toInt + 1).toNat = a.cElements.toNat := by omega
    rw [hcount, sizeT_below hc, read_all hd hl]
    exact iff_of_true hwhole (.inl h'.symm)
  · omega
  · have hcount : (a.uBound.toInt - a.lLbound.toInt + 1).toNat = 2 ^ 32 := by omega
    rw [hcount]
    cases w with
    | Win32 =>
      have hsize : sizeT Platform.Win32.uWord (2 ^ 32) = a.cElements.toNat := by
        rw [none_iff.mp hz]
        rfl
      rw [hsize, read_all hd hl]
      exact iff_of_true hwhole (.inr ⟨hz, rfl, hl⟩)
    | x64 =>
      have hlen := a.sized hd
      have hread : a.read (sizeT Platform.x64.uWord (2 ^ 32)) = none := by
        have hsize : sizeT Platform.x64.uWord (2 ^ 32) = 2 ^ 32 := rfl
        unfold SAFEARRAY.read
        rw [if_neg hl, hsize, if_pos (by omega)]
      rw [hread]
      refine iff_of_false agrees_none ?_
      rintro (h | ⟨-, h, -⟩)
      · rw [none_iff] at hz
        omega
      · cases h

theorem bounded_iff (hd : a.cDims = 1) : Agrees (ArrayBytes (some a)) (arrayToBytes w (some a)) ↔ a.Bounded w := by
  rw [agrees_congr (arrayBytes_one hd)]
  unfold arrayToBytes
  simp only [hd, ne_eq, not_true, if_false]
  by_cases hlt : a.uBound < a.lLbound
  · rw [if_pos hlt]
    exact taken_empty_iff hd hlt
  · rw [if_neg hlt]
    by_cases hl : a.cLocks = 0xFFFF
    · have hread (n : Nat) : a.read n = some (.E_UNEXPECTED, []) := if_pos hl
      rw [hread]
      exact locked_iff hlt hl
    · exact counted_iff hd hlt hl

end OneDimension

/-! ## By the tag -/

theorem isPayload_cases {v : VARIANT} {b : List UInt8} : IsPayload v b ↔
    ((v.vt = VT_EMPTY ∨ v.vt = VT_NULL) ∧ b = []) ∨ (v.vt = VT_BSTR ∧ b = bstrBytes v.bstrVal) ∨
    (v.vt = VT_ARRAY ||| VT_UI1 ∧ ArrayBytes v.parray b) ∨
    (v.vt = VT_BSTR ||| VT_BYREF ∧ ∃ s, v.pbstrVal = some s ∧ b = bstrBytes s) ∨
    (v.vt = VT_ARRAY ||| VT_UI1 ||| VT_BYREF ∧ ArrayBytes (v.pparray.getD none) b) ∨
    (v.vt = VT_VARIANT ||| VT_BYREF ∧ ∃ inner, v.pvarVal = some inner ∧ IsPayload inner b) := by
  constructor
  · intro h
    cases h with
    | empty h => simp [h]
    | null h => simp [h]
    | text h => simp [h]
    | array h hb => simp [h, hb]
    | textRef h hs => simp [h, hs]
    | arrayRef h hb => simp [h, hb]
    | wrapped h hi hp => exact .inr (.inr (.inr (.inr (.inr ⟨h, _, hi, hp⟩))))
  · rintro (⟨h | h, rfl⟩ | ⟨h, rfl⟩ | ⟨h, hb⟩ | ⟨h, s, hs, rfl⟩ | ⟨h, hb⟩ | ⟨h, inner, hi, hp⟩)
    · exact .empty h
    · exact .null h
    · exact .text h
    · exact .array h hb
    · exact .textRef h hs
    · exact .arrayRef h hb
    · exact .wrapped h hi hp

/-- The tags, as numbers. -/
theorem tag_numbers : VT_EMPTY = 0 ∧ VT_NULL = 1 ∧ VT_BSTR = 8 ∧ VT_ARRAY ||| VT_UI1 = 0x2011 ∧ 8 ||| VT_BYREF = 0x4008 ∧
    0x2011 ||| VT_BYREF = 0x6011 ∧ VT_VARIANT ||| VT_BYREF = 0x400C := by decide

theorem payload_target (v : VARIANT) (b : List UInt8) : IsPayload v b ↔ IsPayload v.target b := by
  unfold VARIANT.target
  split
  · rename_i h
    cases hi : v.pvarVal with
    | none => rfl
    | some inner =>
      rw [isPayload_cases, h]
      simp [tag_numbers, hi]
  · rfl

theorem payload_tag {v : VARIANT} {b : List UInt8} (h : IsPayload v b) :
    v.vt = VT_EMPTY ∨ v.vt = VT_NULL ∨ v.vt = VT_BSTR ∨ PlainArray v.vt ∨ v.vt = VT_BSTR ||| VT_BYREF ∨
      v.vt = VT_VARIANT ||| VT_BYREF := by
  cases h with
  | empty h => exact .inl h
  | null h => exact .inr (.inl h)
  | text h => exact .inr (.inr (.inl h))
  | array h _ => exact .inr (.inr (.inr (.inl (.inl h))))
  | arrayRef h _ => exact .inr (.inr (.inr (.inl (.inr h))))
  | textRef h _ => exact .inr (.inr (.inr (.inr (.inl h))))
  | wrapped h _ _ => exact .inr (.inr (.inr (.inr (.inr h))))

theorem payload_array {v : VARIANT} (h : PlainArray v.vt) (b : List UInt8) : IsPayload v b ↔ ArrayBytes v.array b := by
  rw [isPayload_cases]
  unfold VARIANT.array
  rcases h with h | h
  · have href : ¬ (VT_ARRAY ||| VT_UI1) &&& VT_BYREF ≠ 0 := by decide
    rw [h, if_neg href]
    simp [tag_numbers]
  · have href : (VT_ARRAY ||| VT_UI1 ||| VT_BYREF) &&& VT_BYREF ≠ 0 := by decide
    rw [h, if_pos href]
    simp [tag_numbers]

theorem plain_isByteArray {vt : UInt16} (h : PlainArray vt) : IsByteArray vt := by
  rcases h with rfl | rfl
  · decide
  · decide

/-- Nothing is asked of a tag that is none of those. -/
theorem bareSeen_other {w : Platform} {t : VARIANT} (h1 : t.vt ≠ VT_BSTR ||| VT_BYREF) (h2 : t.vt ≠ VT_VARIANT ||| VT_BYREF)
    (h3 : ¬ IsByteArray t.vt) : BareSeen w t :=
  ⟨fun h => absurd h h1, fun h => absurd h h2, fun h => absurd h h3, fun h => absurd (plain_isByteArray h) h3⟩

theorem array_iff (w : Platform) {t : VARIANT} (h : PlainArray t.vt) :
    Agrees (IsPayload t) (arrayToBytes w t.array) ↔ ∀ a, t.array = some a → a.cDims = 1 → a.Bounded w := by
  rw [agrees_congr (payload_array h)]
  cases ha : t.array with
  | none =>
    refine iff_of_true (agrees_ok.mpr fun b => Iff.rfl) ?_
    intro a hsome
    cases hsome
  | some a =>
    by_cases hd : a.cDims = 1
    · rw [bounded_iff hd]
      constructor
      · intro hb a' hsome _
        cases hsome
        exact hb
      · intro hall
        exact hall a rfl hd
    · have hcode : arrayToBytes w (some a) = some (.DISP_E_TYPEMISMATCH, []) := if_pos hd
      rw [hcode, agrees_refused (by simp)]
      refine iff_of_true (fun b hb => hd hb.1.1) ?_
      intro a' hsome hone
      cases hsome
      exact absurd hone hd

/-- An array under further flags is no payload. -/
theorem flagged_iff (w : Platform) {t : VARIANT} (hno : ∀ b, ¬ IsPayload t b) : Agrees (IsPayload t) (arrayToBytes w t.array) ↔
    ∃ a, t.array = some a ∧ (a.cDims ≠ 1 ∨ (a.lLbound ≤ a.uBound ∧ a.cLocks = 0xFFFF)) := by
  have hrefused (r : Option (VariantHr × List UInt8)) : Agrees (IsPayload t) r ↔ ∃ hr, hr ≠ .S_OK ∧ r = some (hr, []) :=
    ⟨fun h => h.other hno, fun h => ⟨fun b hb => absurd hb (hno b), fun _ => h⟩⟩
  rw [hrefused]
  cases ha : t.array with
  | none =>
    refine iff_of_false ?_ ?_
    · rintro ⟨hr, hbad, hok⟩
      simp only [arrayToBytes, Option.some.injEq, Prod.mk.injEq] at hok
      exact hbad hok.1.symm
    · rintro ⟨a, hsome, -⟩
      cases hsome
  | some a =>
    have hone : (∃ a', some a = some a' ∧ (a'.cDims ≠ 1 ∨ (a'.lLbound ≤ a'.uBound ∧ a'.cLocks = 0xFFFF))) ↔
        (a.cDims ≠ 1 ∨ (a.lLbound ≤ a.uBound ∧ a.cLocks = 0xFFFF)) := by simp
    have hle : a.lLbound ≤ a.uBound ↔ ¬ a.uBound < a.lLbound := Int32.not_lt.symm
    rw [hone, hle]
    unfold arrayToBytes
    by_cases hd : a.cDims = 1
    · simp only [hd, ne_eq, not_true, if_false, false_or]
      by_cases h1 : a.uBound < a.lLbound
      · rw [if_pos h1]
        refine iff_of_false ?_ (fun h => h.1 h1)
        rintro ⟨hr, hbad, hok⟩
        simp only [Option.some.injEq, Prod.mk.injEq] at hok
        exact hbad hok.1.symm
      · rw [if_neg h1]
        unfold SAFEARRAY.read
        by_cases h2 : a.cLocks = 0xFFFF
        · rw [if_pos h2]
          exact iff_of_true ⟨.E_UNEXPECTED, by simp, rfl⟩ ⟨h1, h2⟩
        · rw [if_neg h2]
          refine iff_of_false ?_ (fun h => h2 h.2)
          rintro ⟨hr, hbad, hok⟩
          split at hok
          · cases hok
          · simp only [Option.some.injEq, Prod.mk.injEq] at hok
            exact hbad hok.1.symm
    · simp only [hd, ne_eq, not_false_eq_true, if_true, true_or, iff_true]
      exact ⟨.DISP_E_TYPEMISMATCH, by simp, rfl⟩

/-- What the code makes of the VARIANT it has got to, against what that is. -/
theorem bare_iff (w : Platform) (t : VARIANT) : Agrees (IsPayload t) (bareToBytes w t) ↔ BareSeen w t := by
  unfold bareToBytes
  by_cases h1 : t.vt = VT_EMPTY ∨ t.vt = VT_NULL
  · have hpayload (b : List UInt8) : IsPayload t b ↔ b = [] := by
      rw [isPayload_cases]
      rcases h1 with h | h <;> simp [h, tag_numbers]
    rw [if_pos h1]
    refine iff_of_true (agrees_ok.mpr hpayload) ?_
    rcases h1 with h | h
    · exact bareSeen_other (by rw [h]; decide) (by rw [h]; decide) (by rw [h]; decide)
    · exact bareSeen_other (by rw [h]; decide) (by rw [h]; decide) (by rw [h]; decide)
  by_cases h2 : t.vt = VT_BSTR
  · have hpayload (b : List UInt8) : IsPayload t b ↔ b = bstrBytes t.bstrVal := by
      rw [isPayload_cases]
      simp [h2, tag_numbers]
    rw [if_neg h1, if_pos h2]
    exact iff_of_true (agrees_ok.mpr hpayload) (bareSeen_other (by rw [h2]; decide) (by rw [h2]; decide) (by rw [h2]; decide))
  rw [if_neg h1, if_neg h2]
  by_cases h3 : IsByteArray t.vt
  · have htext : t.vt ≠ VT_BSTR ||| VT_BYREF := fun h => absurd (h ▸ h3) (by decide)
    have hwrap : t.vt ≠ VT_VARIANT ||| VT_BYREF := fun h => absurd (h ▸ h3) (by decide)
    rw [if_pos h3]
    by_cases h4 : PlainArray t.vt
    · rw [array_iff w h4]
      exact ⟨fun h => ⟨fun e => absurd e htext, fun e => absurd e hwrap, fun _ hn => absurd h4 hn, fun _ => h⟩,
        fun h => h.bounds h4⟩
    · have hno (b : List UInt8) : ¬ IsPayload t b := by
        intro hb
        rcases payload_tag hb with h | h | h | h | h | h
        · exact h1 (.inl h)
        · exact h1 (.inr h)
        · exact h2 h
        · exact h4 h
        · exact htext h
        · exact hwrap h
      rw [flagged_iff w hno]
      exact ⟨fun h => ⟨fun e => absurd e htext, fun e => absurd e hwrap, fun _ _ => h, fun hp => absurd hp h4⟩,
        fun h => h.flags h3 h4⟩
  · rw [if_neg h3, agrees_refused (by simp)]
    constructor
    · intro hno
      refine ⟨fun h => ?_, fun _ => hno, fun h => absurd h h3, fun h => absurd (plain_isByteArray h) h3⟩
      cases hs : t.pbstrVal with
      | none => rfl
      | some s => exact absurd (.textRef h hs) (hno _)
    · intro h b hb
      rcases payload_tag hb with ht | ht | ht | ht | ht | ht
      · exact h1 (.inl ht)
      · exact h1 (.inr ht)
      · exact h2 ht
      · exact h3 (plain_isByteArray ht)
      · -- by reference: the pointer would have to be NULL
        rw [isPayload_cases, ht] at hb
        simp [tag_numbers, h.text ht] at hb
      · exact h.wrapped ht b hb

theorem converts_iff (w : Platform) (v : VARIANT) : Converts w v ↔ SeenThrough w v := by
  unfold Converts VariantToBytes SeenThrough
  rw [agrees_congr (payload_target v), bare_iff]

/-! ## There and back -/

theorem toBytes_array {w : Platform} {v : VARIANT} (h : v.vt = VT_ARRAY ||| VT_UI1) : VariantToBytes w v = arrayToBytes w v.parray := by
  have htarget : v.target = v := if_neg (by rw [h]; decide)
  unfold VariantToBytes
  rw [htarget]
  unfold bareToBytes VARIANT.array
  rw [h, if_neg (by decide), if_neg (by decide), if_pos (by decide), if_neg (by decide)]

/-- The new array holds what was given, as far as the unsigned int goes. -/
theorem bytesToVariant_eq (b : List UInt8) (pOut : VARIANT) : ∃ psa : SAFEARRAY,
    BytesToVariant true b (UInt32.ofNat b.length) (some pOut) =
      (.S_OK, some { VARIANT.empty with vt := VT_ARRAY ||| VT_UI1, parray := some psa }) ∧
    psa.cDims = 1 ∧ psa.cLocks = 0 ∧ psa.lLbound = 0 ∧ psa.cElements = UInt32.ofNat b.length ∧
    psa.pvData = b.take (b.length % 2 ^ 32) := by
  have hcast : (UInt32.ofNat b.length).toNat = b.length % 2 ^ 32 := UInt32.toNat_ofNat'
  have hzero : UInt32.ofNat b.length = 0 ↔ b.length % 2 ^ 32 = 0 := by
    rw [← hcast]
    exact UInt32.toNat_inj.symm
  have hlen : (b.take (b.length % 2 ^ 32)).length = b.length % 2 ^ 32 := by
    rw [List.length_take]
    omega
  unfold BytesToVariant SafeArrayCreateVector
  by_cases h0 : UInt32.ofNat b.length = 0
  · refine ⟨_, by simp only [if_true, if_pos h0]; rfl, rfl, rfl, rfl, rfl, ?_⟩
    have hnone : (UInt32.ofNat b.length).toNat = 0 := hcast.trans (hzero.mp h0)
    show List.replicate (UInt32.ofNat b.length).toNat 0 = b.take (b.length % 2 ^ 32)
    rw [hzero.mp h0, hnone]
    rfl
  · simp only [if_true, if_neg h0, SAFEARRAY.write, hcast]
    refine ⟨_, by rw [if_neg (by decide)], rfl, rfl, rfl, rfl, ?_⟩
    show (b.take (b.length % 2 ^ 32)).take (List.replicate _ 0).length ++ (List.replicate _ 0).drop (b.take _).length = _
    rw [List.length_replicate, hlen, List.take_take, Nat.min_self, List.drop_of_length_le (by simp), List.append_nil]

theorem arrayToBytes_length {w : Platform} {a : SAFEARRAY} {x : List UInt8} (h : arrayToBytes w (some a) = some (.S_OK, x)) :
    x.length ≤ a.pvData.length := by
  unfold arrayToBytes SAFEARRAY.read at h
  simp only at h
  repeat' split at h
  all_goals
    simp only [Option.some.injEq, Prod.mk.injEq, reduceCtorEq, false_and, true_and] at h
    try subst h
    try simp

theorem roundTrips_iff (w : Platform) (bMemory : Bool) (pOut : VARIANT) (b : List UInt8) :
    RoundTrips w bMemory pOut b ↔ bMemory = false ∨ b.length ≤ 2 ^ 31 := by
  cases bMemory with
  | false => exact iff_of_true ⟨rfl, rfl⟩ (.inl rfl)
  | true =>
    obtain ⟨psa, hto, hd, hl, hlo, hc, hdata⟩ := bytesToVariant_eq b pOut
    have hcast : psa.cElements.toNat = b.length % 2 ^ 32 := by rw [hc, UInt32.toNat_ofNat']
    have hlow : psa.lLbound.toInt = 0 := by
      rw [hlo]
      rfl
    have hround : RoundTrips w true pOut b ↔ arrayToBytes w (some psa) = some (.S_OK, b) := by
      unfold RoundTrips
      rw [hto]
      show VariantToBytes w _ = _ ↔ _
      rw [toBytes_array rfl]
    have hcases := uBound_cases psa
    have hhi := psa.uBound.toInt_lt
    rw [hround]
    by_cases hle : b.length ≤ 2 ^ 31
    · have hall : psa.pvData = b := by
        rw [hdata, List.take_of_length_le (by omega)]
      refine iff_of_true ?_ (.inr hle)
      have hbound : psa.Bounded w := by
        rcases hcases with h | ⟨h, -⟩ | ⟨-, h, -⟩
        · exact .inl h.symm
        · have hlow' := psa.uBound.le_toInt
          omega
        · omega
      have hread : psa.Readable := ⟨hd, .inr (by rw [hl]; decide)⟩
      exact ((bounded_iff hd).mpr hbound).bytes b ⟨hread, hall.symm⟩
    · refine iff_of_false (fun h => ?_) (by simpa using Nat.not_le.mp hle)
      have hlen := arrayToBytes_length h
      rw [hdata, List.length_take] at hlen
      -- the size is the unsigned int's, and the upper bound has wrapped round
      have hneg : psa.uBound < psa.lLbound := by
        rw [Int32.lt_iff_toInt_lt]
        omega
      unfold arrayToBytes at h
      simp only [hd, ne_eq, not_true, if_false, if_pos hneg, Option.some.injEq, Prod.mk.injEq, true_and] at h
      rw [← h] at hle
      simp at hle

/-- A payload is converted exactly when VariantToBytes sees through to it, and a byte string comes back
    exactly up to 2^31 bytes. -/
theorem payload_conversion_iff (w : Platform) :
    (∀ v, Converts w v ↔ SeenThrough w v) ∧
    (∀ bMemory pOut b, RoundTrips w bMemory pOut b ↔ bMemory = false ∨ b.length ≤ 2 ^ 31) :=
  ⟨converts_iff w, roundTrips_iff w⟩

/-- A string by reference is refused. -/
theorem text_by_reference_refused :
    ¬ Converts .x64 { VARIANT.empty with vt := VT_BSTR ||| VT_BYREF, pbstrVal := some (some (L "hi")) } := by
  intro h
  have hpayload : IsPayload { VARIANT.empty with vt := VT_BSTR ||| VT_BYREF, pbstrVal := some (some (L "hi")) }
      (bstrBytes (some (L "hi"))) := .textRef rfl rfl
  cases h.bytes _ hpayload

end TargetFacade
