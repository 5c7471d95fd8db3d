/-
  TargetFacade.Hub.MessageMap — the message object as an ordered map (FacadeMessage.cpp;
  TargetFacade.h, IP2PMessage).

  `RefMessage` is what the object is for: a byte string and a finite map that keeps the order its
  names came in. `refCall` is a call on it as the contract has it: sizes are numbers there. What
  the object holds is such a message at every moment (`FacadeMessage.abs`), and its getters hand
  out just the names that it has (`names_agree`).

  Each call does to the object what it does to the reference, but one: SetFieldText casts the
  text's size to an unsigned int before it is checked (`call_matches_iff`), so a text of 2^31 - 1
  characters and more can come through as a shorter value. `message_iff` says so of whole runs.
-/

import Mathlib.Algebra.Order.Ring.Nat
import TargetFacade.Hub.Message
import TargetFacade.Lib.InsMap

namespace TargetFacade

open Runs

/-! ## The rest of the object -/

/-- `outCount` is none when it is NULL. -/
def FacadeMessage.GetFieldCount (m : FacadeMessage) (outCount : Option UInt32) : HRESULT × Option UInt32 :=
  match outCount with
  | none => (E_POINTER, none)
  | some _ => (S_OK, some (UInt32.ofNat m.aFields.length))

def FacadeMessage.GetFieldName (m : FacadeMessage) (index : UInt32) (buf : Option WStr) (cch : Option Nat) :
    HRESULT × Option WStr × Option Nat :=
  match m.aFields[index.toNat]? with
  | none => (E_INVALIDARG, buf, cch)
  | some f => CopyOut f.1 buf cch

def FacadeMessage.GetField (m : FacadeMessage) (name : Option CWStr) (buf : Option (List UInt8)) (size : Option Nat) :
    HRESULT × Option (List UInt8) × Option Nat :=
  match name, size with
  | some name, some size =>
    match m.aFields.find? (·.1 == name.1) with
    | none => (.P2PF_E_NO_FIELD, buf, some size)
    | some f => CopyOutBytes f.2 buf (some size)
  | _, _ => (E_POINTER, buf, size)

/-- What a call answers. -/
def msgAnswer (m : FacadeMessage) : MsgCall → HRESULT
  | .setPayload payload size => (SetPayload payload size m).1
  | .setField name value size => (SetField name value size m).1
  | .setFieldText name text => (SetFieldText name text m).1
  | .removeField name => (RemoveField name m).1
  | .clear => S_OK

/-! ## The reference -/

structure RefMessage where
  payload : List UInt8
  fields : InsMap WStr (List UInt8)

def RefMessage.empty : RefMessage := ⟨[], InsMap.empty⟩

/-- What a field is refused with. -/
def fieldRefusal (r : RefMessage) (name : Option CWStr) (bValue : Bool) (size : Nat) : Option HRESULT :=
  match name with
  | none => some E_POINTER
  | some name =>
    if name.1 = [] then some E_INVALIDARG
    else if IsReservedField name.1 then some P2PF_E_RESERVED_TOPIC
    else if !bValue ∧ size ≠ 0 then some E_POINTER
    else if MAX_FIELD_NAME < name.1.length ∨ MAX_FIELD_SIZE < size then some .P2PF_E_FIELD_LIMIT
    else if name.1 ∉ r.fields.order ∧ MAX_FIELDS ≤ r.fields.order.length then some .P2PF_E_FIELD_LIMIT
    else none

/-- A field that is not refused. -/
def RefMessage.set (r : RefMessage) (name : Option CWStr) (value : List UInt8) : RefMessage :=
  match name with
  | none => r
  | some name => { r with fields := r.fields.set name.1 value }

/-- The bytes of a text, its terminator with them. -/
def textBytes (text : CWStr) : List UInt8 := (text.1 ++ [0]).flatMap u16Bytes

def refField (r : RefMessage) (name : Option CWStr) (bValue : Bool) (size : Nat) (value : List UInt8) :
    HRESULT × RefMessage :=
  match fieldRefusal r name bValue size with
  | some hr => (hr, r)
  | none => (S_OK, r.set name value)

def refCall (r : RefMessage) : MsgCall → HRESULT × RefMessage
  | .setPayload payload size =>
    if MAX_PAYLOAD < size.toNat then (E_INVALIDARG, r)
    else if payload.isNone ∧ size ≠ 0 then (E_POINTER, r)
    else (S_OK, { r with payload := (payload.getD []).take size.toNat })
  | .setField name value size => refField r name value.isSome size.toNat ((value.getD []).take size.toNat)
  | .setFieldText name text =>
    match text with
    | none => (E_POINTER, r)
    | some text => refField r name true ((text.1.length + 1) * 2) (textBytes text)
  | .removeField name =>
    match name with
    | none => (E_POINTER, r)
    | some name =>
      if name.1 ∈ r.fields.order then (S_OK, { r with fields := r.fields.remove name.1 }) else (S_FALSE, r)
  | .clear => (S_OK, .empty)

/-- What an object holds. -/
def FacadeMessage.abs (m : FacadeMessage) : RefMessage := ⟨m.aPayload, InsMap.ofEntries m.aFields m.distinct⟩

/-- The call sets a field from a text whose size an unsigned int takes for one within the limit. -/
structure TextWraps (m : FacadeMessage) (name : Option CWStr) (text : Option CWStr) : Prop where
  wraps : ∃ t, text = some t ∧ 2 ^ 32 ≤ (t.1.length + 1) * 2 ∧ (t.1.length + 1) * 2 % 2 ^ 32 ≤ MAX_FIELD_SIZE
  named : ∃ n, name = some n ∧ n.1 ≠ [] ∧ IsReservedField n.1 = false ∧ n.1.length ≤ MAX_FIELD_NAME ∧
    (n.1 ∈ Assoc.keys m.aFields ∨ m.aFields.length < MAX_FIELDS)

def MsgCall.Wraps (m : FacadeMessage) : MsgCall → Prop
  | .setFieldText name text => TextWraps m name text
  | _ => False

/-- A call answers and does what it does on the reference. -/
def Matches (m : FacadeMessage) (c : MsgCall) : Prop :=
  msgAnswer m c = (refCall m.abs c).1 ∧ (msgStep m c).abs = (refCall m.abs c).2

/-! ## One call -/

theorem abs_put {m m' : FacadeMessage} {k : WStr} {v : List UInt8} (hpayload : m'.aPayload = m.aPayload)
    (hfields : m'.aFields = Assoc.put k v m.aFields) : m'.abs = { m.abs with fields := m.abs.fields.set k v } := by
  obtain ⟨payload', fields', _, _, _, hd⟩ := m'
  obtain rfl : payload' = m.aPayload := hpayload
  obtain rfl : fields' = Assoc.put k v m.aFields := hfields
  exact congrArg (RefMessage.mk m.aPayload) (InsMap.ofEntries_put m.distinct k v)

theorem abs_erase {m m' : FacadeMessage} {k : WStr} (hpayload : m'.aPayload = m.aPayload)
    (hfields : m'.aFields = m.aFields.eraseP (decide <| ·.1 = k)) : m'.abs = { m.abs with fields := m.abs.fields.remove k } := by
  obtain ⟨payload', fields', _, _, _, hd⟩ := m'
  obtain rfl : payload' = m.aPayload := hpayload
  obtain rfl : fields' = m.aFields.eraseP (decide <| ·.1 = k) := hfields
  exact congrArg (RefMessage.mk m.aPayload) (InsMap.ofEntries_erase m.distinct k hd)

/-- SetField, by what it is refused with. -/
theorem setField_spec (name : Option CWStr) (value : Option (List UInt8)) (size : UInt32) (m : FacadeMessage) :
    (∃ hr, fieldRefusal m.abs name value.isSome size.toNat = some hr ∧ SetField name value size m = (hr, m)) ∨
    (fieldRefusal m.abs name value.isSome size.toNat = none ∧ (SetField name value size m).1 = S_OK ∧
      (SetField name value size m).2.abs = m.abs.set name ((value.getD []).take size.toNat)) := by
  cases name with
  | none => exact Or.inl ⟨_, rfl, rfl⟩
  | some name =>
    have hnull : (value.isNone && decide (size ≠ 0)) = true ↔ ((!value.isSome) = true ∧ size.toNat ≠ 0) := by
      have hsize : size ≠ 0 ↔ size.toNat ≠ 0 := not_congr (UInt32.toNat_inj (b := 0)).symm
      rw [Bool.and_eq_true, decide_eq_true_eq, hsize]
      cases value <;> simp
    have hfull : (name.1 ∉ m.abs.fields.order ∧ MAX_FIELDS ≤ m.abs.fields.order.length) ↔
        name.1 ∉ Assoc.keys m.aFields ∧ MAX_FIELDS ≤ m.aFields.length := by
      have hlen : (Assoc.keys m.aFields).length = m.aFields.length := List.length_map _
      rw [← hlen]
      rfl
    unfold SetField fieldRefusal
    by_cases h1 : name.1 = []
    · have h1' : name.1.isEmpty = true := by simpa using h1
      exact Or.inl ⟨E_INVALIDARG, if_pos h1, dif_pos h1'⟩
    have h1' : ¬ name.1.isEmpty = true := by simpa using h1
    by_cases h2 : IsReservedField name.1 = true
    · exact Or.inl ⟨P2PF_E_RESERVED_TOPIC, by simp only [if_neg h1, if_pos h2], by simp only [dif_neg h1', dif_pos h2]⟩
    by_cases h3 : (!value.isSome) = true ∧ size.toNat ≠ 0
    · refine Or.inl ⟨E_POINTER, by simp only [if_neg h1, if_neg h2, if_pos h3], ?_⟩
      simp only [dif_neg h1', dif_neg h2, if_pos (hnull.mpr h3)]
    have h3' := mt hnull.mp h3
    by_cases h4 : MAX_FIELD_NAME < name.1.length ∨ MAX_FIELD_SIZE < size.toNat
    · refine Or.inl ⟨.P2PF_E_FIELD_LIMIT, by simp only [if_neg h1, if_neg h2, if_neg h3, if_pos h4], ?_⟩
      simp only [dif_neg h1', dif_neg h2, if_neg h3', dif_pos h4]
    by_cases h5 : name.1 ∉ Assoc.keys m.aFields ∧ MAX_FIELDS ≤ m.aFields.length
    · refine Or.inl ⟨.P2PF_E_FIELD_LIMIT, ?_, ?_⟩
      · simp only [if_neg h1, if_neg h2, if_neg h3, if_neg h4, if_pos (hfull.mpr h5)]
      · simp only [dif_neg h1', dif_neg h2, if_neg h3', dif_neg h4, dif_pos h5]
    · refine Or.inr ⟨?_, ?_, ?_⟩
      · simp only [if_neg h1, if_neg h2, if_neg h3, if_neg h4, if_neg (mt hfull.mp h5)]
      · simp only [dif_neg h1', dif_neg h2, if_neg h3', dif_neg h4, dif_neg h5]
      · simp only [dif_neg h1', dif_neg h2, if_neg h3', dif_neg h4, dif_neg h5]
        exact abs_put rfl rfl

/-- A call that answers S_OK apart, no call changes the object. -/
theorem call_kept {m : FacadeMessage} {c : MsgCall} (h : msgAnswer m c ≠ S_OK) : msgStep m c = m := by
  have hfield (name : Option CWStr) (value : Option (List UInt8)) (size : UInt32)
      (h : (SetField name value size m).1 ≠ S_OK) : (SetField name value size m).2 = m := by
    rcases setField_spec name value size m with ⟨hr, -, hset⟩ | ⟨-, hok, -⟩
    · rw [hset]
    · exact absurd hok h
  cases c with
  | setPayload payload size =>
    unfold msgAnswer SetPayload at h
    unfold msgStep SetPayload
    by_cases h1 : MAX_PAYLOAD < size.toNat
    · simp only [dif_pos h1]
    by_cases h2 : (payload.isNone && decide (size ≠ 0)) = true
    · simp only [dif_neg h1, if_pos h2]
    · simp only [dif_neg h1, if_neg h2] at h
      exact absurd rfl h
  | setField name value size => exact hfield name value size h
  | setFieldText name text =>
    cases text with
    | none => rfl
    | some text => exact hfield _ _ _ h
  | removeField name =>
    cases name with
    | none => rfl
    | some name =>
      unfold msgAnswer RemoveField at h
      unfold msgStep RemoveField
      by_cases hk : name.1 ∈ Assoc.keys m.aFields
      · simp only [if_pos hk] at h
        exact absurd rfl h
      · simp only [if_neg hk]
  | clear => exact absurd rfl h

theorem setPayload_matches (payload : Option (List UInt8)) (size : UInt32) (m : FacadeMessage) :
    Matches m (.setPayload payload size) := by
  have hnull : (payload.isNone && decide (size ≠ 0)) = true ↔ payload.isNone ∧ size ≠ 0 := by
    rw [Bool.and_eq_true, decide_eq_true_eq]
  unfold Matches msgAnswer msgStep refCall SetPayload
  by_cases h1 : MAX_PAYLOAD < size.toNat
  · simp only [dif_pos h1, if_pos h1, and_self]
  by_cases h2 : payload.isNone ∧ size ≠ 0
  · simp only [dif_neg h1, if_neg h1, if_pos (hnull.mpr h2), if_pos h2, and_self]
  · simp only [dif_neg h1, if_neg h1, if_neg (mt hnull.mp h2), if_neg h2]
    exact ⟨trivial, rfl⟩

theorem removeField_matches (name : Option CWStr) (m : FacadeMessage) : Matches m (.removeField name) := by
  cases name with
  | none => exact ⟨rfl, rfl⟩
  | some name =>
    unfold Matches msgAnswer msgStep refCall RemoveField
    by_cases h : name.1 ∈ Assoc.keys m.aFields
    · have h' : name.1 ∈ m.abs.fields.order := h
      simp only [if_pos h, if_pos h', true_and]
      refine abs_erase rfl ?_
      show m.aFields.eraseP (·.1 == name.1) = m.aFields.eraseP (decide <| ·.1 = name.1)
      congr 1
      funext f
      exact Bool.beq_eq_decide_eq f.1 name.1
    · have h' : ¬ name.1 ∈ m.abs.fields.order := h
      simp only [if_neg h, if_neg h', and_self]

theorem setField_matches (name : Option CWStr) (value : Option (List UInt8)) (size : UInt32) (m : FacadeMessage) :
    Matches m (.setField name value size) := by
  unfold Matches msgAnswer msgStep refCall refField
  rcases setField_spec name value size m with ⟨hr, href, hset⟩ | ⟨href, hok, habs⟩
  · simp only [hset, href, and_self]
  · simp only [href]
    exact ⟨hok, habs⟩

theorem fieldRefusal_failed {r : RefMessage} {name : Option CWStr} {bValue : Bool} {size : Nat} {hr : HRESULT}
    (h : fieldRefusal r name bValue size = some hr) : FAILED hr = true := by
  cases name with
  | none =>
    cases h
    rfl
  | some name =>
    unfold fieldRefusal at h
    repeat' split at h
    all_goals first
      | (cases h; rfl)
      | cases h

/-- A field that is refused is refused just so with a value over the limit. -/
theorem fieldRefusal_over {r : RefMessage} {name : Option CWStr} {size size' : Nat} {hr : HRESULT}
    (h : fieldRefusal r name true size = some hr) (hover : MAX_FIELD_SIZE < size') :
    fieldRefusal r name true size' = some hr := by
  cases name with
  | none => exact h
  | some name =>
    have hnull (n : Nat) : ¬ ((!true) = true ∧ n ≠ 0) := by simp
    have hlimit : MAX_FIELD_NAME < name.1.length ∨ MAX_FIELD_SIZE < size' := Or.inr hover
    unfold fieldRefusal at h ⊢
    by_cases h1 : name.1 = []
    · simpa only [if_pos h1] using h
    by_cases h2 : IsReservedField name.1 = true
    · simpa only [if_neg h1, if_pos h2] using h
    simp only [if_neg h1, if_neg h2, if_neg (hnull _), if_pos hlimit] at h ⊢
    split at h
    · exact h
    split at h
    · exact h
    · cases h

/-- What is not refused, with a value that is given. -/
theorem fieldRefusal_none {m : FacadeMessage} {name : Option CWStr} {size : Nat} :
    fieldRefusal m.abs name true size = none ↔ size ≤ MAX_FIELD_SIZE ∧
      ∃ n, name = some n ∧ n.1 ≠ [] ∧ IsReservedField n.1 = false ∧ n.1.length ≤ MAX_FIELD_NAME ∧
        (n.1 ∈ Assoc.keys m.aFields ∨ m.aFields.length < MAX_FIELDS) := by
  cases name with
  | none => exact iff_of_false nofun (by simp)
  | some name =>
    have hlen : m.abs.fields.order.length = m.aFields.length := List.length_map _
    have hkeys : name.1 ∈ m.abs.fields.order ↔ name.1 ∈ Assoc.keys m.aFields := Iff.rfl
    unfold fieldRefusal
    simp only [hlen, hkeys, Option.some.injEq, exists_eq_left', Bool.not_true, Bool.false_eq_true, false_and, if_false]
    constructor
    · intro h
      split at h
      · cases h
      rename_i h1
      split at h
      · cases h
      rename_i h2
      split at h
      · cases h
      rename_i h3
      split at h
      · cases h
      rename_i h4
      refine ⟨by omega, h1, by simpa using h2, by omega, ?_⟩
      by_cases hk : name.1 ∈ Assoc.keys m.aFields
      · exact Or.inl hk
      · exact Or.inr (Nat.not_le.mp fun hle => h4 ⟨hk, hle⟩)
    · rintro ⟨hsize, h1, h2, h3, h4⟩
      rw [if_neg h1, if_neg (by simp [h2]), if_neg (by omega), if_neg]
      rintro ⟨hk, hle⟩
      exact h4.elim hk (Nat.not_lt.mpr hle)

theorem length_textBytes (text : CWStr) : (textBytes text).length = (text.1.length + 1) * 2 := by
  unfold textBytes
  rw [List.length_flatMap]
  show ((text.1 ++ [0]).map fun _ => 2).sum = _
  rw [List.map_const', List.sum_replicate_nat, List.length_append]
  rfl

theorem setFieldText_eq (name : Option CWStr) (text : CWStr) (m : FacadeMessage) {n : Nat} (hn : (text.1.length + 1) * 2 = n) :
    Matches m (.setFieldText name (some text)) ↔
      (SetField name (some (textBytes text)) (UInt32.ofNat n) m).1 = (refField m.abs name true n (textBytes text)).1 ∧
      (SetField name (some (textBytes text)) (UInt32.ofNat n) m).2.abs = (refField m.abs name true n (textBytes text)).2 := by
  subst hn
  exact Iff.rfl

/-- What SetField does with a text and the size an unsigned int takes it for. -/
theorem setText_spec (name : Option CWStr) (text : CWStr) (n : Nat) (m : FacadeMessage) :
    (∃ hr, fieldRefusal m.abs name true (n % 2 ^ 32) = some hr ∧
      SetField name (some (textBytes text)) (UInt32.ofNat n) m = (hr, m)) ∨
    (fieldRefusal m.abs name true (n % 2 ^ 32) = none ∧ (SetField name (some (textBytes text)) (UInt32.ofNat n) m).1 = S_OK ∧
      (SetField name (some (textBytes text)) (UInt32.ofNat n) m).2.abs =
        m.abs.set name ((textBytes text).take (n % 2 ^ 32))) := by
  have hcast : (UInt32.ofNat n).toNat = n % 2 ^ 32 := UInt32.toNat_ofNat'
  have hspec := setField_spec name (some (textBytes text)) (UInt32.ofNat n) m
  rwa [hcast, Option.isSome_some, Option.getD_some] at hspec

/-- The size is the text's own. -/
theorem setFieldText_small (name : Option CWStr) {text : CWStr} (m : FacadeMessage) (hlt : (text.1.length + 1) * 2 < 2 ^ 32) :
    Matches m (.setFieldText name (some text)) := by
  have hall : (textBytes text).take ((text.1.length + 1) * 2) = textBytes text := by
    rw [← length_textBytes, List.take_length]
  have hspec := setText_spec name text ((text.1.length + 1) * 2) m
  rw [Nat.mod_eq_of_lt hlt, hall] at hspec
  rw [setFieldText_eq name text m rfl]
  unfold refField
  rcases hspec with ⟨hr, href, hset⟩ | ⟨href, hok, habs⟩
  · rw [hset, href]
    exact ⟨rfl, rfl⟩
  · rw [href]
    exact ⟨hok, habs⟩

/-- The size is less than the text's own. -/
theorem setFieldText_big (name : Option CWStr) {text : CWStr} (m : FacadeMessage) (hle : 2 ^ 32 ≤ (text.1.length + 1) * 2) :
    Matches m (.setFieldText name (some text)) ↔ ¬ TextWraps m name (some text) := by
  generalize hn : (text.1.length + 1) * 2 = n at hle
  have hover : MAX_FIELD_SIZE < n := by unfold MAX_FIELD_SIZE; omega
  rw [setFieldText_eq name text m hn]
  unfold refField
  rcases setText_spec name text n m with ⟨hr, href, hset⟩ | ⟨href, hok, -⟩
  · -- refused under the shorter size as well
    rw [hset, fieldRefusal_over href hover]
    refine iff_of_true ⟨rfl, rfl⟩ fun h => ?_
    obtain ⟨t, ht, -, hmod⟩ := h.wraps
    cases ht
    rw [hn] at hmod
    rw [fieldRefusal_none.mpr ⟨hmod, h.named⟩] at href
    cases href
  · obtain ⟨hmod, hnamed⟩ := fieldRefusal_none.mp href
    have hwraps : TextWraps m name (some text) := ⟨⟨text, rfl, by rw [hn]; exact hle, by rw [hn]; exact hmod⟩, hnamed⟩
    refine iff_of_false ?_ (not_not.mpr hwraps)
    rintro ⟨hanswer, -⟩
    cases hrefuse : fieldRefusal m.abs name true n with
    | none => exact absurd (fieldRefusal_none.mp hrefuse).1 (Nat.not_le.mpr hover)
    | some hr =>
      rw [hok, hrefuse] at hanswer
      obtain rfl : S_OK = hr := hanswer
      exact absurd (fieldRefusal_failed hrefuse) (by decide)

theorem setFieldText_matches (name text : Option CWStr) (m : FacadeMessage) :
    Matches m (.setFieldText name text) ↔ ¬ TextWraps m name text := by
  cases text with
  | none => exact iff_of_true ⟨rfl, rfl⟩ fun h => by obtain ⟨t, ht, -⟩ := h.wraps; cases ht
  | some text =>
    by_cases hlt : (text.1.length + 1) * 2 < 2 ^ 32
    · refine iff_of_true (setFieldText_small name m hlt) ?_
      rintro ⟨⟨t, ht, hle, -⟩, -⟩
      cases ht
      exact absurd hle (Nat.not_le.mpr hlt)
    · exact setFieldText_big name m (Nat.not_lt.mp hlt)

theorem call_matches_iff (m : FacadeMessage) (c : MsgCall) : Matches m c ↔ ¬ c.Wraps m := by
  cases c with
  | setPayload payload size => exact iff_of_true (setPayload_matches payload size m) not_false
  | setField name value size => exact iff_of_true (setField_matches name value size m) not_false
  | setFieldText name text => exact setFieldText_matches name text m
  | removeField name => exact iff_of_true (removeField_matches name m) not_false
  | clear => exact iff_of_true ⟨rfl, rfl⟩ not_false

/-! ## What holds of every object -/

structure Limits (m : FacadeMessage) : Prop where
  distinct : (m.aFields.map (·.1)).Nodup
  names : ∀ f ∈ m.aFields, f.1 ≠ [] ∧ f.1.length ≤ 63 ∧ ¬ L "P2PF" <+: f.1
  values : ∀ f ∈ m.aFields, f.2.length ≤ MAX_FIELD_SIZE
  count : m.aFields.length ≤ 64
  payload : m.aPayload.length ≤ MAX_PAYLOAD

theorem message_limits (m : FacadeMessage) : Limits m where
  distinct := m.distinct
  names := fun f hf => by
    have hok := m.each f hf
    refine ⟨hok.named, hok.name, fun hpre => ?_⟩
    have hres : IsReservedField f.1 = true := List.isPrefixOf_iff_prefix.mpr hpre
    rw [hok.unreserved] at hres
    cases hres
  values := fun f hf => (m.each f hf).value
  count := m.fieldsLe
  payload := m.payloadLe

/-- The getters go by the names in order. -/
structure GettersAgree (m : FacadeMessage) : Prop where
  count : ∀ n, m.GetFieldCount (some n) = (S_OK, some (UInt32.ofNat m.abs.fields.order.length))
  /-- The name at an index, and the end of the names. -/
  name : ∀ index : UInt32, ∀ buf cch, m.GetFieldName index buf cch =
    ((m.abs.fields.order[index.toNat]?).map fun k => CopyOut k buf cch).getD (E_INVALIDARG, buf, cch)
  value : ∀ k buf n, m.GetField (some k) buf (some n) =
    ((m.abs.fields.get k.1).map fun v => CopyOutBytes v buf (some n)).getD (.P2PF_E_NO_FIELD, buf, some n)
  /-- A buffer of 64 units takes any name. -/
  same : ∀ k : CWStr, (∃ index cch, m.GetFieldName index (some []) (some 64) = (S_OK, some k.1, cch)) ↔
    ∀ buf n, (m.GetField (some k) buf (some n)).1 ≠ .P2PF_E_NO_FIELD

theorem copyOutBytes_found (value : List UInt8) (buf : Option (List UInt8)) (n : Nat) :
    (CopyOutBytes value buf (some n)).1 ≠ .P2PF_E_NO_FIELD := by
  unfold CopyOutBytes
  cases buf with
  | none => exact HRESULT.noConfusion
  | some bytes =>
    simp only
    split
    · exact HRESULT.noConfusion
    · exact HRESULT.noConfusion

theorem getField_eq (m : FacadeMessage) (k : CWStr) (buf : Option (List UInt8)) (n : Nat) :
    m.GetField (some k) buf (some n) =
      ((m.abs.fields.get k.1).map fun v => CopyOutBytes v buf (some n)).getD (.P2PF_E_NO_FIELD, buf, some n) := by
  have hfind : m.aFields.find? (·.1 == k.1) = m.aFields.find? (decide <| ·.1 = k.1) := by
    congr 1
    funext f
    exact Bool.beq_eq_decide_eq f.1 k.1
  have hget : m.abs.fields.get k.1 = (m.aFields.find? (·.1 == k.1)).map (·.2) := by
    rw [hfind]
    exact InsMap.get_ofEntries m.distinct k.1
  unfold FacadeMessage.GetField
  rw [hget]
  simp only
  cases m.aFields.find? (·.1 == k.1) with
  | none => rfl
  | some f => rfl

theorem getFieldName_eq (m : FacadeMessage) (index : UInt32) (buf : Option WStr) (cch : Option Nat) :
    m.GetFieldName index buf cch =
      ((m.abs.fields.order[index.toNat]?).map fun k => CopyOut k buf cch).getD (E_INVALIDARG, buf, cch) := by
  have horder : m.abs.fields.order = m.aFields.map (·.1) := rfl
  unfold FacadeMessage.GetFieldName
  rw [horder, List.getElem?_map]
  cases m.aFields[index.toNat]? with
  | none => rfl
  | some f => rfl

theorem field_found_iff (m : FacadeMessage) (k : CWStr) :
    (∀ buf n, (m.GetField (some k) buf (some n)).1 ≠ .P2PF_E_NO_FIELD) ↔ k.1 ∈ m.abs.fields.order := by
  rw [m.abs.fields.dom]
  constructor
  · intro h
    have hone := h none 0
    rw [getField_eq] at hone
    cases hget : m.abs.fields.get k.1 with
    | none =>
      rw [hget] at hone
      exact absurd rfl hone
    | some v => rfl
  · intro h buf n
    obtain ⟨v, hv⟩ := Option.isSome_iff_exists.mp h
    rw [getField_eq, hv]
    exact copyOutBytes_found v buf n

theorem name_found {m : FacadeMessage} {k : CWStr} {index : UInt32} {cch : Option Nat}
    (h : m.GetFieldName index (some []) (some 64) = (S_OK, some k.1, cch)) : k.1 ∈ m.abs.fields.order := by
  rw [getFieldName_eq] at h
  cases hname : m.abs.fields.order[index.toNat]? with
  | none =>
    rw [hname] at h
    cases h
  | some name =>
    rw [hname] at h
    have hcopy : CopyOut name (some []) (some 64) = (S_OK, some k.1, cch) := h
    have heq : k.1 = name := copyOut_text rfl (by rw [hcopy]) (by rw [hcopy])
    exact heq ▸ List.mem_of_getElem? hname

/-- The longest name fits a buffer of 64 characters. -/
theorem name_given {m : FacadeMessage} {k : CWStr} (hk : k.1 ∈ m.abs.fields.order) :
    ∃ index, m.GetFieldName index (some []) (some 64) = (S_OK, some k.1, some (k.1.length + 1)) := by
  obtain ⟨i, hi⟩ := List.mem_iff_getElem?.mp hk
  have hlt : i < m.abs.fields.order.length := (List.getElem?_eq_some_iff.mp hi).1
  have hlen : m.abs.fields.order.length = m.aFields.length := List.length_map _
  have hle : m.aFields.length ≤ 64 := m.fieldsLe
  have hindex : (UInt32.ofNat i).toNat = i := by
    rw [UInt32.toNat_ofNat']
    omega
  obtain ⟨f, hf, hfk⟩ := List.mem_map.mp (show k.1 ∈ m.aFields.map (·.1) from hk)
  have hshort : ¬ 64 < k.1.length + 1 := by
    have hname := (m.each f hf).name
    rw [hfk] at hname
    unfold MAX_FIELD_NAME at hname
    omega
  refine ⟨UInt32.ofNat i, ?_⟩
  rw [getFieldName_eq, hindex, hi]
  show CopyOut k.1 (some []) (some 64) = _
  unfold CopyOut
  simp only [if_neg hshort]

/-- A name is found by its index exactly when a field is found by the name. -/
theorem names_agree (m : FacadeMessage) (k : CWStr) :
    (∃ index cch, m.GetFieldName index (some []) (some 64) = (S_OK, some k.1, cch)) ↔
      ∀ buf n, (m.GetField (some k) buf (some n)).1 ≠ .P2PF_E_NO_FIELD := by
  rw [field_found_iff]
  constructor
  · rintro ⟨index, cch, h⟩
    exact name_found h
  · intro hk
    obtain ⟨index, h⟩ := name_given hk
    exact ⟨index, _, h⟩

theorem getters_agree (m : FacadeMessage) : GettersAgree m where
  count := fun n => by
    have hlen : m.abs.fields.order.length = m.aFields.length := List.length_map _
    rw [hlen]
    rfl
  name := getFieldName_eq m
  value := getField_eq m
  same := names_agree m

/-! ## Runs -/

/-- The object and the reference side by side, and whether their answers have been the same. -/
structure BothMaps where
  m : FacadeMessage
  r : RefMessage
  bSame : Bool

def bothStep (s : BothMaps) (c : MsgCall) : BothMaps :=
  ⟨msgStep s.m c, (refCall s.r c).2, s.bSame && msgAnswer s.m c == (refCall s.r c).1⟩

def bothEmpty : BothMaps := ⟨.Clear, .empty, true⟩

/-- What the message object owes the run that has led to it. -/
structure AsMap (s : BothMaps) : Prop where
  state : s.m.abs = s.r
  answers : s.bSame = true
  limits : Limits s.m
  kept : ∀ c, msgAnswer s.m c ≠ S_OK → msgStep s.m c = s.m
  getters : GettersAgree s.m

theorem bothStep_asMap {s : BothMaps} {c : MsgCall} (hs : AsMap s) : AsMap (bothStep s c) ↔ ¬ c.Wraps s.m := by
  have hr : s.r = s.m.abs := hs.state.symm
  rw [← call_matches_iff]
  constructor
  · intro h
    have hanswers := h.answers
    unfold bothStep at hanswers
    rw [hs.answers, Bool.true_and, hr, beq_iff_eq] at hanswers
    refine ⟨hanswers, ?_⟩
    rw [← hr]
    exact h.state
  · intro h
    refine ⟨?_, ?_, message_limits _, fun _ => call_kept, getters_agree _⟩
    · show (msgStep s.m c).abs = (refCall s.r c).2
      rw [hr, h.2]
    · unfold bothStep
      rw [hs.answers, hr, h.1]
      simp

theorem asMap_empty : AsMap bothEmpty := ⟨rfl, rfl, message_limits _, fun _ => call_kept, getters_agree _⟩

/-- The object is the reference map, in every state of a run, exactly when no call of it sets a
    field that is in order from a text whose size wraps round into the limit. -/
theorem message_iff (calls : List MsgCall) :
    Always bothStep AsMap bothEmpty calls ↔ Each bothStep (fun s c => ¬ c.Wraps s.m) bothEmpty calls :=
  always_iff_each (fun _ _ hs => bothStep_asMap hs) calls asMap_empty

def letters (n : Nat) : CWStr := ⟨List.replicate n 97, fun h => absurd (List.eq_of_mem_replicate h) (by decide)⟩

/-- 2^31 - 1 characters are an empty field. -/
theorem message_wraps :
    ¬ Always bothStep AsMap bothEmpty [.setFieldText (some ⟨L "k", by decide⟩) (some (letters 2147483647))] := by
  intro h
  have hone := (bothStep_asMap asMap_empty).mp h.last
  have hlen : (letters 2147483647).1.length = 2147483647 := List.length_replicate
  refine hone ⟨⟨_, rfl, ?_, ?_⟩, _, rfl, by decide, by decide, by decide, Or.inr (by decide)⟩
  · rw [hlen]
    decide
  · rw [hlen]
    decide

end TargetFacade
