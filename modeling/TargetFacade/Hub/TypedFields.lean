/-
  TargetFacade.Hub.TypedFields — the fields of a message as typed values
  (TargetFacadeFn.hpp: FieldRef, Message::has, field and fieldText).

  Each type has a writer that puts its bytes under a name and a reader that asks for just as
  many. Text is put by two writers, with a terminator, and read by two readers that each take
  one off: a text may hold NULs, and end in some.

  - `reads_back`: a value's bytes, held under a name by a message or by what its receiver gets,
    are read back as the value.
  - `typed_fields`: so for each value of each type, with what the readers of another width
    throw (`TypedLaw`).
  - `assign_elsewhere`: and a value put under one name leaves what is read under the others.
-/

import TargetFacade.Hub.MessageMap
import TargetFacade.Hub.FieldNames

namespace TargetFacade

open Words

/-! ## Values and their bytes -/

/-- Seconds since 1970. -/
structure Time where
  m_seconds : Int64
  deriving DecidableEq, Repr

/-- A type of one width: its bytes, and what its reader throws over other bytes. -/
structure FixedField (α : Type) where
  width : Nat
  what : String
  enc : α → List UInt8
  dec : List UInt8 → α
  length_enc : ∀ v, (enc v).length = width
  dec_enc : ∀ v, dec (enc v) = v

def bitsBytes {n : Nat} (w : Nat) (x : BitVec n) : List UInt8 := leBytes w x.toNat

def bytesBits (n : Nat) (b : List UInt8) : BitVec n := BitVec.ofNat n (leNat b)

theorem bytesBits_bytes {n w : Nat} (h : 256 ^ w = 2 ^ n) (x : BitVec n) : bytesBits n (bitsBytes w x) = x := by
  apply BitVec.eq_of_toNat_eq
  rw [bytesBits, bitsBytes, leNat_leBytes, BitVec.toNat_ofNat, h, Nat.mod_mod, Nat.mod_eq_of_lt x.isLt]

def shortField : FixedField Int16 where
  width := 2
  what := "the field is not a short"
  enc v := bitsBytes 2 v.toBitVec
  dec b := ⟨⟨bytesBits 16 b⟩⟩
  length_enc _ := length_leBytes 2 _
  dec_enc v := by
    rw [bytesBits_bytes (by decide)]
    rfl

def timeField : FixedField Time where
  width := 8
  what := "the field is not a time"
  enc v := bitsBytes 8 v.m_seconds.toBitVec
  dec b := ⟨⟨⟨bytesBits 64 b⟩⟩⟩
  length_enc _ := length_leBytes 8 _
  dec_enc v := by
    rw [bytesBits_bytes (by decide)]
    rfl

def intField : FixedField Int32 where
  width := 4
  what := "the field is not an int"
  enc v := bitsBytes 4 v.toBitVec
  dec b := ⟨⟨bytesBits 32 b⟩⟩
  length_enc _ := length_leBytes 4 _
  dec_enc v := by
    rw [bytesBits_bytes (by decide)]
    rfl

def int64Field : FixedField Int64 where
  width := 8
  what := "the field is not a 64-bit int"
  enc v := bitsBytes 8 v.toBitVec
  dec b := ⟨⟨bytesBits 64 b⟩⟩
  length_enc _ := length_leBytes 8 _
  dec_enc v := by
    rw [bytesBits_bytes (by decide)]
    rfl

/-- A double is its 64 bits. -/
def realField : FixedField (BitVec 64) where
  width := 8
  what := "the field is not a double"
  enc v := bitsBytes 8 v
  dec b := bytesBits 64 b
  length_enc _ := length_leBytes 8 _
  dec_enc v := bytesBits_bytes (by decide) v

def boolField : FixedField Bool where
  width := 1
  what := "the field is not a bool"
  enc v := [if v then 1 else 0]
  dec b := b.headD 0 != 0
  length_enc _ := rfl
  dec_enc v := by cases v <;> rfl

/-! ## FieldRef -/

/-- E_ACCESSDENIED is thrown by the wrapper only. -/
inductive FieldHr where
  | hr (hr : HRESULT)
  | E_ACCESSDENIED
  deriving DecidableEq, Repr

structure FieldError where
  hr : FieldHr
  what : String
  deriving DecidableEq, Repr

/-- What a FieldRef is bound to: `m_out`, or `m_hub` with the message it is delivering, or neither. -/
inductive FieldOwner where
  | unbound
  | out (m_out : FacadeMessage)
  | hub (pMsg : Option ItemTree)

def check (hr : HRESULT) (what : String) : Except FieldError Unit :=
  if FAILED hr then .error ⟨.hr hr, what⟩ else .ok ()

def FieldOwner.writable : FieldOwner → Except FieldError FacadeMessage
  | .out m => .ok m
  | .hub _ => .error ⟨.E_ACCESSDENIED, "a received message's fields are read-only"⟩
  | .unbound => .error ⟨.E_ACCESSDENIED, "the field belongs to a view that was never bound"⟩

/-- `pv` is none when it is NULL. The owner is as it stands after the call. -/
def FieldOwner.put (o : FieldOwner) (m_name : CWStr) (pv : Option (List UInt8)) (cb : Nat) : Except FieldError FieldOwner := do
  let m ← o.writable
  let (hr, m) := SetField (some m_name) pv (UInt32.ofNat cb) m
  check hr "SetField refused the field"
  return .out m

def FieldOwner.putFixed {α : Type} (F : FixedField α) (o : FieldOwner) (m_name : CWStr) (v : α) : Except FieldError FieldOwner :=
  o.put m_name (some (F.enc v)) F.width

/-- `operator=`, an overload a type. -/
inductive FieldValue where
  | short (v : Int16)
  | time (v : Time)
  | int (v : Int32)
  | int64 (v : Int64)
  | real (v : BitVec 64)
  | bool (v : Bool)
  /-- `const wchar_t*`, none when it is NULL. -/
  | wide (v : Option CWStr)
  | text (v : WStr)
  | blob (v : List UInt8)
  deriving DecidableEq

def FieldOwner.assign (o : FieldOwner) (m_name : CWStr) : FieldValue → Except FieldError FieldOwner
  | .short v => o.putFixed shortField m_name v
  | .time v => o.putFixed timeField m_name v
  | .int v => o.putFixed intField m_name v
  | .int64 v => o.putFixed int64Field m_name v
  | .real v => o.putFixed realField m_name v
  | .bool v => o.putFixed boolField m_name v
  | .wide v => do
    let m ← o.writable
    let (hr, m) := SetFieldText (some m_name) (some (v.getD ⟨[], by simp⟩)) m
    check hr "SetFieldText refused the field"
    return .out m
  | .text v =>
    let b := u16le.write (v ++ [0])
    o.put m_name (some b) b.length
  | .blob v => o.put m_name (if v.isEmpty then none else some v) v.length

def FieldOwner.GetField (o : FieldOwner) (m_name : CWStr) (buf : Option (List UInt8)) (size : Option Nat) :
    HRESULT × Option (List UInt8) × Option Nat :=
  match o with
  | .unbound => (E_POINTER, buf, size)
  | .out m => m.GetField (some m_name) buf size
  | .hub pMsg => TargetFacade.GetField pMsg (some m_name.1) buf size

def FieldOwner.readable : FieldOwner → Except FieldError Unit
  | .unbound => .error ⟨.hr E_POINTER, "the field belongs to a view that was never bound"⟩
  | _ => .ok ()

/-- The size, and then as many bytes. -/
def FieldOwner.get (o : FieldOwner) (m_name : CWStr) : Except FieldError (List UInt8) := do
  o.readable
  let (hr, _, cb) := o.GetField m_name none (some 0)
  check hr "the field could not be read"
  let cb := cb.getD 0
  let b := List.replicate cb 0
  if cb = 0 then return b
  let (hr, b, cb) := o.GetField m_name (some b) (some cb)
  check hr "the field could not be read"
  -- `resize`
  return ((b.getD []) ++ List.replicate (cb.getD 0) 0).take (cb.getD 0)

def FieldOwner.exact (o : FieldOwner) (m_name : CWStr) (cb : Nat) (what : String) : Except FieldError (List UInt8) := do
  let b ← o.get m_name
  if b.length ≠ cb then throw ⟨.hr E_INVALIDARG, what⟩
  return b.take cb

def FieldOwner.asFixed {α : Type} (F : FixedField α) (o : FieldOwner) (m_name : CWStr) : Except FieldError α :=
  (o.exact m_name F.width F.what).map F.dec

def FieldOwner.asShort := FieldOwner.asFixed shortField
def FieldOwner.asTime := FieldOwner.asFixed timeField
def FieldOwner.asInt := FieldOwner.asFixed intField
def FieldOwner.asInt64 := FieldOwner.asFixed int64Field
def FieldOwner.asReal := FieldOwner.asFixed realField
def FieldOwner.asBool := FieldOwner.asFixed boolField

def FieldOwner.asText (o : FieldOwner) (m_name : CWStr) : Except FieldError WStr := do
  let b ← o.get m_name
  if b.length % 2 ≠ 0 then throw ⟨.hr E_INVALIDARG, "the field is not text: an odd number of bytes"⟩
  let n := b.length / 2
  let n := if n ≠ 0 ∧ b[b.length - 1]? = some 0 ∧ b[b.length - 2]? = some 0 then n - 1 else n
  return u16le.read n b

def FieldOwner.asBlob (o : FieldOwner) (m_name : CWStr) : Except FieldError (List UInt8) := o.get m_name

def FieldOwner.exists (o : FieldOwner) (m_name : CWStr) : Bool := !FAILED (o.GetField m_name none (some 0)).1

/-! ## The message in a handler -/

/-- A Message of a handler: its hub, if it has one, with what that is delivering. -/
structure HandlerMessage where
  hub : Option (Option ItemTree)

namespace HandlerMessage

/-- `operator[]`. -/
def ref (m : HandlerMessage) : FieldOwner := (m.hub.map FieldOwner.hub).getD .unbound

def has (m : HandlerMessage) (name : CWStr) : Bool :=
  match m.hub with
  | none => false
  | some pMsg => !FAILED (GetField pMsg (some name.1) none (some 0)).1

def field (m : HandlerMessage) (name : CWStr) : List UInt8 :=
  match m.hub with
  | none => []
  | some pMsg =>
    let (hr, _, cb) := GetField pMsg (some name.1) none (some 0)
    if FAILED hr || cb.getD 0 == 0 then []
    else
      let (hr, out, _) := GetField pMsg (some name.1) (some (List.replicate (cb.getD 0) 0)) cb
      if FAILED hr then [] else out.getD []

def fieldText (m : HandlerMessage) (name : CWStr) : WStr :=
  let v := m.field name
  if v.length < 2 then [] else u16le.read (v.length / 2 - 1) v

end HandlerMessage

/-! ## The law -/

def FieldValue.bytes : FieldValue → List UInt8
  | .short v => shortField.enc v
  | .time v => timeField.enc v
  | .int v => intField.enc v
  | .int64 v => int64Field.enc v
  | .real v => realField.enc v
  | .bool v => boolField.enc v
  | .wide v => textBytes (v.getD ⟨[], by simp⟩)
  | .text v => u16le.write (v ++ [0])
  | .blob v => v

def FieldValue.text? : FieldValue → Option WStr
  | .wide v => some (v.getD ⟨[], by simp⟩).1
  | .text v => some v
  | _ => none

/-- The reader of the value's type gives the value. -/
def FieldValue.ReadFrom (o : FieldOwner) (name : CWStr) : FieldValue → Prop
  | .short v => o.asShort name = .ok v
  | .time v => o.asTime name = .ok v
  | .int v => o.asInt name = .ok v
  | .int64 v => o.asInt64 name = .ok v
  | .real v => o.asReal name = .ok v
  | .bool v => o.asBool name = .ok v
  | .wide v => o.asText name = .ok (v.getD ⟨[], by simp⟩).1
  | .text v => o.asText name = .ok v
  | .blob v => o.asBlob name = .ok v

structure ReadsBack (o : FieldOwner) (name : CWStr) (v : FieldValue) : Prop where
  value : v.ReadFrom o name
  /-- The readers of another width throw. -/
  widths : ∀ (α : Type) (F : FixedField α), v.bytes.length ≠ F.width → o.asFixed F name = .error ⟨.hr E_INVALIDARG, F.what⟩

/-- The readers of the message in a handler. -/
structure ReadsInHandler (m : HandlerMessage) (name : CWStr) (v : FieldValue) : Prop where
  has : m.has name = true
  field : m.field name = v.bytes
  text : ∀ t, v.text? = some t → m.fieldText name = t ∧ m.ref.asText name = .ok t

/-- A message has room for a field of that name. -/
structure FacadeMessage.Takes (m : FacadeMessage) (name : CWStr) : Prop where
  named : name.1 ≠ []
  unreserved : IsReservedField name.1 = false
  short : name.1.length ≤ MAX_FIELD_NAME
  room : name.1 ∈ Assoc.keys m.aFields ∨ m.aFields.length < MAX_FIELDS

/-- A copy of the message that one of the two senders posts. -/
def FacadeMessage.Posts (m : FacadeMessage) (p : PostedMsg) : Prop :=
  (∃ env dest topic priority tag flags, p ∈ (SendMsg env dest topic (some m) priority tag flags).2) ∨
  (∃ uWord env peers topic priority tag flags,
    p ∈ (BroadcastMsg uWord env peers (some topic) (some m) priority tag flags).2)

structure TypedLaw (m : FacadeMessage) (name : CWStr) (v : FieldValue) : Prop where
  taken : (∃ o, FieldOwner.assign (.out m) name v = .ok o) ↔ m.Takes name ∧ v.bytes.length ≤ MAX_FIELD_SIZE
  message : ∀ o, FieldOwner.assign (.out m) name v = .ok o → ReadsBack o name v
  receiver : ∀ m', FieldOwner.assign (.out m) name v = .ok (.out m') → ∀ p, m'.Posts p →
    ReadsBack (HandlerMessage.ref ⟨some (some p.tree)⟩) name v ∧ ReadsInHandler ⟨some (some p.tree)⟩ name v

/-! ## Reading what is held -/

/-- The owner has the bytes under the name. -/
def FieldOwner.Holds (o : FieldOwner) (name : CWStr) (b : List UInt8) : Prop :=
  ∀ buf n, o.GetField name buf (some n) = CopyOutBytes b buf (some n)

theorem copyOutBytes_size (b : List UInt8) (n : Nat) : CopyOutBytes b none (some n) = (S_OK, none, some b.length) := rfl

theorem copyOutBytes_filled (b old : List UInt8) : CopyOutBytes b (some old) (some b.length) = (S_OK, some b, some b.length) := by
  unfold CopyOutBytes
  simp only [Nat.lt_irrefl, if_false]

theorem get_held {o : FieldOwner} {name : CWStr} {b : List UInt8} (h : o.Holds name b) : o.get name = .ok b := by
  have hsize := h none 0
  have hfill := h (some (List.replicate b.length 0)) b.length
  rw [copyOutBytes_size] at hsize
  rw [copyOutBytes_filled] at hfill
  have hread : o.readable = .ok () := by
    cases o with
    | unbound => cases hsize
    | out m => rfl
    | hub pMsg => rfl
  unfold FieldOwner.get
  rw [hread, hsize]
  by_cases hb : b.length = 0
  · obtain rfl := List.length_eq_zero_iff.mp hb
    rfl
  · have hok : check S_OK "the field could not be read" = .ok () := rfl
    simp only [hok, Option.getD_some, hb, if_false, hfill]
    show Except.ok ((b ++ List.replicate b.length 0).take b.length) = _
    rw [List.take_left]

theorem exact_held {o : FieldOwner} {name : CWStr} {b : List UInt8} (h : o.Holds name b) (cb : Nat) (what : String) :
    o.exact name cb what = if b.length = cb then .ok b else .error ⟨.hr E_INVALIDARG, what⟩ := by
  unfold FieldOwner.exact
  rw [get_held h]
  by_cases hb : b.length = cb
  · subst hb
    rw [if_pos rfl]
    show (if b.length ≠ b.length then _ else Except.ok (b.take b.length)) = _
    rw [if_neg (by simp), List.take_length]
  · rw [if_neg hb]
    show (if b.length ≠ cb then _ else _) = _
    rw [if_pos hb]
    rfl

theorem asFixed_held {α : Type} (F : FixedField α) {o : FieldOwner} {name : CWStr} {v : α} (h : o.Holds name (F.enc v)) :
    o.asFixed F name = .ok v := by
  unfold FieldOwner.asFixed
  rw [exact_held h, if_pos (F.length_enc v)]
  show Except.ok (F.dec (F.enc v)) = _
  rw [F.dec_enc]

theorem asFixed_other {α : Type} (F : FixedField α) {o : FieldOwner} {name : CWStr} {b : List UInt8} (h : o.Holds name b)
    (hw : b.length ≠ F.width) : o.asFixed F name = .error ⟨.hr E_INVALIDARG, F.what⟩ := by
  unfold FieldOwner.asFixed
  rw [exact_held h, if_neg hw]
  rfl

theorem length_text (v : WStr) : (u16le.write (v ++ [0])).length = (v.length + 1) * 2 := by
  rw [length_write, List.length_append]
  rfl

/-- The text before the terminator, whatever it holds. -/
theorem read_text (v : WStr) : u16le.read v.length (u16le.write (v ++ [0])) = v := by
  have hsplit : u16le.write (v ++ [0]) = u16le.write v ++ u16le.write [0] := List.flatMap_append
  rw [hsplit, read_write]

theorem text_ends (v : WStr) : (u16le.write (v ++ [0]))[(v.length + 1) * 2 - 1]? = some 0 ∧
    (u16le.write (v ++ [0]))[(v.length + 1) * 2 - 2]? = some 0 := by
  have hsplit : u16le.write (v ++ [0]) = u16le.write v ++ [0, 0] := List.flatMap_append
  have hlen : (u16le.write v).length = v.length * 2 := length_write u16le v
  rw [hsplit]
  constructor
  · rw [List.getElem?_append_right (by omega)]
    have hindex : (v.length + 1) * 2 - 1 - (u16le.write v).length = 1 := by omega
    rw [hindex]
    rfl
  · rw [List.getElem?_append_right (by omega)]
    have hindex : (v.length + 1) * 2 - 2 - (u16le.write v).length = 0 := by omega
    rw [hindex]
    rfl

/-- One terminator is taken off, and no NUL of the text's own. -/
theorem asText_held {o : FieldOwner} {name : CWStr} {v : WStr} (h : o.Holds name (u16le.write (v ++ [0]))) :
    o.asText name = .ok v := by
  unfold FieldOwner.asText
  rw [get_held h]
  have hlen := length_text v
  have hends := text_ends v
  have heven : ¬ (v.length + 1) * 2 % 2 ≠ 0 := by omega
  have hhalf : (v.length + 1) * 2 / 2 = v.length + 1 := by omega
  have hterm : v.length + 1 ≠ 0 ∧ (u16le.write (v ++ [0]))[(v.length + 1) * 2 - 1]? = some 0 ∧
      (u16le.write (v ++ [0]))[(v.length + 1) * 2 - 2]? = some 0 := ⟨by omega, hends⟩
  show (if (u16le.write (v ++ [0])).length % 2 ≠ 0 then _ else _) = _
  rw [hlen, if_neg heven]
  simp only [hhalf, if_pos hterm, Nat.add_sub_cancel, read_text]
  rfl

theorem reads_back {o : FieldOwner} {name : CWStr} {v : FieldValue} (h : o.Holds name v.bytes) : ReadsBack o name v := by
  refine ⟨?_, fun α F hw => asFixed_other F h hw⟩
  cases v with
  | short v => exact asFixed_held shortField h
  | time v => exact asFixed_held timeField h
  | int v => exact asFixed_held intField h
  | int64 v => exact asFixed_held int64Field h
  | real v => exact asFixed_held realField h
  | bool v => exact asFixed_held boolField h
  | wide v => exact asText_held h
  | text v => exact asText_held h
  | blob v => exact get_held h

theorem field_held {pMsg : Option ItemTree} {name : CWStr} {b : List UInt8} (h : (FieldOwner.hub pMsg).Holds name b) :
    HandlerMessage.field ⟨some pMsg⟩ name = b := by
  have hsize : GetField pMsg (some name.1) none (some 0) = _ := (h none 0).trans (copyOutBytes_size b 0)
  have hfill : GetField pMsg (some name.1) (some (List.replicate b.length 0)) (some b.length) = _ :=
    (h _ _).trans (copyOutBytes_filled b _)
  unfold HandlerMessage.field
  simp only [hsize, failed_S_OK, Bool.false_or, Option.getD_some, hfill]
  by_cases hb : b.length = 0
  · obtain rfl := List.length_eq_zero_iff.mp hb
    rfl
  · have hb' : (b.length == 0) = false := by simpa using hb
    simp only [hb', Bool.false_eq_true, if_false]

theorem fieldText_held {pMsg : Option ItemTree} {name : CWStr} {v : WStr}
    (h : (FieldOwner.hub pMsg).Holds name (u16le.write (v ++ [0]))) : HandlerMessage.fieldText ⟨some pMsg⟩ name = v := by
  unfold HandlerMessage.fieldText
  rw [field_held h]
  have hlen := length_text v
  have hlong : ¬ (v.length + 1) * 2 < 2 := by omega
  have hunits : (v.length + 1) * 2 / 2 - 1 = v.length := by omega
  simp only [hlen, if_neg hlong, hunits, read_text]

theorem reads_in_handler {pMsg : Option ItemTree} {name : CWStr} {v : FieldValue}
    (h : (FieldOwner.hub pMsg).Holds name v.bytes) : ReadsInHandler ⟨some pMsg⟩ name v := by
  refine ⟨?_, field_held h, fun t ht => ?_⟩
  · have hsize : GetField pMsg (some name.1) none (some 0) = _ := (h none 0).trans (copyOutBytes_size v.bytes 0)
    simp only [HandlerMessage.has, hsize]
    rfl
  · have hbytes : v.bytes = u16le.write (t ++ [0]) := by
      cases v with
      | wide v => cases ht; rfl
      | text v => cases ht; rfl
      | _ => cases ht
    rw [hbytes] at h
    exact ⟨fieldText_held h, asText_held h⟩

/-! ## What a message and its receiver hold -/

theorem message_holds {m : FacadeMessage} {name : CWStr} {b : List UInt8} (h : m.abs.fields.get name.1 = some b) :
    (FieldOwner.out m).Holds name b := by
  intro buf n
  have hget := getField_eq m name buf n
  rw [h] at hget
  exact hget

/-- A receiver's GetField is the message's own. -/
theorem receiver_getField (m : FacadeMessage) (k : CWStr) (buf : Option (List UInt8)) (n : Nat) :
    GetField (some (declareFields (some m.aFields))) (some k.1) buf (some n) = m.GetField (some k) buf (some n) := by
  rw [getField_eq]
  have hget : m.abs.fields.get k.1 = m.aFields.lookup k.1 := by
    show @List.lookup _ _ instBEqOfDecidableEq k.1 m.aFields = _
    rw [lawful_beq_subsingleton instBEqOfDecidableEq (List.instBEq : BEq WStr)]
  have hitems := items_declared m
  rw [hget]
  unfold declareFields GetField
  by_cases he : m.aFields = []
  · simp only [he, List.isEmpty_nil, if_true, Option.isNone_some, Bool.or_self, Bool.false_eq_true, if_false]
    rfl
  · have he' : m.aFields.isEmpty = false := by simpa using he
    simp only [he', hitems, Bool.false_eq_true, if_false, Option.isNone_some, Bool.or_self, Option.bind_some, Option.getD_some]
    cases m.aFields.lookup k.1 with
    | none => rfl
    | some b => rfl

theorem posted_tree {m : FacadeMessage} {p : PostedMsg} (h : m.Posts p) : p.tree = declareFields (some m.aFields) := by
  rcases h with ⟨env, dest, topic, priority, tag, flags, h⟩ | ⟨uWord, env, peers, topic, priority, tag, flags, h⟩
  · exact tree_posted (mem_sendMsg h).2.2
  · exact tree_posted (mem_broadcastMsg h).2.2.2

theorem receiver_holds {m : FacadeMessage} {p : PostedMsg} (hp : m.Posts p) {name : CWStr} {b : List UInt8}
    (h : m.abs.fields.get name.1 = some b) : (FieldOwner.hub (some p.tree)).Holds name b := by
  intro buf n
  rw [posted_tree hp]
  exact (receiver_getField m name buf n).trans (message_holds h buf n)

/-! ## Assigning -/

theorem takes_iff {m : FacadeMessage} {name : CWStr} {bValue : Bool} {size : Nat} (hnull : bValue = false → size = 0) :
    m.Takes name ∧ size ≤ MAX_FIELD_SIZE ↔ fieldRefusal m.abs (some name) bValue size = none := by
  have hsame : fieldRefusal m.abs (some name) bValue size = fieldRefusal m.abs (some name) true size := by
    cases bValue with
    | true => rfl
    | false => simp [fieldRefusal, hnull rfl]
  rw [hsame, fieldRefusal_none]
  constructor
  · rintro ⟨h, hle⟩
    exact ⟨hle, name, rfl, h.named, h.unreserved, h.short, h.room⟩
  · rintro ⟨hle, n, hn, h1, h2, h3, h4⟩
    obtain rfl := Option.some.inj hn
    exact ⟨⟨h1, h2, h3, h4⟩, hle⟩

/-- SetField of as many bytes as it is told. -/
theorem setField_takes (m : FacadeMessage) (name : CWStr) {pv : Option (List UInt8)} {cb : Nat} (hcb : (pv.getD []).length = cb)
    (hlt : cb < 2 ^ 32) :
    ((m.Takes name ∧ cb ≤ MAX_FIELD_SIZE) ∧ (SetField (some name) pv (UInt32.ofNat cb) m).1 = S_OK ∧
      (SetField (some name) pv (UInt32.ofNat cb) m).2.abs = m.abs.set (some name) (pv.getD [])) ∨
    (¬ (m.Takes name ∧ cb ≤ MAX_FIELD_SIZE) ∧ FAILED (SetField (some name) pv (UInt32.ofNat cb) m).1 = true) := by
  have hcast : (UInt32.ofNat cb).toNat = cb := by
    rw [UInt32.toNat_ofNat']
    omega
  have hnull : pv.isSome = false → cb = 0 := by
    intro h
    cases pv with
    | none => exact hcb.symm
    | some b => cases h
  have htakes := @takes_iff m name _ _ hnull
  have hspec := setField_spec (some name) pv (UInt32.ofNat cb) m
  rw [hcast] at hspec
  rcases hspec with ⟨hr, href, hset⟩ | ⟨href, hok, habs⟩
  · refine Or.inr ⟨fun h => ?_, ?_⟩
    · rw [htakes.mp h] at href
      cases href
    · rw [hset]
      exact fieldRefusal_failed href
  · refine Or.inl ⟨htakes.mpr href, hok, ?_⟩
    rw [habs, ← hcb, List.take_length]

/-- A value is put, or something is thrown; which goes by the name and the size. -/
def Assigned (m : FacadeMessage) (name : CWStr) (b : List UInt8) (r : Except FieldError FieldOwner) : Prop :=
  ((m.Takes name ∧ b.length ≤ MAX_FIELD_SIZE) ∧ ∃ m', r = .ok (.out m') ∧ m'.abs = m.abs.set (some name) b) ∨
  (¬ (m.Takes name ∧ b.length ≤ MAX_FIELD_SIZE) ∧ ∃ e, r = .error e)

/-- The two ways a field is written, from SetField's answer on. -/
theorem assigned_check (m : FacadeMessage) (name : CWStr) {pv : Option (List UInt8)} {cb : Nat}
    (hcb : (pv.getD []).length = cb) (hlt : cb < 2 ^ 32) (what : String) :
    Assigned m name (pv.getD []) (do
      check (SetField (some name) pv (UInt32.ofNat cb) m).1 what
      return .out (SetField (some name) pv (UInt32.ofNat cb) m).2) := by
  unfold Assigned
  rw [hcb]
  rcases setField_takes m name hcb hlt with ⟨htakes, hok, habs⟩ | ⟨htakes, hfail⟩
  · refine Or.inl ⟨htakes, _, ?_, habs⟩
    rw [hok]
    rfl
  · refine Or.inr ⟨htakes, ⟨.hr (SetField (some name) pv (UInt32.ofNat cb) m).1, what⟩, ?_⟩
    unfold check
    rw [hfail]
    rfl

theorem assigned_fixed {α : Type} (F : FixedField α) (m : FacadeMessage) (name : CWStr) {v : α} (hlt : (F.enc v).length < 2 ^ 32) :
    Assigned m name (F.enc v) (FieldOwner.putFixed F (.out m) name v) := by
  have hcb : ((some (F.enc v)).getD []).length = F.width := F.length_enc v
  exact assigned_check m name hcb (by rw [← F.length_enc v]; exact hlt) _

theorem assigned {m : FacadeMessage} {name : CWStr} {v : FieldValue} (hlt : v.bytes.length < 2 ^ 32) :
    Assigned m name v.bytes (FieldOwner.assign (.out m) name v) := by
  cases v with
  | short v => exact assigned_fixed shortField m name hlt
  | time v => exact assigned_fixed timeField m name hlt
  | int v => exact assigned_fixed intField m name hlt
  | int64 v => exact assigned_fixed int64Field m name hlt
  | real v => exact assigned_fixed realField m name hlt
  | bool v => exact assigned_fixed boolField m name hlt
  | wide v =>
    have hlen := length_textBytes (v.getD ⟨[], by simp⟩)
    exact @assigned_check m name (some (textBytes _)) _ hlen (hlen ▸ hlt) _
  | text v => exact @assigned_check m name (some (u16le.write (v ++ [0]))) _ rfl hlt _
  | blob v =>
    have hdata : (if v.isEmpty then none else some v : Option (List UInt8)).getD [] = v := by
      cases v <;> rfl
    have h := assigned_check m name (congrArg List.length hdata) hlt "SetField refused the field"
    rw [hdata] at h
    exact h

theorem get_set {m m' : FacadeMessage} {name : CWStr} {b : List UInt8} (h : m'.abs = m.abs.set (some name) b) :
    m'.abs.fields.get name.1 = some b := by
  rw [h]
  exact Function.update_self ..

theorem get_set_other {m m' : FacadeMessage} {name k : CWStr} {b : List UInt8} (h : m'.abs = m.abs.set (some name) b) (hk : k ≠ name) :
    m'.abs.fields.get k.1 = m.abs.fields.get k.1 := by
  rw [h]
  exact Function.update_of_ne (fun he => hk (Subtype.ext he)) ..

/-- A value put under one name leaves what is read under the others. -/
theorem assign_elsewhere {m m' : FacadeMessage} {name k : CWStr} {v : FieldValue} (hlt : v.bytes.length < 2 ^ 32)
    (h : FieldOwner.assign (.out m) name v = .ok (.out m')) (hk : k ≠ name) (buf : Option (List UInt8)) (n : Nat) :
    m'.GetField (some k) buf (some n) = m.GetField (some k) buf (some n) := by
  rcases assigned hlt with ⟨-, m'', heq, habs⟩ | ⟨-, e, heq⟩
  · rw [h] at heq
    obtain rfl : m' = m'' := by injection heq with heq; injection heq
    rw [getField_eq, getField_eq, get_set_other habs hk]
  · rw [h] at heq
    cases heq

/-- Whatever is assigned is read back, from the message and by its receiver, and a reader of another
    width throws. What is over the limit is not assigned. -/
theorem typed_fields (m : FacadeMessage) (name : CWStr) (v : FieldValue) (hlt : v.bytes.length < 2 ^ 32) :
    TypedLaw m name v := by
  rcases @assigned m name v hlt with ⟨htakes, m', heq, habs⟩ | ⟨htakes, e, heq⟩
  · have hget := get_set habs
    refine ⟨⟨fun _ => htakes, fun _ => ⟨_, heq⟩⟩, fun o ho => ?_, fun m'' ho p hp => ?_⟩
    · rw [heq] at ho
      cases ho
      exact reads_back (message_holds hget)
    · rw [heq] at ho
      cases ho
      have hheld := receiver_holds hp hget
      exact ⟨reads_back hheld, reads_in_handler hheld⟩
  · have hno (o : FieldOwner) : FieldOwner.assign (.out m) name v ≠ .ok o := by simp [heq]
    exact ⟨⟨fun ⟨o, ho⟩ => absurd ho (hno o), fun h => absurd h htakes⟩, fun o ho => absurd ho (hno o),
      fun m'' ho => absurd ho (hno _)⟩

/-- A text with a NUL in it and one at its end. -/
theorem typed_fields_text : TypedLaw .Clear ⟨L "k", by decide⟩ (.text [97, 0, 98, 0]) :=
  typed_fields .Clear ⟨L "k", by decide⟩ (.text [97, 0, 98, 0]) (by decide)

end TargetFacade
