/-
  TargetFacade.Trust.Stems — which hubs share their key files (FacadeHub.cpp: SecurityStemOf,
  ProvisionSelf, WriteAllowList).

  The registry compares addresses exactly and the file system without regard to case, so a name
  on disk is `onDisk` of it. A stem is the address itself when it is a plain name, and otherwise
  its sanitised and cut form with a hash behind it; the two kinds share one name space.
  `stems_apart_iff` lists what two addresses must not be.
-/

import TargetFacade.Trust.Model

namespace TargetFacade

/-- A name as the file system compares it. A stem is ASCII, so only ASCII letters fold. -/
def onDisk (s : WStr) : WStr := s.map lower

/-- What an address files its key material under, after the stem. -/
def keyFiles : List WStr := [L ".key", L ".agree", L ".key.pub", L ".agree.pub", L ".allow", L ".allow.new"]

/-- The address is a file name already: nothing is substituted or cut. -/
def IsPlainName (csAddress : WStr) : Bool :=
  !csAddress.isEmpty && decide (csAddress.length ≤ kStemMax) && csAddress.all plainChar

/-- The sanitised and cut form. -/
def stemHead (csAddress : WStr) : WStr :=
  if csAddress.isEmpty then L "hub" else (csAddress.take kStemMax).map fun c => if plainChar c then c else 95

/-- No stem and no file in common. -/
structure StemsApart (x y : WStr) : Prop where
  stems : onDisk (SecurityStemOf x) ≠ onDisk (SecurityStemOf y)
  files : ∀ a ∈ keyFiles, ∀ b ∈ keyFiles, onDisk (SecurityStemOf x ++ a) ≠ onDisk (SecurityStemOf y ++ b)

inductive SharesStem (x y : WStr) : Prop
  /-- Two plain names that differ in case only. -/
  | cased (hx : IsPlainName x = true) (hy : IsPlainName y = true) (h : onDisk x = onDisk y)
  /-- A plain name that reads as the other's sanitised form and hash. -/
  | reads (hx : IsPlainName x = true) (hy : IsPlainName y = false)
      (h : onDisk x = onDisk (stemHead y) ++ L "-" ++ fmtX8 (fnv1a y))
  | isRead (hx : IsPlainName x = false) (hy : IsPlainName y = true)
      (h : onDisk y = onDisk (stemHead x) ++ L "-" ++ fmtX8 (fnv1a x))
  /-- Two sanitised forms that differ in case only, of addresses with one hash. -/
  | hashed (hx : IsPlainName x = false) (hy : IsPlainName y = false) (hhead : onDisk (stemHead x) = onDisk (stemHead y))
      (hhash : fnv1a x = fnv1a y)

/-! ## The stem -/

@[simp] theorem onDisk_append (s t : WStr) : onDisk (s ++ t) = onDisk s ++ onDisk t := List.map_append

/-- bMangled. -/
theorem mangled_eq (x : WStr) :
    (decide (kStemMax < x.length) || (x.take kStemMax).any (!plainChar ·) ||
      ((x.take kStemMax).map fun c => if plainChar c then c else 95).isEmpty) = !IsPlainName x := by
  have hempty : ((x.take kStemMax).map fun c => if plainChar c then c else 95).isEmpty = x.isEmpty := by
    cases x with
    | nil => rfl
    | cons c s => rfl
  rw [hempty]
  unfold IsPlainName
  by_cases hlen : x.length ≤ kStemMax
  · have hlt : ¬ kStemMax < x.length := Nat.not_lt.mpr hlen
    rw [List.take_of_length_le hlen, ← List.not_all_eq_any_not]
    cases x.all plainChar <;> cases x.isEmpty <;> simp [hlen, hlt]
  · have hlt : kStemMax < x.length := Nat.lt_of_not_le hlen
    simp [hlen, hlt]

theorem stem_plain {x : WStr} (h : IsPlainName x = true) : SecurityStemOf x = x := by
  unfold SecurityStemOf
  simp only [mangled_eq, h]
  simp only [IsPlainName, Bool.and_eq_true, decide_eq_true_eq, Bool.not_eq_true', List.all_eq_true] at h
  obtain ⟨⟨hne, hlen⟩, hall⟩ := h
  have hsame : (x.take kStemMax).map (fun c => if plainChar c then c else 95) = x := by
    rw [List.take_of_length_le hlen]
    exact (List.map_congr_left fun c hc => if_pos (hall c hc)).trans (List.map_id' x)
  simp [hsame, hne]

theorem stem_mangled {x : WStr} (h : IsPlainName x = false) :
    SecurityStemOf x = stemHead x ++ L "-" ++ fmtX8 (fnv1a x) := by
  unfold SecurityStemOf stemHead
  simp only [mangled_eq, h, Bool.not_false, if_true]
  cases x with
  | nil => rfl
  | cons c s => rfl

/-! ## The hash, printed -/

theorem fmtX8_length (n : UInt32) : (fmtX8 n).length = 8 := by simp [fmtX8]

theorem hexChar_inj : ∀ d < 16, ∀ e < 16,
    (if d < 10 then 48 + d else 87 + d).toUInt16 = (if e < 10 then 48 + e else 87 + e).toUInt16 → d = e := by decide

theorem hexChar_lower : ∀ d < 16,
    lower (if d < 10 then 48 + d else 87 + d).toUInt16 = (if d < 10 then 48 + d else 87 + d).toUInt16 := by decide

/-- A number of `k` hex digits is told by them. -/
theorem eq_of_hexDigits : ∀ {k n m : Nat}, n >>> (4 * k) = 0 → m >>> (4 * k) = 0 →
    (∀ i < k, (n >>> (4 * i)) % 16 = (m >>> (4 * i)) % 16) → n = m := by
  intro k
  induction k with
  | zero => intro n m hn hm _; exact hn.trans hm.symm
  | succ k ih =>
    intro n m hn hm hdigit
    have hnext (j i : Nat) : (j >>> 4) >>> (4 * i) = j >>> (4 * (i + 1)) := by
      rw [← Nat.shiftRight_add, Nat.mul_succ, Nat.add_comm]
    have hhigh : n >>> 4 = m >>> 4 := by
      refine ih (by rw [hnext, hn]) (by rw [hnext, hm]) fun i hi => ?_
      rw [hnext, hnext]
      exact hdigit (i + 1) (Nat.succ_lt_succ hi)
    have hlow : n % 16 = m % 16 := hdigit 0 (Nat.succ_pos k)
    rw [Nat.shiftRight_eq_div_pow, Nat.shiftRight_eq_div_pow] at hhigh
    omega

theorem fmtX8_inj {n m : UInt32} (h : fmtX8 n = fmtX8 m) : n = m := by
  have hzero (j : UInt32) : j.toNat >>> (4 * 8) = 0 := by
    rw [Nat.shiftRight_eq_div_pow]
    exact Nat.div_eq_of_lt j.toNat_lt
  refine UInt32.toNat_inj.mp (eq_of_hexDigits (hzero n) (hzero m) fun i hi => ?_)
  -- the first digit printed is the highest
  have heq := List.map_inj_left.mp h (7 - i) (List.mem_range.mpr (by omega))
  have hdigit := hexChar_inj _ (Nat.mod_lt _ (by decide)) _ (Nat.mod_lt _ (by decide)) heq
  have hplace : 7 - (7 - i) = i := by omega
  rwa [hplace] at hdigit

theorem fmtX8_onDisk (n : UInt32) : onDisk (fmtX8 n) = fmtX8 n := by
  unfold onDisk fmtX8
  rw [List.map_map]
  refine List.map_congr_left fun i _ => ?_
  exact hexChar_lower _ (Nat.mod_lt _ (by decide))

/-! ## Two stems -/

theorem tail_onDisk (x : WStr) : onDisk (stemHead x ++ L "-" ++ fmtX8 (fnv1a x)) =
    onDisk (stemHead x) ++ L "-" ++ fmtX8 (fnv1a x) := by
  rw [onDisk_append, onDisk_append, fmtX8_onDisk]
  rfl

theorem shared_iff (x y : WStr) : onDisk (SecurityStemOf x) = onDisk (SecurityStemOf y) ↔ SharesStem x y := by
  cases hx : IsPlainName x with
  | true =>
    rw [stem_plain hx]
    cases hy : IsPlainName y with
    | true =>
      rw [stem_plain hy]
      refine ⟨.cased hx hy, fun h => ?_⟩
      cases h with
      | cased _ _ h => exact h
      | reads _ hy' => simp [hy] at hy'
      | isRead hx' => simp [hx] at hx'
      | hashed hx' => simp [hx] at hx'
    | false =>
      rw [stem_mangled hy, tail_onDisk]
      refine ⟨.reads hx hy, fun h => ?_⟩
      cases h with
      | cased _ hy' => simp [hy] at hy'
      | reads _ _ h => exact h
      | isRead hx' => simp [hx] at hx'
      | hashed hx' => simp [hx] at hx'
  | false =>
    rw [stem_mangled hx, tail_onDisk]
    cases hy : IsPlainName y with
    | true =>
      rw [stem_plain hy]
      refine ⟨fun h => .isRead hx hy h.symm, fun h => ?_⟩
      cases h with
      | cased hx' => simp [hx] at hx'
      | reads hx' => simp [hx] at hx'
      | isRead _ _ h => exact h.symm
      | hashed _ hy' => simp [hy] at hy'
    | false =>
      rw [stem_mangled hy, tail_onDisk]
      constructor
      · intro h
        obtain ⟨hfront, hhash⟩ := List.append_inj' h (by rw [fmtX8_length, fmtX8_length])
        exact .hashed hx hy (List.append_inj' hfront rfl).1 (fmtX8_inj hhash)
      · intro h
        cases h with
        | cased hx' => simp [hx] at hx'
        | reads hx' => simp [hx] at hx'
        | isRead _ hy' => simp [hy] at hy'
        | hashed _ _ hhead hhash => rw [hhead, hhash]

/-! ## Two hubs -/

theorem keyFiles_suffix : ∀ a ∈ keyFiles, ∀ b ∈ keyFiles, onDisk a <:+ onDisk b → a = b := by decide

/-- Files of two stems are one only where the stems are. -/
theorem file_stem {s t a b : WStr} (ha : a ∈ keyFiles) (hb : b ∈ keyFiles) (h : onDisk (s ++ a) = onDisk (t ++ b)) :
    onDisk s = onDisk t := by
  rw [onDisk_append, onDisk_append] at h
  have hab : a = b := by
    have hsa : onDisk a <:+ onDisk t ++ onDisk b := h ▸ List.suffix_append _ _
    rcases List.suffix_or_suffix_of_suffix hsa (List.suffix_append _ _) with hsuf | hsuf
    · exact keyFiles_suffix a ha b hb hsuf
    · exact (keyFiles_suffix b hb a ha hsuf).symm
  subst hab
  exact List.append_cancel_right h

/-- Two addresses have stems and key files of their own exactly when they are no pair of these four kinds. -/
theorem stems_apart_iff (x y : WStr) : StemsApart x y ↔ ¬ SharesStem x y := by
  rw [← shared_iff]
  refine ⟨fun h => h.stems, fun h => ⟨h, fun a ha b hb heq => h (file_stem ha hb heq)⟩⟩

/-- The addresses "Demo" and "demo". -/
theorem stems_cased : ∃ x y : WStr, x ≠ y ∧ ¬ StemsApart x y :=
  ⟨L "Demo", L "demo", by decide, fun h => h.stems (by decide)⟩

end TargetFacade
