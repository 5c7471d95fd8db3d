/-
  TargetFacade.Endpoint.Codec — ParseFacadeEndpoint against FacadeEndpoint::Format.

  `Canonical` says which endpoints a role's parse can give, and the round trip goes through it:
  what is parsed is canonical (`parseCore_canonical`), and a canonical endpoint's text parses to
  that endpoint (`parseCore_format`). The first needs one thing of InetPton: what it takes for an
  IPv6 literal has a colon in it (`InetPton.Literal`), or Format would not bracket it.
-/

import TargetFacade.Endpoint
import TargetFacade.Lib.Decimal
import TargetFacade.Lib.Text

namespace TargetFacade

open Text

/-- An IPv6 literal is written with colons. -/
structure InetPton.Literal (inet : InetPton) : Prop where
  colon : ∀ s, (inet.v6 s).isSome = true → 58 ∈ s

/-! ## CString -/

theorem trim_eq (s : WStr) : Trim s = strip iswspace s := rfl

theorem find_cut {s : WStr} {c : WChar} {i : Nat} :
    Find s c = some i ↔ ∃ u v, s = u ++ c :: v ∧ c ∉ u ∧ u.length = i := findIdx_cut

theorem reverseFind_cut {s : WStr} {c : WChar} {i : Nat} :
    ReverseFind s c = some i ↔ ∃ u v, s = u ++ c :: v ∧ c ∉ v ∧ u.length = i := lastIdx_cut

/-! ## Numbers -/

def IsDigit (c : WChar) : Bool := 48 ≤ c && c ≤ 57

def digit (c : WChar) : Nat := (c - 48).toNat

/-- The number a run of digits writes. -/
def decimalValue (s : WStr) : Nat := Decimal.value 0 (s.map digit)

theorem scanDigits_eq (s : WStr) : ∀ acc : Nat,
    scanDigits acc s =
      if s.all IsDigit then some (Decimal.saturated 0xFFFFFFFF acc (s.map digit)) else none := by
  induction s with
  | nil => intro acc; rfl
  | cons c s ih =>
    intro acc
    have hd : (c < 48 || c > 57) = !IsDigit c := by
      unfold IsDigit
      by_cases h1 : c < 48
      · have h1' : ¬ 48 ≤ c := UInt16.not_le.mpr h1
        simp [h1, h1']
      · have h1' : 48 ≤ c := UInt16.not_lt.mp h1
        by_cases h2 : c > 57
        · have h2' : ¬ c ≤ 57 := UInt16.not_le.mpr h2
          simp [h1, h2, h2']
        · have h2' : c ≤ 57 := UInt16.not_lt.mp h2
          simp [h1, h2, h1', h2']
    unfold scanDigits
    rw [hd, ih, List.all_cons]
    cases IsDigit c <;> rfl

theorem scanUInt_iff {s : WStr} {v : Nat} :
    ScanUInt s = some v ↔ s ≠ [] ∧ s.all IsDigit = true ∧ v = min (decimalValue s) 0xFFFFFFFF := by
  unfold ScanUInt decimalValue
  have hsat := Decimal.saturated_eq 0xFFFFFFFF (s.map digit) 0
  rw [show min 0 0xFFFFFFFF = 0 from rfl] at hsat
  by_cases he : s = []
  · simp [he]
  · have he' : s.isEmpty = false := by simpa using he
    rw [he', scanDigits_eq, hsat]
    cases hall : s.all IsDigit with
    | true => simp [he, eq_comm]
    | false => simp

theorem fmtU_digits (n : Nat) : ∀ c ∈ fmtU n, IsDigit c = true := by
  intro c hc
  obtain ⟨d, hd, rfl⟩ := List.mem_map.mp hc
  have hdig := Nat.isDigit_of_mem_toDigits (by decide) (by decide) hd
  have hb : 48 ≤ d.toNat ∧ d.toNat ≤ 57 := by
    simpa [Char.isDigit, UInt32.le_iff_toNat_le] using hdig
  unfold IsDigit
  have hn : d.toNat.toUInt16.toNat = d.toNat := by simp; omega
  simp only [Bool.and_eq_true, decide_eq_true_eq, UInt16.le_iff_toNat_le, hn]
  exact hb

theorem fmtU_ne_nil (n : Nat) : fmtU n ≠ [] := by simp [fmtU]

theorem decimalValue_fmtU (n : Nat) : decimalValue (fmtU n) = n := by
  unfold decimalValue fmtU
  rw [List.map_map]
  have hmap : (Nat.toDigits 10 n).map (digit ∘ fun c => c.toNat.toUInt16) =
      (Nat.toDigits 10 n).map fun c => c.toNat - 48 := by
    refine List.map_congr_left fun c hc => ?_
    have hdig := Nat.isDigit_of_mem_toDigits (by decide) (by decide) hc
    have hb : 48 ≤ c.toNat ∧ c.toNat ≤ 57 := by
      simpa [Char.isDigit, UInt32.le_iff_toNat_le] using hdig
    have hn : c.toNat.toUInt16.toNat = c.toNat := by simp; omega
    have hle : (48 : UInt16) ≤ c.toNat.toUInt16 := by
      rw [UInt16.le_iff_toNat_le, hn]; exact hb.1
    show (c.toNat.toUInt16 - 48).toNat = c.toNat - 48
    rw [UInt16.toNat_sub_of_le _ _ hle, hn]
    rfl
  rw [hmap, Decimal.value_toDigits]

theorem scanUInt_fmtU {n : Nat} (h : n ≤ 0xFFFFFFFF) : ScanUInt (fmtU n) = some n := by
  refine scanUInt_iff.mpr ⟨fmtU_ne_nil n, List.all_eq_true.mpr (fmtU_digits n), ?_⟩
  rw [decimalValue_fmtU]
  omega

/-! ## Host and port -/

theorem splitHostPort_bracketed {csTarget csHost csPort : WStr} :
    splitHostPort csTarget = some (csHost, csPort, true) ↔
      csTarget = 91 :: csHost ++ 93 :: 58 :: csPort ∧ csHost ≠ [] ∧ 93 ∉ csHost := by
  unfold splitHostPort
  by_cases hb : (csTarget.take 1 == L "[") = true
  case neg =>
    simp only [hb, Bool.false_eq_true, if_false]
    constructor
    · intro h
      split at h
      · cases h
      · split at h <;> cases h
    · rintro ⟨rfl, -, -⟩
      exact absurd (by rfl) hb
  obtain ⟨rest, rfl⟩ : ∃ rest, csTarget = 91 :: rest := by
    cases csTarget with
    | nil => cases hb
    | cons c rest =>
      have hc : c = 91 := by simpa [L] using hb
      exact ⟨rest, by rw [hc]⟩
  simp only [hb, if_true]
  constructor
  · intro h
    split at h
    · cases h
    rename_i n hfind
    obtain ⟨u, v, hs, hu, rfl⟩ := find_cut.mp hfind
    cases u with
    | nil => simp at hs
    | cons c u =>
      simp only [List.cons_append, List.cons.injEq] at hs
      obtain ⟨rfl, rfl⟩ := hs
      have hdrop : (91 :: (u ++ 93 :: v)).drop ((91 :: u).length + 1) = v := by simp
      have hdrop2 : (91 :: (u ++ 93 :: v)).drop ((91 :: u).length + 2) = v.drop 1 := by simp
      have htake : (List.drop 1 (91 :: (u ++ 93 :: v))).take ((91 :: u).length - 1) = u := by simp
      rw [hdrop, hdrop2, htake] at h
      by_cases hcolon : (v.take 1 != L ":") = true
      · simp [hcolon] at h
      · simp only [hcolon, Bool.false_eq_true, if_false] at h
        by_cases hu0 : u.isEmpty = true
        · simp [hu0] at h
        · simp only [hu0, Bool.false_eq_true, if_false, Option.some.injEq, Prod.mk.injEq, and_true] at h
          obtain ⟨rfl, rfl⟩ := h
          cases v with
          | nil => simp [L] at hcolon
          | cons d v =>
            have hd : d = 58 := by simpa [L] using hcolon
            subst hd
            exact ⟨rfl, by simpa using hu0, fun hm => hu (by simp [hm])⟩
  · rintro ⟨hs, hne, hnot⟩
    have hrest : rest = csHost ++ 93 :: 58 :: csPort := by simpa using hs
    subst hrest
    have hfind : Find (91 :: (csHost ++ 93 :: 58 :: csPort)) 93 = some (csHost.length + 1) :=
      find_cut.mpr ⟨91 :: csHost, 58 :: csPort, rfl, by simpa using hnot, by simp⟩
    have he : csHost.isEmpty = false := by simpa using hne
    simp [hfind, he, L]

theorem splitHostPort_bare {csTarget csHost csPort : WStr} :
    splitHostPort csTarget = some (csHost, csPort, false) ↔
      csTarget = csHost ++ 58 :: csPort ∧ csTarget.head? ≠ some 91 ∧ 58 ∉ csHost ∧ 93 ∉ csHost ∧ 58 ∉ csPort := by
  unfold splitHostPort
  by_cases hb : (csTarget.take 1 == L "[") = true
  · have hhead : csTarget.head? = some 91 := by
      cases csTarget with
      | nil => cases hb
      | cons c rest => simpa [L] using hb
    simp only [hb, if_true]
    constructor
    · intro h
      split at h
      · cases h
      · repeat' split at h
        all_goals cases h
    · rintro ⟨-, hne, -⟩
      exact absurd hhead hne
  have hhead : csTarget.head? ≠ some 91 := by
    intro h
    cases csTarget with
    | nil => cases h
    | cons c rest =>
      obtain rfl : c = 91 := by simpa using h
      exact hb (by simp [L])
  simp only [hb, Bool.false_eq_true, if_false]
  constructor
  · intro h
    split at h
    · cases h
    rename_i n hfind
    obtain ⟨u, v, rfl, hv, rfl⟩ := reverseFind_cut.mp hfind
    have htake : (u ++ 58 :: v).take u.length = u := by simp
    have hdrop : (u ++ 58 :: v).drop (u.length + 1) = v := by simp
    rw [htake, hdrop] at h
    by_cases hu : (u.contains 58 || u.contains 93) = true
    · simp only [hu, if_true] at h
      cases h
    · simp only [hu, Bool.false_eq_true, if_false, Option.some.injEq, Prod.mk.injEq, and_true] at h
      obtain ⟨rfl, rfl⟩ := h
      simp only [Bool.or_eq_true, List.contains_iff_mem, not_or] at hu
      exact ⟨rfl, hhead, hu.1, hu.2, hv⟩
  · rintro ⟨rfl, -, h58, h93, hport⟩
    have hfind : ReverseFind (csHost ++ 58 :: csPort) 58 = some csHost.length :=
      reverseFind_cut.mpr ⟨csHost, csPort, rfl, hport, rfl⟩
    simp [hfind, h58, h93]

/-! ## What a parse gives -/

/-- A host a dial may name, as the family has it. -/
structure DialHost (inet : InetPton) (eFamily : FacadeFamily) (csHost : WStr) : Prop where
  named : csHost ≠ []
  unclosed : 93 ∉ csHost
  reachable : eFamily = .iPv6 → inet.v4 csHost = false
  /-- An IPv6 literal, or a name with no colon. -/
  written : (58 ∈ csHost ∧ IsIPv6Literal inet csHost true = true ∧ eFamily ≠ .iPv4) ∨
    (58 ∉ csHost ∧ csHost.head? ≠ some 91)

/-- The endpoints a parse in the role can give. -/
inductive Canonical (inet : InetPton) : Bool → FacadeEndpoint → Prop
  | listen (uNum : Nat) (eFamily : FacadeFamily) (bDerived : Bool) (hmin : 1 ≤ uNum) (hmax : uNum ≤ kPortMax) :
      Canonical inet true ⟨.tcp, [], [], uNum, eFamily, bDerived⟩
  | dial (csHost : WStr) (uNum : Nat) (eFamily : FacadeFamily) (bDerived : Bool) (hmin : 1 ≤ uNum)
      (hmax : uNum ≤ kPortMax) (hhost : DialHost inet eFamily csHost) :
      Canonical inet false ⟨.tcp, csHost, [], uNum, eFamily, bDerived⟩
  | named (bListen : Bool) (eKind : FacadeTransport) (csName : WStr) (bDerived : Bool)
      (hkind : eKind = .pipe ∨ eKind = .dmx) (hname : csName ≠ [])
      (hlast : ∀ c ∈ csName.getLast?, iswspace c = false) :
      Canonical inet bListen ⟨eKind, [], csName, 0, .iPv4, bDerived⟩
  | serial (bListen : Bool) (uNum : Nat) (bDerived : Bool) (hmin : 1 ≤ uNum) (hmax : uNum ≤ kComPortMax) :
      Canonical inet bListen ⟨.serial, [], [], uNum, .iPv4, bDerived⟩

/-- What follows the scheme, less one "//". -/
def targetOf (csRest : WStr) : WStr := if csRest.take 2 == L "//" then csRest.drop 2 else csRest

/-- What parseCore makes of a scheme and a target. -/
def dispatch (inet : InetPton) (csScheme csTarget : WStr) (bListen : Bool) (rOut : FacadeEndpoint) :
    Option FacadeEndpoint :=
  if IsScheme csScheme (L "tcp") || (IsScheme csScheme (L "tcp4") || IsScheme csScheme (L "ipv4")) ||
      (IsScheme csScheme (L "tcp6") || IsScheme csScheme (L "ipv6")) || IsScheme csScheme (L "tcp46") then
    parseTcp inet (IsScheme csScheme (L "tcp")) (IsScheme csScheme (L "tcp4") || IsScheme csScheme (L "ipv4"))
      (IsScheme csScheme (L "tcp6") || IsScheme csScheme (L "ipv6")) (IsScheme csScheme (L "tcp46")) csTarget bListen rOut
  else if IsScheme csScheme (L "pipe") || IsScheme csScheme (L "dmx") then
    if csTarget.isEmpty then none
    else
      some { rOut with
        eKind := if IsScheme csScheme (L "pipe") then .pipe else .dmx
        csName := csTarget, csHost := [], uNum := 0, eFamily := .iPv4 }
  else if IsScheme csScheme (L "serial") || IsScheme csScheme (L "com") then parseSerial csTarget rOut
  else none

theorem parseCore_cut {inet : InetPton} {s csScheme csRest : WStr} (hs : Trim s = csScheme ++ 58 :: csRest)
    (hscheme : 58 ∉ csScheme) (hne : csScheme ≠ []) (bListen : Bool) (rOut : FacadeEndpoint) :
    parseCore inet s bListen rOut = dispatch inet csScheme (targetOf csRest) bListen rOut := by
  have hs0 : s.isEmpty = false := by
    cases s with
    | nil => simp [trim_eq, strip] at hs
    | cons c s => rfl
  have hfind : Find (Trim s) 58 = some csScheme.length := find_cut.mpr ⟨csScheme, csRest, hs, hscheme, rfl⟩
  have hn : (csScheme.length == 0) = false := by simpa using hne
  have htake : (Trim s).take csScheme.length = csScheme := by rw [hs, List.take_left]
  have hdrop : (Trim s).drop (csScheme.length + 1) = csRest := by
    rw [hs]
    simp
  unfold parseCore
  simp only [hs0, hfind, hn, htake, hdrop, Bool.false_eq_true, if_false]
  rfl

theorem parseCore_iff {inet : InetPton} {s : WStr} {bListen : Bool} {rOut ep : FacadeEndpoint} :
    parseCore inet s bListen rOut = some ep ↔ ∃ csScheme csRest, Trim s = csScheme ++ 58 :: csRest ∧
      58 ∉ csScheme ∧ csScheme ≠ [] ∧ dispatch inet csScheme (targetOf csRest) bListen rOut = some ep := by
  constructor
  · intro h
    have hcut : ∃ csScheme csRest, Trim s = csScheme ++ 58 :: csRest ∧ 58 ∉ csScheme ∧ csScheme ≠ [] := by
      unfold parseCore at h
      split at h
      · cases h
      simp only at h
      split at h
      · cases h
      rename_i n hfind
      obtain ⟨u, v, hs, hu, rfl⟩ := find_cut.mp hfind
      split at h
      · cases h
      rename_i hn
      exact ⟨u, v, hs, hu, fun he => hn (by simp [he])⟩
    obtain ⟨u, v, hs, hu, hne⟩ := hcut
    exact ⟨u, v, hs, hu, hne, (parseCore_cut hs hu hne bListen rOut).symm.trans h⟩
  · rintro ⟨u, v, hs, hu, hne, hd⟩
    exact (parseCore_cut hs hu hne bListen rOut).trans hd

/-- The family a scheme names. -/
def schemeFamily (bTcp6 bTcp46 : Bool) : FacadeFamily := if bTcp6 then .iPv6 else if bTcp46 then .dual else .iPv4

theorem parseTcp_iff {inet : InetPton} {bAuto b4 b6 b46 bListen : Bool} {csTarget : WStr} {rOut ep : FacadeEndpoint} :
    parseTcp inet bAuto b4 b6 b46 csTarget bListen rOut = some ep ↔ ∃ csHost csPort bBracketed uPort eFamily,
      splitHostPort csTarget = some (csHost, csPort, bBracketed) ∧ ScanUInt csPort = some uPort ∧
      1 ≤ uPort ∧ uPort ≤ kPortMax ∧ (bBracketed = true → IsIPv6Literal inet csHost (!bListen) = true) ∧
      (b4 && bBracketed) = false ∧
      (if bListen then listenHost inet csHost bBracketed bAuto b4 (schemeFamily b6 b46)
        else dialHost inet csHost bBracketed bAuto (schemeFamily b6 b46)) = some eFamily ∧
      ep = ⟨.tcp, if bListen then [] else csHost, [], uPort, eFamily, rOut.bDerived⟩ := by
  unfold parseTcp
  constructor
  · intro h
    split at h
    · cases h
    rename_i csHost csPort bBracketed hsplit
    split at h
    · cases h
    rename_i uPort hport
    by_cases hrange : (uPort < 1 || uPort > kPortMax) = true
    · simp only [hrange, if_true] at h
      cases h
    obtain ⟨hmin, hmax⟩ : 1 ≤ uPort ∧ uPort ≤ kPortMax := by simp at hrange; omega
    by_cases hlit : (bBracketed && !IsIPv6Literal inet csHost (!bListen)) = true
    · simp only [hrange, hlit, Bool.false_eq_true, if_true, if_false] at h
      cases h
    by_cases h4 : (b4 && bBracketed) = true
    · simp only [hrange, hlit, h4, Bool.false_eq_true, if_true, if_false] at h
      cases h
    simp only [hrange, hlit, h4, Bool.false_eq_true, if_false] at h
    have hlit' : bBracketed = true → IsIPv6Literal inet csHost (!bListen) = true := by
      intro hb
      simpa [hb] using hlit
    cases bListen with
    | true =>
      simp only [if_true] at h
      obtain ⟨f, hf, rfl⟩ := Option.map_eq_some_iff.mp h
      exact ⟨csHost, csPort, bBracketed, uPort, f, hsplit, hport, hmin, hmax, hlit', by simpa using h4, hf, rfl⟩
    | false =>
      simp only [Bool.false_eq_true, if_false] at h
      obtain ⟨f, hf, rfl⟩ := Option.map_eq_some_iff.mp h
      exact ⟨csHost, csPort, bBracketed, uPort, f, hsplit, hport, hmin, hmax, hlit', by simpa using h4, hf, rfl⟩
  · rintro ⟨csHost, csPort, bBracketed, uPort, f, hsplit, hport, hmin, hmax, hlit, h4, hf, rfl⟩
    have hrange : (uPort < 1 || uPort > kPortMax) = false := by simp; omega
    have hlit' : (bBracketed && !IsIPv6Literal inet csHost (!bListen)) = false := by
      cases hb : bBracketed with
      | false => rfl
      | true => simp [hlit hb]
    simp only [hsplit, hport, hrange, hlit', h4, Bool.false_eq_true, if_false]
    cases bListen with
    | true => simp only [if_true] at hf ⊢; exact Option.map_eq_some_iff.mpr ⟨f, hf, rfl⟩
    | false => simp only [Bool.false_eq_true, if_false] at hf ⊢; exact Option.map_eq_some_iff.mpr ⟨f, hf, rfl⟩

/-- An IPv6 literal has a colon in it, its zone apart. -/
theorem literal_colon {inet : InetPton} (hinet : inet.Literal) {csHost : WStr} {bAllowZone : Bool}
    (h : IsIPv6Literal inet csHost bAllowZone = true) : 58 ∈ csHost := by
  unfold IsIPv6Literal at h
  split at h
  · rename_i n hfind
    split at h
    · cases h
    · exact List.mem_of_mem_take (hinet.colon _ h)
  · exact hinet.colon _ h

theorem dialHost_family {inet : InetPton} {csHost : WStr} {bBracketed bAuto : Bool} {f eFamily : FacadeFamily}
    (h : dialHost inet csHost bBracketed bAuto f = some eFamily) :
    csHost ≠ [] ∧ eFamily = (if bBracketed && bAuto then .iPv6 else f) ∧ (eFamily = .iPv6 → inet.v4 csHost = false) := by
  unfold dialHost at h
  by_cases he : csHost.isEmpty = true
  · simp [he] at h
  simp only [he, Bool.false_eq_true, if_false] at h
  generalize (if (bBracketed && bAuto) = true then FacadeFamily.iPv6 else f) = g at h ⊢
  by_cases hv : (g == .iPv6 && inet.v4 csHost) = true
  · simp [hv] at h
  · simp only [hv, Bool.false_eq_true, if_false, Option.some.injEq] at h
    subst h
    refine ⟨by simpa using he, rfl, fun h6 => ?_⟩
    simpa [h6] using hv

theorem parseTcp_canonical {inet : InetPton} (hinet : inet.Literal) {bAuto b4 b6 b46 bListen : Bool} {csTarget : WStr}
    {rOut ep : FacadeEndpoint} (hone : (bAuto || b4 || b6 || b46) = true)
    (h : parseTcp inet bAuto b4 b6 b46 csTarget bListen rOut = some ep) : Canonical inet bListen ep := by
  obtain ⟨csHost, csPort, bBracketed, uPort, f, hsplit, -, hmin, hmax, hlit, h4, hf, rfl⟩ := parseTcp_iff.mp h
  cases bListen with
  | true => exact .listen uPort f _ hmin hmax
  | false =>
    simp only [Bool.false_eq_true, if_false] at hf ⊢
    obtain ⟨hne, hfam, hreach⟩ := dialHost_family hf
    refine .dial csHost uPort f _ hmin hmax ⟨hne, ?_, hreach, ?_⟩
    · cases bBracketed with
      | true => exact (splitHostPort_bracketed.mp hsplit).2.2
      | false => exact (splitHostPort_bare.mp hsplit).2.2.2.1
    · cases bBracketed with
      | true =>
        have hl := hlit rfl
        refine Or.inl ⟨literal_colon hinet hl, hl, ?_⟩
        have h4' : b4 = false := by simpa using h4
        rw [hfam]
        cases bAuto with
        | true => simp
        | false =>
          subst h4'
          unfold schemeFamily
          cases b6 with
          | true => simp
          | false =>
            have h46 : b46 = true := by simpa using hone
            simp [h46]
      | false =>
        obtain ⟨hs, hhead, h58, -, -⟩ := splitHostPort_bare.mp hsplit
        refine Or.inr ⟨h58, fun hh => hhead ?_⟩
        rw [hs, List.head?_append, hh]
        rfl

theorem scanned_range {s : WStr} {v : Nat} (h : ScanUInt s = some v) (hmax : v ≤ kPortMax) : v = decimalValue s := by
  have hv := (scanUInt_iff.mp h).2.2
  have hp : kPortMax = 65535 := rfl
  omega

theorem parseSerial_iff {csTarget : WStr} {rOut ep : FacadeEndpoint} :
    parseSerial csTarget rOut = some ep ↔ ∃ uCom,
      ScanUInt (if IsScheme (csTarget.take 3) (L "COM") then csTarget.drop 3 else csTarget) = some uCom ∧
      1 ≤ uCom ∧ uCom ≤ kComPortMax ∧ ep = ⟨.serial, [], [], uCom, .iPv4, rOut.bDerived⟩ := by
  unfold parseSerial
  simp only
  generalize (if IsScheme (csTarget.take 3) (L "COM") then csTarget.drop 3 else csTarget) = csNum
  constructor
  · intro h
    split at h
    · cases h
    rename_i uCom hscan
    by_cases hrange : (uCom < 1 || uCom > kComPortMax) = true
    · simp only [hrange, if_true] at h
      cases h
    · simp only [hrange, Bool.false_eq_true, if_false, Option.some.injEq] at h
      have hr : ¬ (uCom < 1 ∨ uCom > kComPortMax) := by simpa using hrange
      exact ⟨uCom, hscan, by omega, by omega, h.symm⟩
  · rintro ⟨uCom, hscan, hmin, hmax, rfl⟩
    have hrange : (uCom < 1 || uCom > kComPortMax) = false := by simp; omega
    simp only [hscan, hrange, Bool.false_eq_true, if_false]

theorem targetOf_last {csRest : WStr} (h : targetOf csRest ≠ []) : (targetOf csRest).getLast? = csRest.getLast? := by
  unfold targetOf at h ⊢
  split
  · rename_i hs
    rw [if_pos hs] at h
    rw [List.getLast?_drop, if_neg (by simpa using h)]
  · rfl

/-- What a parse accepts is canonical. -/
theorem parseCore_canonical {inet : InetPton} (hinet : inet.Literal) {s : WStr} {bListen : Bool}
    {rOut ep : FacadeEndpoint} (h : parseCore inet s bListen rOut = some ep) : Canonical inet bListen ep := by
  obtain ⟨csScheme, csRest, hs, -, -, hd⟩ := parseCore_iff.mp h
  unfold dispatch at hd
  split at hd
  · rename_i hone
    exact parseTcp_canonical hinet hone hd
  split at hd
  · split at hd
    · cases hd
    rename_i hne
    have hne' : targetOf csRest ≠ [] := by simpa using hne
    cases hd
    refine .named bListen _ _ _ (by split <;> simp) hne' fun c hc => ?_
    have hclean := strip_clean iswspace s
    rw [← trim_eq, hs] at hclean
    rw [targetOf_last hne'] at hc
    refine hclean.last c ?_
    have hr : csRest ≠ [] := by
      intro he; rw [he] at hc; simp at hc
    rw [List.getLast?_append, List.getLast?_cons_of_ne_nil hr]
    simp only [Option.mem_def] at hc ⊢
    rw [hc]; rfl
  · split at hd
    · obtain ⟨uCom, -, hmin, hmax, rfl⟩ := parseSerial_iff.mp hd
      exact .serial bListen uCom _ hmin hmax
    · cases hd

/-! ## What Format writes -/

theorem digit_not_space {c : WChar} (h : IsDigit c = true) : iswspace c = false := by
  have hb : 48 ≤ c.toNat ∧ c.toNat ≤ 57 := by
    simpa [IsDigit, UInt16.le_iff_toNat_le] using h
  have hne : ∀ d : WChar, d.toNat < 48 ∨ 57 < d.toNat → (c == d) = false := by
    intro d hd
    rw [beq_eq_false_iff_ne]
    intro e
    subst e
    omega
  have h1 : decide (c ≤ 13) = false := by
    rw [decide_eq_false_iff_not, UInt16.le_iff_toNat_le]
    show ¬ c.toNat ≤ 13
    omega
  have h2 : decide (0x2000 ≤ c) = false := by
    rw [decide_eq_false_iff_not, UInt16.le_iff_toNat_le]
    show ¬ 0x2000 ≤ c.toNat
    omega
  unfold iswspace
  simp [h1, h2, hne 32 (by decide), hne 0x85 (by decide), hne 0xA0 (by decide), hne 0x1680 (by decide),
    hne 0x2028 (by decide), hne 0x2029 (by decide), hne 0x202F (by decide), hne 0x205F (by decide), hne 0x3000 (by decide)]

/-- A text that begins with a scheme and ends in no white space is cut after the scheme. -/
theorem parseCore_text {inet : InetPton} {csScheme csTarget : WStr} (hscheme : 58 ∉ csScheme)
    (hhead : ∃ c ∈ csScheme.head?, iswspace c = false) (hlast : ∃ c ∈ csTarget.getLast?, iswspace c = false)
    (bListen : Bool) (rOut : FacadeEndpoint) :
    parseCore inet (csScheme ++ L "://" ++ csTarget) bListen rOut = dispatch inet csScheme csTarget bListen rOut := by
  obtain ⟨c, hc, hcw⟩ := hhead
  obtain ⟨d, hd, hdw⟩ := hlast
  have hne : csScheme ≠ [] := by
    intro he; rw [he] at hc; simp at hc
  have hclean : Clean iswspace (csScheme ++ L "://" ++ csTarget) := by
    constructor
    · intro x hx
      rw [List.append_assoc, List.head?_append, hc] at hx
      obtain rfl : c = x := by simpa using hx
      exact hcw
    · intro x hx
      rw [List.getLast?_append, hd] at hx
      obtain rfl : d = x := by simpa using hx
      exact hdw
  have hs : Trim (csScheme ++ L "://" ++ csTarget) = csScheme ++ 58 :: (47 :: 47 :: csTarget) := by
    rw [trim_eq, strip_of_clean hclean]
    simp [L]
  rw [parseCore_cut hs hscheme hne]
  rfl

/-- The scheme Format writes for a family. -/
def FacadeFamily.scheme : FacadeFamily → WStr
  | .iPv6 => L "tcp6"
  | .dual => L "tcp46"
  | .iPv4 => L "tcp"

/-- The host as Format writes it. -/
def hostText (csHost : WStr) : WStr := if csHost.contains 58 then L "[" ++ csHost ++ L "]" else csHost

theorem format_tcp (csHost csName : WStr) (uNum : Nat) (eFamily : FacadeFamily) (bDerived : Bool) :
    FacadeEndpoint.Format ⟨.tcp, csHost, csName, uNum, eFamily, bDerived⟩ =
      eFamily.scheme ++ L "://" ++ (hostText csHost ++ 58 :: fmtU uNum) := by
  unfold FacadeEndpoint.Format hostText
  by_cases h : 58 ∈ csHost
  · cases eFamily <;> simp [h, FacadeFamily.scheme, L]
  · cases eFamily <;> simp [h, FacadeFamily.scheme, L]

theorem dispatch_tcp (inet : InetPton) (eFamily : FacadeFamily) (csTarget : WStr) (bListen : Bool)
    (rOut : FacadeEndpoint) :
    dispatch inet eFamily.scheme csTarget bListen rOut =
      parseTcp inet (eFamily == .iPv4) false (eFamily == .iPv6) (eFamily == .dual) csTarget bListen rOut := by
  cases eFamily <;> rfl

theorem parseCore_tcp (inet : InetPton) (csHost csName : WStr) (uNum : Nat) (eFamily : FacadeFamily)
    (bDerived bListen : Bool) (rOut : FacadeEndpoint) :
    parseCore inet (FacadeEndpoint.Format ⟨.tcp, csHost, csName, uNum, eFamily, bDerived⟩) bListen rOut =
      parseTcp inet (eFamily == .iPv4) false (eFamily == .iPv6) (eFamily == .dual) (hostText csHost ++ 58 :: fmtU uNum)
        bListen rOut := by
  obtain ⟨d, hd⟩ : ∃ d, (fmtU uNum).getLast? = some d := by
    cases h : (fmtU uNum).getLast? with
    | none => exact absurd (List.getLast?_eq_none_iff.mp h) (fmtU_ne_nil uNum)
    | some d => exact ⟨d, rfl⟩
  have hdigit := fmtU_digits uNum d (List.mem_of_getLast? hd)
  rw [format_tcp, parseCore_text, dispatch_tcp]
  · cases eFamily <;> decide
  · cases eFamily <;> exact ⟨116, rfl, by decide⟩
  · refine ⟨d, ?_, digit_not_space hdigit⟩
    rw [List.getLast?_append, List.getLast?_cons_of_ne_nil (fmtU_ne_nil uNum), hd]
    rfl

theorem dispatch_pipe (inet : InetPton) {csName : WStr} (hname : csName ≠ []) (bListen : Bool) (rOut : FacadeEndpoint) :
    dispatch inet (L "pipe") csName bListen rOut = some ⟨.pipe, [], csName, 0, .iPv4, rOut.bDerived⟩ := by
  unfold dispatch
  rw [if_neg (by decide), if_pos (by decide), if_neg (by simpa using hname), if_pos (by decide)]

theorem dispatch_dmx (inet : InetPton) {csName : WStr} (hname : csName ≠ []) (bListen : Bool) (rOut : FacadeEndpoint) :
    dispatch inet (L "dmx") csName bListen rOut = some ⟨.dmx, [], csName, 0, .iPv4, rOut.bDerived⟩ := by
  unfold dispatch
  rw [if_neg (by decide), if_pos (by decide), if_neg (by simpa using hname), if_neg (by decide)]

theorem dispatch_serial (inet : InetPton) (csTarget : WStr) (bListen : Bool) (rOut : FacadeEndpoint) :
    dispatch inet (L "serial") csTarget bListen rOut = parseSerial csTarget rOut := by
  unfold dispatch
  rw [if_neg (by decide), if_neg (by decide), if_pos (by decide)]

theorem schemeFamily_self (eFamily : FacadeFamily) : schemeFamily (eFamily == .iPv6) (eFamily == .dual) = eFamily := by
  cases eFamily <;> rfl

theorem colon_not_fmtU (n : Nat) : 58 ∉ fmtU n := by
  intro h
  have := fmtU_digits n 58 h
  simp [IsDigit] at this

/-- A canonical endpoint's text parses to that endpoint. -/
theorem parseCore_format {inet : InetPton} {bListen : Bool} {ep : FacadeEndpoint} (h : Canonical inet bListen ep)
    (rOut : FacadeEndpoint) : parseCore inet ep.Format bListen rOut = some { ep with bDerived := rOut.bDerived } := by
  have hport : ∀ {n : Nat}, n ≤ kPortMax → ScanUInt (fmtU n) = some n := by
    intro n hn
    exact scanUInt_fmtU (by have : kPortMax = 65535 := rfl; omega)
  cases h with
  | listen uNum eFamily bDerived hmin hmax =>
    rw [parseCore_tcp, parseTcp_iff]
    refine ⟨[], fmtU uNum, false, uNum, eFamily, ?_, hport hmax, hmin, hmax, by simp, rfl, ?_, rfl⟩
    · exact splitHostPort_bare.mpr ⟨rfl, by simp [hostText], by simp, by simp, colon_not_fmtU uNum⟩
    · rw [schemeFamily_self]
      rfl
  | dial csHost uNum eFamily bDerived hmin hmax hhost =>
    rw [parseCore_tcp, parseTcp_iff]
    have hreach : ∀ g : FacadeFamily, (g = .iPv6 → inet.v4 csHost = false) → (g == .iPv6 && inet.v4 csHost) = false := by
      intro g hg
      cases g <;> simp [hg]
    have hne : csHost.isEmpty = false := by simpa using hhost.named
    rcases hhost.written with ⟨h58, hlit, hfam⟩ | ⟨h58, hhead⟩
    · refine ⟨csHost, fmtU uNum, true, uNum, eFamily, ?_, hport hmax, hmin, hmax, fun _ => hlit, rfl, ?_, rfl⟩
      · exact splitHostPort_bracketed.mpr ⟨by simp [hostText, h58, L], hhost.named, hhost.unclosed⟩
      · rw [schemeFamily_self]
        have hauto : (eFamily == .iPv4) = false := by simpa using hfam
        simp only [dialHost, hne, hauto, Bool.and_false, Bool.false_eq_true, if_false, hreach eFamily hhost.reachable]
    · refine ⟨csHost, fmtU uNum, false, uNum, eFamily, ?_, hport hmax, hmin, hmax, by simp, rfl, ?_, rfl⟩
      · have htext : hostText csHost = csHost := by simp [hostText, h58]
        rw [htext]
        refine splitHostPort_bare.mpr ⟨rfl, ?_, h58, hhost.unclosed, colon_not_fmtU uNum⟩
        cases csHost with
        | nil => exact absurd rfl hhost.named
        | cons c rest => simpa using hhead
      · rw [schemeFamily_self]
        simp only [dialHost, hne, Bool.false_and, Bool.false_eq_true, if_false, hreach eFamily hhost.reachable]
  | named _ eKind csName bDerived hkind hname hlast =>
    obtain ⟨d, hd⟩ : ∃ d, csName.getLast? = some d := by
      cases h : csName.getLast? with
      | none => exact absurd (List.getLast?_eq_none_iff.mp h) hname
      | some d => exact ⟨d, rfl⟩
    have hne : csName.isEmpty = false := by simpa using hname
    have hspace := hlast d hd
    rcases hkind with rfl | rfl
    · show parseCore inet (L "pipe" ++ L "://" ++ csName) bListen rOut = _
      rw [parseCore_text (by decide) ⟨112, rfl, by decide⟩ ⟨d, hd, hspace⟩, dispatch_pipe inet hname]
    · show parseCore inet (L "dmx" ++ L "://" ++ csName) bListen rOut = _
      rw [parseCore_text (by decide) ⟨100, rfl, by decide⟩ ⟨d, hd, hspace⟩, dispatch_dmx inet hname]
  | serial _ uNum bDerived hmin hmax =>
    obtain ⟨d, hd⟩ : ∃ d, (fmtU uNum).getLast? = some d := by
      cases h : (fmtU uNum).getLast? with
      | none => exact absurd (List.getLast?_eq_none_iff.mp h) (fmtU_ne_nil uNum)
      | some d => exact ⟨d, rfl⟩
    have hspace := digit_not_space (fmtU_digits uNum d (List.mem_of_getLast? hd))
    show parseCore inet (L "serial" ++ L "://" ++ (L "COM" ++ fmtU uNum)) bListen rOut = _
    rw [parseCore_text (by decide) ⟨115, rfl, by decide⟩ ⟨d, ?_, hspace⟩, dispatch_serial, parseSerial_iff]
    · have hcom : kComPortMax ≤ kPortMax := by decide
      exact ⟨uNum, hport (by omega), hmin, hmax, rfl⟩
    · rw [List.getLast?_append, hd]
      rfl

theorem parse_accepts {inet : InetPton} {s : WStr} {bListen : Bool} {rOut ep : FacadeEndpoint} :
    ParseFacadeEndpoint inet s bListen rOut = (S_OK, ep) ↔ parseCore inet s bListen rOut = some ep := by
  unfold ParseFacadeEndpoint
  cases parseCore inet s bListen rOut with
  | none => simp
  | some e => simp

theorem parse_format {inet : InetPton} {bListen : Bool} {ep : FacadeEndpoint} (h : Canonical inet bListen ep)
    (rOut : FacadeEndpoint) :
    ParseFacadeEndpoint inet ep.Format bListen rOut = (S_OK, { ep with bDerived := rOut.bDerived }) :=
  parse_accepts.mpr (parseCore_format h rOut)

/-- The white space around a text says nothing. -/
theorem parse_trim {inet : InetPton} {s : WStr} (hs : Trim s ≠ []) (bListen : Bool) (rOut : FacadeEndpoint) :
    ParseFacadeEndpoint inet (Trim s) bListen rOut = ParseFacadeEndpoint inet s bListen rOut := by
  have hne : s ≠ [] := fun he => hs (by rw [he]; rfl)
  have htrim : Trim (Trim s) = Trim s := by rw [trim_eq, trim_eq, strip_strip]
  have h1 : (Trim s).isEmpty = false := by simpa using hs
  have h2 : s.isEmpty = false := by simpa using hne
  unfold ParseFacadeEndpoint parseCore
  rw [htrim, h1, h2]

/-- The host and the name are taken from the text. -/
theorem parseCore_chars {inet : InetPton} {s : WStr} {bListen : Bool} {rOut ep : FacadeEndpoint}
    (h : parseCore inet s bListen rOut = some ep) : ∀ c ∈ ep.csHost ++ ep.csName, c ∈ s := by
  obtain ⟨csScheme, csRest, hs, -, -, hd⟩ := parseCore_iff.mp h
  have htarget : ∀ c ∈ targetOf csRest, c ∈ s := by
    intro c hc
    have hrest : c ∈ csRest := by
      unfold targetOf at hc
      split at hc
      · exact List.mem_of_mem_drop hc
      · exact hc
    have htrim : c ∈ Trim s := by rw [hs]; simp [hrest]
    exact mem_of_mem_strip htrim
  unfold dispatch at hd
  split at hd
  · obtain ⟨csHost, csPort, bBracketed, uPort, f, hsplit, -, -, -, -, -, -, rfl⟩ := parseTcp_iff.mp hd
    intro c hc
    have hhost : c ∈ csHost := by
      cases bListen <;> simp at hc
      exact hc
    refine htarget c ?_
    cases bBracketed with
    | true => rw [(splitHostPort_bracketed.mp hsplit).1]; simp [hhost]
    | false => rw [(splitHostPort_bare.mp hsplit).1]; simp [hhost]
  split at hd
  · split at hd
    · cases hd
    · cases hd
      exact fun c hc => htarget c (by simpa using hc)
  · split at hd
    · obtain ⟨uCom, -, -, -, rfl⟩ := parseSerial_iff.mp hd
      simp
    · cases hd

/-- The scheme Format writes. -/
def FacadeEndpoint.scheme (ep : FacadeEndpoint) : WStr :=
  match ep.eKind with
  | .tcp => ep.eFamily.scheme
  | .pipe => L "pipe"
  | .dmx => L "dmx"
  | .serial => L "serial"

theorem format_scheme (ep : FacadeEndpoint) : ∃ csRest, ep.Format = ep.scheme ++ 58 :: csRest := by
  obtain ⟨eKind, csHost, csName, uNum, eFamily, bDerived⟩ := ep
  cases eKind with
  | tcp =>
    rw [format_tcp]
    exact ⟨47 :: 47 :: (hostText csHost ++ 58 :: fmtU uNum), by simp [FacadeEndpoint.scheme, L]⟩
  | pipe => exact ⟨47 :: 47 :: csName, rfl⟩
  | dmx => exact ⟨47 :: 47 :: csName, rfl⟩
  | serial => exact ⟨47 :: 47 :: (L "COM" ++ fmtU uNum), rfl⟩

theorem not_space {o : Option WChar} (h : (o.all fun c => !iswspace c) = true) : ∀ c ∈ o, iswspace c = false := by
  intro c hc
  obtain rfl : o = some c := hc
  simpa using h

/-- Whatever the endpoint, its text can only be read as one of its kind. -/
theorem parse_format_kind {inet : InetPton} {bListen : Bool} {ep rOut back : FacadeEndpoint}
    (h : parseCore inet ep.Format bListen rOut = some back) : back.eKind = ep.eKind := by
  obtain ⟨csRest, hfmt⟩ := format_scheme ep
  have hhead : ∀ d ∈ (ep.scheme ++ [58]).head?, iswspace d = false := by
    refine not_space ?_
    unfold FacadeEndpoint.scheme
    cases ep.eKind <;> cases ep.eFamily <;> rfl
  have hs : Trim ep.Format = ep.scheme ++ 58 :: csRest.rdropWhile iswspace := by
    rw [hfmt, trim_eq, strip_cut hhead (by decide +kernel)]
  have hcolon : 58 ∉ ep.scheme := by
    unfold FacadeEndpoint.scheme
    cases ep.eKind <;> cases ep.eFamily <;> decide
  have hne : ep.scheme ≠ [] := by
    unfold FacadeEndpoint.scheme
    cases ep.eKind <;> cases ep.eFamily <;> decide
  rw [parseCore_cut hs hcolon hne] at h
  unfold FacadeEndpoint.scheme at h
  cases hk : ep.eKind with
  | tcp =>
    rw [hk] at h
    simp only at h
    rw [dispatch_tcp] at h
    obtain ⟨csHost, csPort, bBracketed, uPort, f, -, -, -, -, -, -, -, rfl⟩ := parseTcp_iff.mp h
    rfl
  | pipe =>
    rw [hk] at h
    by_cases ht : targetOf (csRest.rdropWhile iswspace) = []
    · rw [ht] at h
      cases h
    · simp only at h
      rw [dispatch_pipe inet ht] at h
      cases h
      rfl
  | dmx =>
    rw [hk] at h
    by_cases ht : targetOf (csRest.rdropWhile iswspace) = []
    · rw [ht] at h
      cases h
    · simp only at h
      rw [dispatch_dmx inet ht] at h
      cases h
      rfl
  | serial =>
    rw [hk] at h
    simp only at h
    rw [dispatch_serial] at h
    obtain ⟨uCom, -, -, -, rfl⟩ := parseSerial_iff.mp h
    rfl

theorem format_serial {ep : FacadeEndpoint} : L "serial://" <+: ep.Format ↔ ep.eKind = .serial := by
  obtain ⟨eKind, csHost, csName, uNum, eFamily, bDerived⟩ := ep
  constructor
  · intro h
    have hhead : (FacadeEndpoint.Format ⟨eKind, csHost, csName, uNum, eFamily, bDerived⟩).head? = some 115 := by
      obtain ⟨t, ht⟩ := h
      rw [← ht]
      rfl
    cases eKind with
    | tcp =>
      rw [format_tcp] at hhead
      cases eFamily <;> simp [FacadeFamily.scheme, L] at hhead
    | pipe => simp [FacadeEndpoint.Format, L] at hhead
    | dmx => simp [FacadeEndpoint.Format, L] at hhead
    | serial => rfl
  · intro h
    have hk : eKind = .serial := h
    subst hk
    exact ⟨L "COM" ++ fmtU uNum, rfl⟩

/-- An accepted COM number is in range. -/
theorem parse_serial {inet : InetPton} {s : WStr} {bListen : Bool} {rOut ep : FacadeEndpoint}
    (h : parseCore inet s bListen rOut = some ep) (hk : ep.eKind = .serial) : Canonical inet bListen ep := by
  obtain ⟨csScheme, csRest, -, -, -, hd⟩ := parseCore_iff.mp h
  unfold dispatch at hd
  split at hd
  · obtain ⟨csHost, csPort, bBracketed, uPort, f, -, -, -, -, -, -, -, rfl⟩ := parseTcp_iff.mp hd
    cases hk
  split at hd
  · split at hd
    · cases hd
    · cases hd
      simp only at hk
      split at hk <;> cases hk
  · split at hd
    · obtain ⟨uCom, -, hmin, hmax, rfl⟩ := parseSerial_iff.mp hd
      exact .serial bListen uCom _ hmin hmax
    · cases hd

/-! ## The number that was written -/

/-- The digits an endpoint's text ends in. -/
def lastDigits (s : WStr) : WStr := (Trim s).rtakeWhile IsDigit

theorem lastDigits_eq {s u ds : WStr} (hs : Trim s = u ++ ds) (hu : ∀ c ∈ u.getLast?, IsDigit c = false)
    (hds : ds.all IsDigit = true) : lastDigits s = ds := by
  unfold lastDigits List.rtakeWhile
  rw [hs, List.reverse_append, List.takeWhile_append_of_pos (by simpa using hds)]
  have hstop : u.reverse.takeWhile IsDigit = [] := by
    cases hr : u.reverse with
    | nil => rfl
    | cons c r =>
      have hc : u.getLast? = some c := by rw [List.getLast?_eq_head?_reverse, hr]; rfl
      rw [List.takeWhile_cons, hu c hc]
      rfl
  rw [hstop]
  simp

/-- The target is the end of the text, after a colon or the slashes. -/
theorem targetOf_suffix (csRest : WStr) :
    ∃ u, 58 :: csRest = u ++ targetOf csRest ∧ ∃ c, u.getLast? = some c ∧ IsDigit c = false := by
  unfold targetOf
  by_cases h : (csRest.take 2 == L "//") = true
  · rw [if_pos h]
    refine ⟨58 :: L "//", ?_, 47, rfl, by decide⟩
    have htake : csRest.take 2 = L "//" := by simpa using h
    rw [← htake, List.cons_append, List.take_append_drop]
  · rw [if_neg h]
    exact ⟨[58], rfl, 58, rfl, by decide⟩

theorem port_written {inet : InetPton} {bAuto b4 b6 b46 bListen : Bool} {s u csTarget : WStr} {rOut ep : FacadeEndpoint}
    (hs : Trim s = u ++ csTarget) (h : parseTcp inet bAuto b4 b6 b46 csTarget bListen rOut = some ep) :
    ep.uNum = decimalValue (lastDigits s) := by
  obtain ⟨csHost, csPort, bBracketed, uPort, f, hsplit, hport, -, hmax, -, -, -, rfl⟩ := parseTcp_iff.mp h
  obtain ⟨-, hdigits, -⟩ := scanUInt_iff.mp hport
  obtain ⟨v, hv⟩ : ∃ v, csTarget = v ++ 58 :: csPort := by
    cases bBracketed with
    | true => exact ⟨91 :: csHost ++ [93], by rw [(splitHostPort_bracketed.mp hsplit).1]; simp⟩
    | false => exact ⟨csHost, (splitHostPort_bare.mp hsplit).1⟩
  have hlast : lastDigits s = csPort := by
    refine lastDigits_eq (u := u ++ v ++ [58]) (by rw [hs, hv]; simp) (fun c hc => ?_) hdigits
    obtain rfl : 58 = c := by simpa using hc
    decide
  rw [hlast]
  exact scanned_range hport hmax

theorem com_written {s u csTarget : WStr} {rOut ep : FacadeEndpoint} (hs : Trim s = u ++ csTarget)
    (hu : ∃ c, u.getLast? = some c ∧ IsDigit c = false) (h : parseSerial csTarget rOut = some ep) :
    ep.uNum = decimalValue (lastDigits s) := by
  obtain ⟨uCom, hscan, -, hmax, rfl⟩ := parseSerial_iff.mp h
  have hrange : uCom ≤ kPortMax := Nat.le_trans hmax (by decide)
  suffices hlast : lastDigits s = if IsScheme (csTarget.take 3) (L "COM") then csTarget.drop 3 else csTarget by
    rw [hlast]
    exact scanned_range hscan hrange
  obtain ⟨-, hdigits, -⟩ := scanUInt_iff.mp hscan
  by_cases hcom : IsScheme (csTarget.take 3) (L "COM") = true
  · rw [if_pos hcom] at hdigits ⊢
    -- the 'M' the digits follow
    obtain ⟨a, b, c, rest, rfl⟩ : ∃ a b c rest, csTarget = a :: b :: c :: rest := by
      rcases csTarget with _ | ⟨a, _ | ⟨b, _ | ⟨c, rest⟩⟩⟩
      · simp [IsScheme, L] at hcom
      · simp [IsScheme, L] at hcom
      · simp [IsScheme, L] at hcom
      · exact ⟨a, b, c, rest, rfl⟩
    have hm : lower c = 109 := by
      have := hcom
      simp only [IsScheme, List.take, List.map, beq_iff_eq] at this
      exact (List.cons.inj (List.cons.inj (List.cons.inj this).2).2).1
    refine lastDigits_eq (u := u ++ [a, b, c]) (by rw [hs]; simp) (fun d hd => ?_) hdigits
    obtain rfl : c = d := by simpa using hd
    cases hdig : IsDigit c with
    | false => rfl
    | true =>
      have hb : 48 ≤ c.toNat ∧ c.toNat ≤ 57 := by simpa [IsDigit, UInt16.le_iff_toNat_le] using hdig
      have hup : (decide (65 ≤ c) && decide (c ≤ 90)) = false := by
        have h65 : ¬ (65 : UInt16) ≤ c := by
          rw [UInt16.le_iff_toNat_le]
          show ¬ 65 ≤ c.toNat
          omega
        simp [h65]
      unfold lower at hm
      rw [if_neg (by rw [hup]; simp)] at hm
      subst hm
      exact absurd hb.2 (by decide)
  · rw [if_neg hcom] at hdigits ⊢
    obtain ⟨c, hc, hcd⟩ := hu
    refine lastDigits_eq hs (fun d hd => ?_) hdigits
    obtain rfl : c = d := by
      rw [hc] at hd
      simpa using hd
    exact hcd

/-- An accepted number is the value of the digits the text ends in, however many there are. -/
theorem number_written {inet : InetPton} {s : WStr} {bListen : Bool} {rOut ep : FacadeEndpoint}
    (h : parseCore inet s bListen rOut = some ep) (hkind : ep.eKind = .tcp ∨ ep.eKind = .serial) :
    ep.uNum = decimalValue (lastDigits s) := by
  obtain ⟨csScheme, csRest, hs, -, -, hd⟩ := parseCore_iff.mp h
  obtain ⟨u, hu, c, hc, hcd⟩ := targetOf_suffix csRest
  have hs' : Trim s = (csScheme ++ u) ++ targetOf csRest := by rw [hs, hu]; simp
  unfold dispatch at hd
  split at hd
  · exact port_written hs' hd
  split at hd
  · split at hd
    · cases hd
    · cases hd
      simp only at hkind
      split at hkind <;> rcases hkind with hk | hk <;> cases hk
  · split at hd
    · refine com_written hs' ⟨c, ?_, hcd⟩ hd
      rw [List.getLast?_append, hc]
      rfl
    · cases hd

/-! ## The codec -/

/-- What ParseFacadeEndpoint and Format promise each other of one text in one role. -/
structure EndpointCodec (inet : InetPton) (s : WStr) (bListen : Bool) : Prop where
  /-- An accepted endpoint's text is accepted, as that endpoint: its kind, host, name, number and
      family; `bDerived` is not the parse's to set. -/
  round : ∀ rOut ep, ParseFacadeEndpoint inet s bListen rOut = (S_OK, ep) → ∀ rOut',
    ParseFacadeEndpoint inet ep.Format bListen rOut' = (S_OK, { ep with bDerived := rOut'.bDerived })
  stable : ∀ rOut ep, ParseFacadeEndpoint inet s bListen rOut = (S_OK, ep) → ∀ rOut',
    (ParseFacadeEndpoint inet ep.Format bListen rOut').2.Format = ep.Format
  port : ∀ rOut ep, ParseFacadeEndpoint inet s bListen rOut = (S_OK, ep) → ep.eKind = .tcp →
    1 ≤ ep.uNum ∧ ep.uNum ≤ 65535 ∧ ep.uNum = decimalValue (lastDigits s)
  com : ∀ rOut ep, ParseFacadeEndpoint inet s bListen rOut = (S_OK, ep) → ep.eKind = .serial →
    1 ≤ ep.uNum ∧ ep.uNum ≤ 255 ∧ ep.uNum = decimalValue (lastDigits s)
  /-- The listener's form of a dial. -/
  listen : ∀ rOut ep, ParseFacadeEndpoint inet s bListen rOut = (S_OK, ep) → bListen = false → ep.eKind = .tcp →
    ∀ rOut', ∃ back, ParseFacadeEndpoint inet { ep with csHost := [] }.Format true rOut' = (S_OK, back) ∧
      back.eKind = .tcp ∧ back.uNum = ep.uNum ∧ back.eFamily = ep.eFamily
  refused : ∀ rOut, FAILED (ParseFacadeEndpoint inet s bListen rOut).1 = true →
    (ParseFacadeEndpoint inet s bListen rOut).2 = rOut

theorem canonical_port {inet : InetPton} {bListen : Bool} {ep : FacadeEndpoint} (h : Canonical inet bListen ep)
    (hk : ep.eKind = .tcp) : 1 ≤ ep.uNum ∧ ep.uNum ≤ kPortMax ∧ ep.csName = [] := by
  cases h with
  | listen uNum eFamily bDerived hmin hmax => exact ⟨hmin, hmax, rfl⟩
  | dial csHost uNum eFamily bDerived hmin hmax hhost => exact ⟨hmin, hmax, rfl⟩
  | named _ eKind csName bDerived hkind hname hlast =>
    have hk' : eKind = .tcp := hk
    rcases hkind with rfl | rfl <;> cases hk'
  | serial _ uNum bDerived hmin hmax => cases hk

theorem canonical_com {inet : InetPton} {bListen : Bool} {ep : FacadeEndpoint} (h : Canonical inet bListen ep)
    (hk : ep.eKind = .serial) : 1 ≤ ep.uNum ∧ ep.uNum ≤ kComPortMax := by
  cases h with
  | listen uNum eFamily bDerived hmin hmax => cases hk
  | dial csHost uNum eFamily bDerived hmin hmax hhost => cases hk
  | named _ eKind csName bDerived hkind hname hlast =>
    have hk' : eKind = .serial := hk
    rcases hkind with rfl | rfl <;> cases hk'
  | serial _ uNum bDerived hmin hmax => exact ⟨hmin, hmax⟩

/-- A tcp dial with its host cleared is a listener's endpoint. -/
theorem canonical_listen {inet : InetPton} {bListen : Bool} {ep : FacadeEndpoint} (h : Canonical inet bListen ep)
    (hk : ep.eKind = .tcp) : Canonical inet true { ep with csHost := [] } := by
  obtain ⟨hmin, hmax, hname⟩ := canonical_port h hk
  obtain ⟨eKind, csHost, csName, uNum, eFamily, bDerived⟩ := ep
  simp only at hk hname hmin hmax
  subst hk hname
  exact .listen uNum eFamily bDerived hmin hmax

theorem endpoint_codec {inet : InetPton} (hinet : inet.Literal) (s : WStr) (bListen : Bool) :
    EndpointCodec inet s bListen := by
  have hcan : ∀ {rOut ep}, ParseFacadeEndpoint inet s bListen rOut = (S_OK, ep) → Canonical inet bListen ep :=
    fun h => parseCore_canonical hinet (parse_accepts.mp h)
  refine ⟨fun rOut ep h rOut' => parse_format (hcan h) rOut', fun rOut ep h rOut' => ?_, fun rOut ep h hk => ?_,
    fun rOut ep h hk => ?_, fun rOut ep h _ hk rOut' => ?_, fun rOut hf => ?_⟩
  · rw [parse_format (hcan h) rOut']
    rfl
  · obtain ⟨hmin, hmax, -⟩ := canonical_port (hcan h) hk
    exact ⟨hmin, hmax, number_written (parse_accepts.mp h) (Or.inl hk)⟩
  · obtain ⟨hmin, hmax⟩ := canonical_com (hcan h) hk
    exact ⟨hmin, hmax, number_written (parse_accepts.mp h) (Or.inr hk)⟩
  · exact ⟨_, parse_format (canonical_listen (hcan h) hk) rOut', hk, rfl, rfl⟩
  · unfold ParseFacadeEndpoint at hf ⊢
    cases hp : parseCore inet s bListen rOut with
    | none => rfl
    | some ep => rw [hp] at hf; cases hf

/-- inet_pton of one IPv4 and two IPv6 addresses. -/
def inetSome : InetPton where
  v4 s := s == L "10.0.0.7"
  v6 s :=
    if s == L "::1" then some #v[0, 0, 0, 0, 0, 0, 0, 0, 0, 0, 0, 0, 0, 0, 0, 1]
    else if s == L "fe80::1" then some #v[0xfe, 0x80, 0, 0, 0, 0, 0, 0, 0, 0, 0, 0, 0, 0, 0, 1]
    else none

theorem inetSome_literal : inetSome.Literal := by
  constructor
  intro s hs
  by_cases h1 : s = L "::1"
  · rw [h1]; decide
  by_cases h2 : s = L "fe80::1"
  · rw [h2]; decide
  · simp [inetSome, h1, h2] at hs

/-- A link-local address with a zone and a padded port. -/
theorem endpoint_codec_zoned : EndpointCodec inetSome (L " TCP://[fe80::1%7]:0007788") false :=
  endpoint_codec inetSome_literal _ _

/-- The text it is written back as. -/
example : (ParseFacadeEndpoint inetSome (L " TCP://[fe80::1%7]:0007788") false {}).2.Format = L "tcp6://[fe80::1%7]:7788" := by
  decide +kernel

end TargetFacade
