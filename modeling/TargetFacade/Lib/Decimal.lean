/-
  TargetFacade.Lib.Decimal — the value of a run of decimal digits, and a reader of it that
  saturates.

  `saturated_eq`: a reader that caps its sum at every digit has the capped value at the end,
  however long the run is. `value_toDigits`: what a number is printed as has its value.
-/

namespace Decimal

/-- The value of the digits read after `acc`. -/
def value (acc : Nat) (ds : List Nat) : Nat := ds.foldl (fun a d => a * 10 + d) acc

def saturated (cap acc : Nat) (ds : List Nat) : Nat := ds.foldl (fun a d => min (a * 10 + d) cap) acc

theorem saturated_eq (cap : Nat) : ∀ (ds : List Nat) (acc : Nat),
    saturated cap (min acc cap) ds = min (value acc ds) cap := by
  intro ds
  induction ds with
  | nil => intro acc; rfl
  | cons d ds ih =>
    intro acc
    have hstep : min (min acc cap * 10 + d) cap = min (acc * 10 + d) cap := by omega
    show saturated cap (min (min acc cap * 10 + d) cap) ds = min (value (acc * 10 + d) ds) cap
    rw [hstep]
    exact ih (acc * 10 + d)

theorem value_digitChars (acc : Nat) (cs : List Char) :
    value acc (cs.map fun c => c.toNat - 48) = Nat.ofDigitChars 10 cs acc := by
  induction cs generalizing acc with
  | nil => rfl
  | cons c cs ih =>
    rw [List.map_cons, Nat.ofDigitChars_cons, ← ih]
    have hcomm : acc * 10 + (c.toNat - 48) = 10 * acc + (c.toNat - '0'.toNat) := by
      rw [Nat.mul_comm]; rfl
    show value (acc * 10 + (c.toNat - 48)) _ = _
    rw [hcomm]

theorem value_toDigits (n : Nat) : value 0 ((Nat.toDigits 10 n).map fun c => c.toNat - 48) = n := by
  rw [value_digitChars, Nat.ofDigitChars_ten_toDigits]

end Decimal
