/-
  TargetFacade.Lib.Words — words of a fixed width in a string of bytes.

  A `Codec` writes a word as `width` bytes and reads it back. `write` puts words one after the
  other, and `read n` takes the first `n` of them; what follows them does not matter. Reading
  what was written gives the words (`read_write`), and writing what was read gives the bytes
  (`write_read`).
-/

import Mathlib.Algebra.Order.Ring.Nat

namespace Words

universe u v

structure Codec (α : Type u) (β : Type v) where
  width : Nat
  enc : α → List β
  dec : List β → α
  length_enc : ∀ a, (enc a).length = width
  dec_enc : ∀ a, dec (enc a) = a
  enc_dec : ∀ bs, bs.length = width → enc (dec bs) = bs

variable {α : Type u} {β : Type v} (c : Codec α β)

def Codec.write (l : List α) : List β := l.flatMap c.enc

def Codec.read : Nat → List β → List α
  | 0, _ => []
  | n + 1, bs => c.dec (bs.take c.width) :: Codec.read n (bs.drop c.width)

theorem length_write (l : List α) : (c.write l).length = l.length * c.width := by
  induction l with
  | nil => simp [Codec.write]
  | cons a l ih =>
    unfold Codec.write at ih ⊢
    rw [List.flatMap_cons, List.length_append, ih, c.length_enc, List.length_cons, Nat.succ_mul]
    omega

@[simp] theorem length_read (n : Nat) (bs : List β) : (c.read n bs).length = n := by
  induction n generalizing bs with
  | zero => rfl
  | succ n ih => simp [Codec.read, ih]

theorem read_write (l : List α) (rest : List β) : c.read l.length (c.write l ++ rest) = l := by
  induction l with
  | nil => rfl
  | cons a l ih =>
    have hlen := c.length_enc a
    have hbytes : c.write (a :: l) ++ rest = c.enc a ++ (c.write l ++ rest) := by simp [Codec.write]
    have htake : (c.enc a ++ (c.write l ++ rest)).take c.width = c.enc a := by rw [← hlen, List.take_left]
    have hdrop : (c.enc a ++ (c.write l ++ rest)).drop c.width = c.write l ++ rest := by rw [← hlen, List.drop_left]
    rw [hbytes, List.length_cons, Codec.read, htake, hdrop, ih, c.dec_enc]

theorem write_read {n : Nat} {bs : List β} (h : n * c.width ≤ bs.length) : c.write (c.read n bs) = bs.take (n * c.width) := by
  induction n generalizing bs with
  | zero => simp [Codec.read, Codec.write]
  | succ n ih =>
    have hsplit : (n + 1) * c.width = c.width + n * c.width := by rw [Nat.succ_mul, Nat.add_comm]
    have hhead : (bs.take c.width).length = c.width := by
      rw [List.length_take]
      omega
    have htail := @ih (bs.drop c.width) (by rw [List.length_drop]; omega)
    have hcons : c.write (c.read (n + 1) bs) = c.enc (c.dec (bs.take c.width)) ++ c.write (c.read n (bs.drop c.width)) := by
      simp [Codec.read, Codec.write]
    rw [hcons, htail, c.enc_dec _ hhead, hsplit, List.take_add]

/-! ## Little-endian numbers -/

def leBytes : Nat → Nat → List UInt8
  | 0, _ => []
  | w + 1, n => (n % 256).toUInt8 :: leBytes w (n / 256)

def leNat : List UInt8 → Nat
  | [] => 0
  | b :: bs => b.toNat + 256 * leNat bs

@[simp] theorem length_leBytes (w n : Nat) : (leBytes w n).length = w := by
  induction w generalizing n with
  | zero => rfl
  | succ w ih => rw [leBytes, List.length_cons, ih]

theorem leNat_leBytes (w n : Nat) : leNat (leBytes w n) = n % 256 ^ w := by
  induction w generalizing n with
  | zero => simp [leBytes, leNat, Nat.mod_one]
  | succ w ih =>
    have hbyte : (n % 256).toUInt8.toNat = n % 256 := by
      show n % 256 % 256 = n % 256
      omega
    rw [leBytes, leNat, ih, hbyte, Nat.pow_succ', Nat.mod_mul]

end Words
