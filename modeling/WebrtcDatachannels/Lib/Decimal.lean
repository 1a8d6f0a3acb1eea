import Mathlib.Data.List.Basic
import Mathlib.Tactic.Common

/-!
# Decimal numbers below a bound

A number of a fixed-width unsigned type is read from its decimal digits, which a `+` may precede; a
text that is no such number, or one of a number that does not fit, is refused. A number below the
bound is read back from its text (`parse_toString`).
-/

namespace Decimal

variable {bound n : Nat} {l : List Char}

/-- A digit read behind the number `n`. -/
def readDigit (bound n : Nat) (c : Char) : Option Nat :=
  if c.isDigit then
    let m := 10 * n + (c.toNat - '0'.toNat)
    if m < bound then some m else none
  else none

/-- The number that a text writes, if it is below the bound. -/
def parse (bound : Nat) (s : String) : Option Nat :=
  match s.toList with
  | [] => none
  | '+' :: [] => none
  | '+' :: digits => digits.foldlM (readDigit bound) 0
  | digits => digits.foldlM (readDigit bound) 0

/-- Digits of a number that is not too large are read. -/
theorem foldlM_readDigit (hl : ∀ c ∈ l, c.isDigit = true)
    (h : Nat.ofDigitChars 10 l n < bound) :
    l.foldlM (readDigit bound) n = some (Nat.ofDigitChars 10 l n) := by
  induction l generalizing n with
  | nil => simp
  | cons c l ih =>
    obtain ⟨hc, hl⟩ := List.forall_mem_cons.1 hl
    rw [Nat.ofDigitChars_cons] at h ⊢
    have hlt : 10 * n + (c.toNat - '0'.toNat) < bound := by
      refine Nat.lt_of_le_of_lt ?_ h
      rw [Nat.ofDigitChars_eq_ofDigitChars_zero]
      exact Nat.le_trans (Nat.le_mul_of_pos_left _ (Nat.pow_pos (by decide))) (Nat.le_add_right _ _)
    rw [List.foldlM_cons, readDigit, if_pos hc]
    dsimp only
    rw [if_pos hlt]
    exact ih hl h

/-- A number that is printed is read back. -/
theorem parse_toString (h : n < bound) : parse bound (toString n) = some n := by
  have hdigits : ∀ c ∈ Nat.toDigits 10 n, c.isDigit = true :=
    fun c hc => Nat.isDigit_of_mem_toDigits (by decide) (by decide) hc
  have hread := @foldlM_readDigit bound 0 _ hdigits
    (by rwa [Nat.ofDigitChars_ten_toDigits])
  rw [Nat.ofDigitChars_ten_toDigits] at hread
  have hlist : (toString n).toList = Nat.toDigits 10 n := Nat.toList_repr
  have hplus : ∀ digits, Nat.toDigits 10 n ≠ '+' :: digits := by
    intro digits heq
    have hc := hdigits '+' (by rw [heq]; exact List.mem_cons_self)
    simp at hc
  unfold parse
  rw [hlist]
  split
  · next heq => exact absurd heq Nat.toDigits_ne_nil
  · next heq => exact absurd heq (hplus _)
  · next heq => exact absurd heq (hplus _)
  · exact hread

end Decimal
