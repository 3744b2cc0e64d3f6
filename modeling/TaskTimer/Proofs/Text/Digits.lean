/-
TaskTimer.Proofs.Text.Digits — a numeral denotes the number it was written for.

For base sixteen this is `ofHex?_hex`, with the width as the only condition. For base ten there are
the three facts that a reader of numbers rests on: a numeral has digits only, it has a zero in front
only for zero itself, and its digits add up to the number (`numeral_decimal`).
-/
import Mathlib.Algebra.Ring.Nat
import TaskTimer.Json.Token

namespace TaskTimer

namespace Digits

/-- Reading goes on behind a numeral with its number as the part read so far. -/
theorem ofHex?_hex_append (acc width n : Nat) (rest : List Char) :
    ofHex? acc (hex width n ++ rest) = ofHex? (16 ^ width * acc + n % 16 ^ width) rest := by
  induction width generalizing n rest with
  | zero => simp [hex, Nat.mod_one]
  | succ width ih =>
    have hdigit : n % 16 < 16 := Nat.mod_lt n (by decide)
    have hsplit : n % 16 ^ (width + 1) = n % 16 + 16 * (n / 16 % 16 ^ width) := by
      rw [Nat.pow_succ', Nat.mod_mul]
    rw [hex, List.append_assoc, ih, List.singleton_append, ofHex?, value?_ofValue hdigit, hsplit,
      Nat.pow_succ', Nat.mul_assoc]
    show ofHex? _ rest = ofHex? _ rest
    congr 1
    omega

/-- A numeral that is wide enough denotes its number. -/
theorem ofHex?_hex {width n : Nat} (h : n < 16 ^ width) : ofHex? 0 (hex width n) = some n := by
  have := ofHex?_hex_append 0 width n []
  rwa [List.append_nil, Nat.mul_zero, Nat.zero_add, Nat.mod_eq_of_lt h] at this

/-- A numeral begins with a digit. -/
theorem hex_eq_cons (width n : Nat) :
    ∃ v ds, v < 16 ∧ hex (width + 1) n = ofValue v :: ds := by
  induction width generalizing n with
  | zero => exact ⟨n % 16, [], Nat.mod_lt n (by decide), rfl⟩
  | succ width ih =>
    obtain ⟨v, ds, hv, hds⟩ := ih (n / 16)
    exact ⟨v, ds ++ [ofValue (n % 16)], hv, by rw [hex, hds, List.cons_append]⟩

theorem toNat_ofValue {n : Nat} (h : n < 10) : (ofValue n).toNat = 48 + n := by
  have : ∀ m : Fin 10, (ofValue m.val).toNat = 48 + m.val := by decide
  exact this ⟨n, h⟩

theorem isDigit_ofValue {n : Nat} (h : n < 10) : Json.isDigit (ofValue n) = true := by
  rw [Json.isDigit, toNat_ofValue h, decide_eq_true_iff]
  omega

theorem isDigit_of_mem_decimal {n : Nat} {c : Char} (h : c ∈ decimal n) :
    Json.isDigit c = true := by
  fun_induction decimal n with
  | case1 n hn =>
    rw [List.mem_singleton] at h
    exact h ▸ isDigit_ofValue hn
  | case2 n hn ih =>
    rw [List.mem_append, List.mem_singleton] at h
    rcases h with h | h
    · exact ih h
    · exact h ▸ isDigit_ofValue (Nat.mod_lt n (by decide))

/-- A numeral of a positive number does not begin with a zero. -/
theorem decimal_eq_cons_of_pos {n : Nat} (h : 0 < n) :
    ∃ v ds, 0 < v ∧ v < 10 ∧ decimal n = ofValue v :: ds := by
  fun_induction decimal n with
  | case1 n hn => exact ⟨n, [], h, hn, rfl⟩
  | case2 n hn ih =>
    obtain ⟨v, ds, hpos, hlt, hds⟩ := ih (by omega)
    exact ⟨v, ds ++ [ofValue (n % 10)], hpos, hlt, by rw [hds, List.cons_append]⟩

theorem decimal_zero : decimal 0 = ['0'] := by
  rw [decimal]
  rfl

theorem decimal_eq_cons (n : Nat) : ∃ c ds, decimal n = c :: ds ∧ Json.isDigit c = true := by
  rcases Nat.eq_zero_or_pos n with rfl | hpos
  · exact ⟨'0', [], decimal_zero, rfl⟩
  · obtain ⟨v, ds, -, hlt, hds⟩ := decimal_eq_cons_of_pos hpos
    exact ⟨ofValue v, ds, hds, isDigit_ofValue hlt⟩

/-- The digits of a numeral add up to its number. -/
theorem numeral_decimal (n : Nat) : Json.numeral (decimal n) = n := by
  fun_induction decimal n with
  | case1 n hn => simp [Json.numeral, toNat_ofValue hn]
  | case2 n hn ih =>
    have hdigit : n % 10 < 10 := Nat.mod_lt n (by decide)
    rw [Json.numeral] at ih ⊢
    rw [List.foldl_append, ih, List.foldl_cons, List.foldl_nil, toNat_ofValue hdigit]
    omega

end Digits

end TaskTimer
