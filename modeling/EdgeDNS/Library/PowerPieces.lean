import Mathlib.Data.Nat.BitIndices
import Mathlib.Data.Nat.Log
import Mathlib.Tactic.Common

/-!
# Cutting a number into powers of two

A number is cut from the front into the largest power of two that is left of it and
does not exceed a given one, `2 ^ cap`, until nothing is left. `pieces` says what
comes out: the cap as often as it fits, and then the bits of the rest from the
highest down.

`pieces_eq_cons` is one cut, the pieces sum up to the number (`pieces_sum`), and
their count is the quotient by the cap and the number of bits of the rest
(`pieces_length`).
-/

set_option autoImplicit false

namespace PowerPieces

/-- The exponents of the pieces. -/
def exponents (total cap : Nat) : List Nat :=
  List.replicate (total / 2 ^ cap) cap ++ (total % 2 ^ cap).bitIndices.reverse

/-- The pieces that a number is cut into. -/
def pieces (total cap : Nat) : List Nat := (exponents total cap).map (2 ^ ·)

/-- The exponent of the first piece. -/
def firstExponent (total cap : Nat) : Nat := Nat.log 2 (min total (2 ^ cap))

variable {total cap : Nat}

/-- The highest bit of a number comes behind those of the rest. -/
theorem bitIndices_of_log {number exponent : Nat} (atLeast : 2 ^ exponent ≤ number)
    (below : number < 2 ^ (exponent + 1)) :
    number.bitIndices = (number - 2 ^ exponent).bitIndices ++ [exponent] := by
  have rest : number - 2 ^ exponent < 2 ^ exponent := by
    rw [pow_succ] at below
    omega
  have lower : ∀ index ∈ (number - 2 ^ exponent).bitIndices, index < exponent := by
    intro index member
    have inRest := Nat.two_pow_le_of_mem_bitIndices member
    exact (Nat.pow_lt_pow_iff_right (by decide)).mp (Nat.lt_of_le_of_lt inRest rest)
  have sorted : ((number - 2 ^ exponent).bitIndices ++ [exponent]).SortedLT := by
    rw [List.sortedLT_iff_pairwise, List.pairwise_append]
    refine ⟨Nat.bitIndices_sorted.pairwise, List.pairwise_singleton .., ?_⟩
    intro index member last isLast
    rw [List.mem_singleton.mp isLast]
    exact lower index member
  have sum : (((number - 2 ^ exponent).bitIndices ++ [exponent]).map (2 ^ ·)).sum = number := by
    rw [List.map_append, List.sum_append, Nat.sum_map_two_pow_bitIndices]
    simp only [List.map_cons, List.map_nil, List.sum_cons, List.sum_nil]
    omega
  rw [← Nat.bitIndices_sum_map_two_pow sorted, sum]

/-- **One cut**: the first piece is the largest power of two that fits, and the others
are those of the rest. -/
theorem exponents_eq_cons (positive : 1 ≤ total) :
    exponents total cap =
      firstExponent total cap :: exponents (total - 2 ^ firstExponent total cap) cap := by
  rcases Nat.lt_or_ge total (2 ^ cap) with small | large
  · have first : firstExponent total cap = Nat.log 2 total := by
      rw [firstExponent, Nat.min_eq_left (Nat.le_of_lt small)]
    have atLeast := Nat.pow_log_le_self 2 (Nat.one_le_iff_ne_zero.mp positive)
    have below := Nat.lt_pow_succ_log_self (by decide : 1 < 2) total
    have rest : total - 2 ^ Nat.log 2 total < 2 ^ cap := Nat.lt_of_le_of_lt (Nat.sub_le ..) small
    rw [first, exponents, exponents, Nat.div_eq_of_lt small, Nat.mod_eq_of_lt small,
      Nat.div_eq_of_lt rest, Nat.mod_eq_of_lt rest, bitIndices_of_log atLeast below]
    simp
  · have first : firstExponent total cap = cap := by
      rw [firstExponent, Nat.min_eq_right large, Nat.log_pow (by decide)]
    have quotient : total / 2 ^ cap = (total - 2 ^ cap) / 2 ^ cap + 1 :=
      Nat.div_eq_sub_div (Nat.two_pow_pos cap) large
    rw [first, exponents, exponents, quotient, List.replicate_succ, ← Nat.mod_eq_sub_mod large]
    rfl

theorem exponents_zero : exponents 0 cap = [] := by simp [exponents]

@[simp] theorem pieces_zero : pieces 0 cap = [] := by rw [pieces, exponents_zero, List.map_nil]

theorem pieces_eq_cons (positive : 1 ≤ total) :
    pieces total cap = 2 ^ firstExponent total cap ::
      pieces (total - 2 ^ firstExponent total cap) cap := by
  rw [pieces, exponents_eq_cons positive, List.map_cons, pieces]

/-- The first piece is taken from what is left, and does not exceed the cap. -/
theorem two_pow_firstExponent_le (positive : 1 ≤ total) :
    2 ^ firstExponent total cap ≤ min total (2 ^ cap) := by
  have room := Nat.two_pow_pos cap
  exact Nat.pow_log_le_self 2 (by omega)

theorem pieces_length :
    (pieces total cap).length = total / 2 ^ cap + (total % 2 ^ cap).bitIndices.length := by
  rw [pieces, exponents, List.length_map, List.length_append, List.length_replicate,
    List.length_reverse]

/-- **The pieces sum up to the number.** -/
theorem pieces_sum : (pieces total cap).sum = total := by
  rw [pieces, exponents, List.map_append, List.sum_append, List.map_replicate,
    List.sum_replicate_nat, List.map_reverse, List.sum_reverse, Nat.sum_map_two_pow_bitIndices,
    Nat.mul_comm]
  exact Nat.div_add_mod total (2 ^ cap)

/-- A piece is a power of two that does not exceed the first one. -/
theorem mem_pieces {piece : Nat} (member : piece ∈ pieces total cap) :
    ∃ exponent, piece = 2 ^ exponent ∧ exponent ≤ firstExponent total cap := by
  obtain ⟨exponent, isExponent, rfl⟩ := List.mem_map.mp member
  refine ⟨exponent, rfl, ?_⟩
  have inTotal : 2 ^ exponent ≤ total := by
    have inSum := List.single_le_sum (fun piece _ => Nat.zero_le piece) _ member
    rwa [pieces_sum] at inSum
  have inCap : exponent ≤ cap := by
    rcases List.mem_append.mp isExponent with isCap | isBit
    · exact (List.eq_of_mem_replicate isCap).le
    · have inRest := Nat.two_pow_le_of_mem_bitIndices (List.mem_reverse.mp isBit)
      have rest := Nat.mod_lt total (Nat.two_pow_pos cap)
      exact (Nat.pow_le_pow_iff_right (by decide)).mp
        (Nat.le_of_lt (Nat.lt_of_le_of_lt inRest rest))
  refine Nat.le_log_of_pow_le (by decide) (Nat.le_min.mpr ⟨inTotal, ?_⟩)
  exact Nat.pow_le_pow_right (by decide) inCap

end PowerPieces
