import Mathlib.Data.List.Perm.Subperm
import Mathlib.Data.Nat.Bitwise
import Mathlib.Data.Nat.ModEq
import Mathlib.Dynamics.PeriodicPts.Defs
import Mathlib.Tactic.Common
import Mathlib.Tactic.Ring

/-!
# Probing a cyclic table

A probe starts at some index and steps through the table until it meets an
index where it may stop. When the step returns to the start the whole cycle
has been passed in vain. `probeLoop` is that loop; `passed` lists the indices
it left behind.

The result depends on the table only through the stopping condition. Three
lemmas say how it changes with the condition: indices that stop no more do not
disturb a probe that went past or ended elsewhere (`probeLoop_of_shrink`), and
a new stopping index catches exactly the probes that pass it
(`probeLoop_of_notMem_passed`, `probeLoop_of_mem_passed`).

The last section is about the step `i ↦ (i + 1) &&& mask`. On the numbers
below the mask, it cycles through `2 ^ r` of them, where `r` counts the
trailing one bits of the mask (`maskedStep_iterate`, `trailingOnes_spec`), so
that the loop needs no more than `2 ^ r` steps.
-/

set_option autoImplicit false

namespace Probing

variable {Index : Type*} [DecidableEq Index]

/-- Step from `index` until the probe may stop (`some (some _)`) or the step
returns to `start` (`some none`). The outer `none` means that `fuel` steps were
not enough. -/
def probeLoop (next : Index → Index) (stop : Index → Bool) (start : Index) :
    Nat → Index → Option (Option Index)
  | 0, _ => none
  | fuel + 1, index =>
      if stop index then some (some index)
      else if next index = start then some none
      else probeLoop next stop start fuel (next index)

/-- The indices that the loop passes without stopping. -/
def passed (next : Index → Index) (stop : Index → Bool) (start : Index) :
    Nat → Index → List Index
  | 0, _ => []
  | fuel + 1, index =>
      if stop index then []
      else if next index = start then [index]
      else index :: passed next stop start fuel (next index)

section Loop

variable {next : Index → Index} {stop stop' : Index → Bool} {start found : Index}

/-- A probe ends where it may stop. -/
theorem stop_of_probeLoop : ∀ {fuel : Nat} {index : Index},
    probeLoop next stop start fuel index = some (some found) → stop found = true
  | 0, _, ended => by cases ended
  | fuel + 1, index, ended => by
      rw [probeLoop] at ended
      split at ended
      case isTrue stops =>
        cases ended
        exact stops
      case isFalse =>
        split at ended
        · cases ended
        · exact stop_of_probeLoop ended

/-- A property that the step keeps holds of the result. -/
theorem probeLoop_induction (property : Index → Prop)
    (keeps : ∀ index, property index → property (next index)) :
    ∀ {fuel : Nat} {index : Index}, property index →
      probeLoop next stop start fuel index = some (some found) → property found
  | 0, _, _, ended => by cases ended
  | fuel + 1, index, holds, ended => by
      rw [probeLoop] at ended
      split at ended
      · cases ended
        exact holds
      · split at ended
        · cases ended
        · exact probeLoop_induction property keeps (keeps index holds) ended

/-- **Fewer stopping indices.** A probe keeps its result as long as the result
still stops it. -/
theorem probeLoop_of_shrink (shrinks : ∀ index, stop' index = true → stop index = true)
    (stops : stop' found = true) : ∀ {fuel : Nat} {index : Index},
      probeLoop next stop start fuel index = some (some found) →
      probeLoop next stop' start fuel index = some (some found)
  | 0, _, ended => by cases ended
  | fuel + 1, index, ended => by
      rw [probeLoop] at ended ⊢
      by_cases here : stop index = true
      · rw [if_pos here] at ended
        cases ended
        rw [if_pos stops]
      · rw [if_neg here] at ended
        rw [if_neg fun early => here (shrinks index early)]
        split at ended
        · cases ended
        case isFalse goesOn =>
          rw [if_neg goesOn]
          exact probeLoop_of_shrink shrinks stops ended

/-- A probe does not stop at what it passes. -/
theorem not_stop_of_mem_passed : ∀ {fuel : Nat} {index : Index},
    found ∈ passed next stop start fuel index → stop found = false
  | 0, _, member => by cases member
  | fuel + 1, index, member => by
      rw [passed] at member
      split at member
      case isTrue => cases member
      case isFalse goesOn =>
        have here : stop index = false := Bool.eq_false_of_not_eq_true goesOn
        split at member
        · rwa [List.mem_singleton.mp member]
        · rcases List.mem_cons.mp member with rfl | later
          · exact here
          · exact not_stop_of_mem_passed later

/-- **A new stopping index off the path** does not change the result. -/
theorem probeLoop_of_notMem_passed {added : Index}
    (widens : ∀ index, stop' index = true ↔ stop index = true ∨ index = added) :
    ∀ {fuel : Nat} {index : Index},
      probeLoop next stop start fuel index = some (some found) →
      added ∉ passed next stop start fuel index →
      probeLoop next stop' start fuel index = some (some found)
  | 0, _, ended, _ => by cases ended
  | fuel + 1, index, ended, off => by
      rw [probeLoop] at ended ⊢
      rw [passed] at off
      by_cases here : stop index = true
      · rw [if_pos here] at ended
        rw [if_pos ((widens index).mpr (.inl here)), ended]
      · rw [if_neg here] at ended off
        have different : index ≠ added := by
          rintro rfl
          split at off <;> simp at off
        rw [if_neg fun early => ((widens index).mp early).elim here different]
        split at ended
        · cases ended
        case isFalse goesOn =>
          rw [if_neg goesOn] at off ⊢
          exact probeLoop_of_notMem_passed widens ended
            fun later => off (List.mem_cons_of_mem _ later)

/-- **A new stopping index on the path** catches the probe. -/
theorem probeLoop_of_mem_passed {added : Index}
    (widens : ∀ index, stop' index = true ↔ stop index = true ∨ index = added) :
    ∀ {fuel : Nat} {index : Index}, added ∈ passed next stop start fuel index →
      probeLoop next stop' start fuel index = some (some added)
  | 0, _, on => by cases on
  | fuel + 1, index, on => by
      rw [passed] at on
      rw [probeLoop]
      by_cases same : index = added
      · rw [if_pos ((widens index).mpr (.inr same)), same]
      · split at on
        · cases on
        case isFalse here =>
          rw [if_neg fun early => ((widens index).mp early).elim here same]
          split at on
          · exact absurd (List.mem_singleton.mp on).symm same
          case isFalse goesOn =>
            rw [if_neg goesOn]
            exact probeLoop_of_mem_passed widens
              ((List.mem_cons.mp on).resolve_left (Ne.symm same))

/-- A probe on a cycle needs no more fuel than the cycle has indices. -/
theorem probeLoop_isSome {period fuel : Nat} (closes : next^[period] start = start)
    (enough : period ≤ fuel) (pos : 0 < period) :
    (probeLoop next stop start fuel start).isSome := by
  suffices general : ∀ (fuel steps : Nat), steps < period → period ≤ steps + fuel →
      (probeLoop next stop start fuel (next^[steps] start)).isSome by
    simpa using general fuel 0 pos (by omega)
  intro fuel
  induction fuel with
  | zero =>
      intro steps short enough
      omega
  | succ fuel ih =>
      intro steps short enough
      rw [probeLoop]
      split
      · rfl
      · split
        · rfl
        case isFalse goesOn =>
          rw [← Function.iterate_succ_apply' next] at goesOn ⊢
          have notClosed : steps + 1 ≠ period := by
            rintro rfl
            exact goesOn closes
          exact ih (steps + 1) (by omega) (by omega)

/-- A probe that comes back to its start has passed the whole cycle. -/
theorem not_stop_of_exhausted : ∀ {fuel : Nat} {index : Index},
    probeLoop next stop start fuel index = some none →
      ∃ last, next^[last + 1] index = start ∧ ∀ steps ≤ last, stop (next^[steps] index) = false
  | 0, _, ended => by cases ended
  | fuel + 1, index, ended => by
      rw [probeLoop] at ended
      split at ended
      · cases ended
      · next continues =>
          have here : stop index = false := by simpa using continues
          split at ended
          · next closes =>
              refine ⟨0, closes, fun steps atMost => ?_⟩
              obtain rfl : steps = 0 := Nat.le_zero.mp atMost
              exact here
          · obtain ⟨last, closes, passes⟩ := not_stop_of_exhausted ended
            refine ⟨last + 1, by rwa [Function.iterate_succ_apply], fun steps atMost => ?_⟩
            cases steps with
            | zero => exact here
            | succ steps =>
                rw [Function.iterate_succ_apply]
                exact passes steps (Nat.le_of_succ_le_succ atMost)

/-- A probe ends at the first index that stops it. -/
theorem first_of_probeLoop : ∀ {fuel : Nat} {index : Index},
    probeLoop next stop start fuel index = some (some found) →
      ∃ steps, next^[steps] index = found ∧ stop found = true ∧
        ∀ earlier < steps, stop (next^[earlier] index) = false
  | 0, _, ended => by cases ended
  | fuel + 1, index, ended => by
      rw [probeLoop] at ended
      split at ended
      · next stops =>
          cases ended
          exact ⟨0, rfl, stops, fun _ below => absurd below (Nat.not_lt_zero _)⟩
      · next continues =>
          split at ended
          · cases ended
          · obtain ⟨steps, reached, stops, passes⟩ := first_of_probeLoop ended
            refine ⟨steps + 1, reached, stops, fun earlier below => ?_⟩
            cases earlier with
            | zero => simpa using continues
            | succ earlier => exact passes earlier (Nat.lt_of_succ_lt_succ below)

/-- **A probe on a cycle fails exactly when no index of the cycle stops it.** -/
theorem probeLoop_exhausted_iff {period fuel : Nat} (closes : next^[period] start = start)
    (enough : period ≤ fuel) (pos : 0 < period) :
    probeLoop next stop start fuel start = some none ↔
      ∀ steps < period, stop (next^[steps] start) = false := by
  constructor
  · intro exhausted steps _
    obtain ⟨last, returns, passes⟩ := not_stop_of_exhausted exhausted
    have periodic : Function.IsPeriodicPt next (last + 1) start := returns
    rw [← periodic.iterate_mod_apply]
    exact passes _ (Nat.lt_succ_iff.mp (Nat.mod_lt _ (Nat.succ_pos last)))
  · intro never
    have returns : (probeLoop next stop start fuel start).isSome :=
      probeLoop_isSome closes enough pos
    obtain ⟨result, ends⟩ := Option.isSome_iff_exists.mp returns
    cases result with
    | none => exact ends
    | some found =>
        obtain ⟨steps, rfl, stops, -⟩ := first_of_probeLoop ends
        have periodic : Function.IsPeriodicPt next period start := closes
        rw [← periodic.iterate_mod_apply, never _ (Nat.mod_lt _ pos)] at stops
        cases stops

/-- **A probe on a cycle finds the first index of the cycle that stops it.** -/
theorem probeLoop_found_iff {period fuel : Nat} (closes : next^[period] start = start)
    (enough : period ≤ fuel) (pos : 0 < period) :
    probeLoop next stop start fuel start = some (some found) ↔
      ∃ steps < period, next^[steps] start = found ∧ stop found = true ∧
        ∀ earlier < steps, stop (next^[earlier] start) = false := by
  have exhausted := @probeLoop_exhausted_iff _ _ next stop start period fuel closes enough pos
  constructor
  · intro ended
    obtain ⟨steps, reached, stops, passes⟩ := first_of_probeLoop ended
    refine ⟨steps, ?_, reached, stops, passes⟩
    by_contra long
    have never := exhausted.mpr fun earlier below =>
      passes earlier (Nat.lt_of_lt_of_le below (Nat.le_of_not_lt long))
    rw [never] at ended
    cases ended
  · rintro ⟨steps, below, rfl, stops, passes⟩
    obtain ⟨result, ended⟩ := Option.isSome_iff_exists.mp
      (@probeLoop_isSome _ _ next stop start period fuel closes enough pos)
    cases result with
    | none =>
        rw [exhausted.mp ended steps below] at stops
        cases stops
    | some other =>
        obtain ⟨steps', rfl, stops', passes'⟩ := first_of_probeLoop ended
        have same : steps' = steps := by
          rcases Nat.lt_trichotomy steps' steps with before | isSame | behind
          · rw [passes steps' before] at stops'
            cases stops'
          · exact isSame
          · rw [passes' steps behind] at stops
            cases stops
        rw [ended, same]

end Loop

/-! ## The masked increment -/

/-- Step to the next index under a mask. -/
def maskedStep (mask index : Nat) : Nat := (index + 1) &&& mask

/-- The mask ends in exactly `r` one bits. -/
def TrailingOnes (mask r : Nat) : Prop := ∃ high, mask = high * 2 ^ (r + 1) + (2 ^ r - 1)

/-- The number of one bits that a number ends in. -/
def trailingOnes (mask : Nat) : Nat :=
  if mask % 2 = 1 then trailingOnes (mask / 2) + 1 else 0
termination_by mask
decreasing_by omega

theorem trailingOnes_spec (mask : Nat) : TrailingOnes mask (trailingOnes mask) := by
  induction mask using Nat.strongRecOn with
  | ind mask ih =>
      rw [trailingOnes]
      split
      · next odd =>
          obtain ⟨high, isHalf⟩ := ih (mask / 2) (by omega)
          refine ⟨high, ?_⟩
          have positive := Nat.two_pow_pos (trailingOnes (mask / 2))
          have whole : mask = 2 * (mask / 2) + 1 := by omega
          calc mask = 2 * (mask / 2) + 1 := whole
            _ = 2 * (high * 2 ^ (trailingOnes (mask / 2) + 1) +
                  (2 ^ trailingOnes (mask / 2) - 1)) + 1 := by rw [← isHalf]
            _ = high * 2 ^ (trailingOnes (mask / 2) + 1 + 1) +
                  (2 ^ (trailingOnes (mask / 2) + 1) - 1) := by
                rw [pow_succ 2 (trailingOnes (mask / 2) + 1), ← Nat.mul_assoc,
                  pow_succ 2 (trailingOnes (mask / 2))]
                omega
      · next even => exact ⟨mask / 2, by rw [Nat.zero_add, pow_one, pow_zero]; omega⟩

/-- Masking with `r` trailing ones masks the high part and keeps the low `r`
bits. -/
theorem and_trailingOnes (value high r : Nat) :
    value &&& (high * 2 ^ (r + 1) + (2 ^ r - 1)) =
      ((value / 2 ^ (r + 1)) &&& high) * 2 ^ (r + 1) + value % 2 ^ r := by
  have lowBound : 2 ^ r - 1 < 2 ^ (r + 1) := by
    have := Nat.pow_lt_pow_succ (n := r) (a := 2) (by omega)
    omega
  have modBound : value % 2 ^ r < 2 ^ (r + 1) :=
    lt_trans (Nat.mod_lt _ (Nat.two_pow_pos r)) (Nat.pow_lt_pow_succ (by omega))
  apply Nat.eq_of_testBit_eq
  intro bit
  rw [Nat.testBit_and, Nat.mul_comm high, Nat.mul_comm (_ &&& high),
    Nat.testBit_two_pow_mul_add _ lowBound, Nat.testBit_two_pow_mul_add _ modBound]
  by_cases low : bit < r + 1
  · simp only [low, if_true, Nat.testBit_two_pow_sub_one, Nat.testBit_mod_two_pow]
    rw [Bool.and_comm]
  · simp only [low, if_false, Nat.testBit_and, Nat.testBit_div_two_pow]
    rw [Nat.sub_add_cancel (by omega)]

/-- The masked increment runs through the low `r` bits and never touches the
others. -/
theorem maskedStep_eq {mask r : Nat} (ones : TrailingOnes mask r) {base low : Nat}
    (inside : base * 2 ^ r + low &&& mask = base * 2 ^ r + low) (small : low < 2 ^ r) :
    maskedStep mask (base * 2 ^ r + low) = base * 2 ^ r + (low + 1) % 2 ^ r := by
  obtain ⟨high, rfl⟩ := ones
  rw [and_trailingOnes] at inside
  rw [maskedStep, and_trailingOnes]
  have pos : 0 < 2 ^ r := Nat.two_pow_pos r
  have double : 2 ^ (r + 1) = 2 * 2 ^ r := by ring
  have lowMod : (base * 2 ^ r + low) % 2 ^ r = low := by
    rw [Nat.mul_comm, Nat.mul_add_mod, Nat.mod_eq_of_lt small]
  have nextMod : (base * 2 ^ r + low + 1) % 2 ^ r = (low + 1) % 2 ^ r := by
    rw [Nat.mul_comm, Nat.add_assoc, Nat.mul_add_mod]
  rw [lowMod] at inside
  rw [nextMod]
  -- the high part of the index is masked already and has its lowest bit clear
  have highPart : ((base * 2 ^ r + low) / 2 ^ (r + 1) &&& high) * 2 ^ (r + 1) = base * 2 ^ r := by
    omega
  have evenBase : base % 2 = 0 := by
    have cancelled : 2 * ((base * 2 ^ r + low) / 2 ^ (r + 1) &&& high) = base := by
      apply Nat.eq_of_mul_eq_mul_right pos
      calc 2 * ((base * 2 ^ r + low) / 2 ^ (r + 1) &&& high) * 2 ^ r
          = ((base * 2 ^ r + low) / 2 ^ (r + 1) &&& high) * 2 ^ (r + 1) := by
            generalize (base * 2 ^ r + low) / 2 ^ (r + 1) &&& high = part
            rw [double]
            ring
        _ = base * 2 ^ r := highPart
    omega
  have sameHigh : (base * 2 ^ r + low + 1) / 2 ^ (r + 1) = (base * 2 ^ r + low) / 2 ^ (r + 1) := by
    obtain ⟨half, halfEq⟩ : ∃ half, base = 2 * half := ⟨base / 2, by omega⟩
    subst halfEq
    have shape : ∀ rest < 2 * 2 ^ r, (2 * half * 2 ^ r + rest) / 2 ^ (r + 1) = half := by
      intro rest bound
      rw [double, show 2 * half * 2 ^ r = 2 * 2 ^ r * half by ring,
        Nat.mul_add_div (by omega), Nat.div_eq_of_lt bound, Nat.add_zero]
    rw [Nat.add_assoc, shape _ (by omega), shape _ (by omega)]
  rw [sameHigh, highPart]

/-- **The orbit of the masked increment.** -/
theorem maskedStep_iterate {mask r : Nat} (ones : TrailingOnes mask r) {base low : Nat}
    (inside : base * 2 ^ r + low &&& mask = base * 2 ^ r + low) (small : low < 2 ^ r)
    (steps : Nat) :
    (maskedStep mask)^[steps] (base * 2 ^ r + low) = base * 2 ^ r + (low + steps) % 2 ^ r := by
  induction steps with
  | zero => simp [Nat.mod_eq_of_lt small]
  | succ steps ih =>
      have masked : base * 2 ^ r + (low + steps) % 2 ^ r &&& mask =
          base * 2 ^ r + (low + steps) % 2 ^ r := by
        rw [← ih]
        cases steps with
        | zero => simpa using inside
        | succ steps =>
            rw [Function.iterate_succ_apply', maskedStep, Nat.and_assoc, Nat.and_self]
      rw [Function.iterate_succ_apply', ih,
        maskedStep_eq ones masked (Nat.mod_lt _ (Nat.two_pow_pos r)), Nat.mod_add_mod,
        Nat.add_assoc]

/-- A masked value, split at the trailing ones. -/
theorem and_split (value mask r : Nat) :
    (value &&& mask) / 2 ^ r * 2 ^ r + (value &&& mask) % 2 ^ r = value &&& mask := by
  rw [Nat.mul_comm]
  exact Nat.div_add_mod _ _

/-- The orbit of a masked value stays in its block of `2 ^ r` indices. -/
theorem maskedStep_iterate_and {mask r : Nat} (ones : TrailingOnes mask r) (value steps : Nat) :
    (maskedStep mask)^[steps] (value &&& mask) =
      (value &&& mask) / 2 ^ r * 2 ^ r + ((value &&& mask) % 2 ^ r + steps) % 2 ^ r := by
  have inside : (value &&& mask) / 2 ^ r * 2 ^ r + (value &&& mask) % 2 ^ r &&& mask =
      (value &&& mask) / 2 ^ r * 2 ^ r + (value &&& mask) % 2 ^ r := by
    rw [and_split, Nat.and_assoc, Nat.and_self]
  rw [← maskedStep_iterate ones inside (Nat.mod_lt _ (Nat.two_pow_pos r)) steps, and_split]

/-- After `2 ^ r` steps the masked increment is back where it started. -/
theorem maskedStep_iterate_period {mask r : Nat} (ones : TrailingOnes mask r) (value : Nat) :
    (maskedStep mask)^[2 ^ r] (value &&& mask) = value &&& mask := by
  rw [maskedStep_iterate_and ones, Nat.add_mod_right, Nat.mod_mod, and_split]

/-- The orbit of a masked value stays below the size of the table. -/
theorem maskedStep_iterate_le (value mask steps : Nat) :
    (maskedStep mask)^[steps] (value &&& mask) ≤ mask := by
  cases steps with
  | zero => exact Nat.and_le_right
  | succ steps =>
      rw [Function.iterate_succ_apply']
      exact Nat.and_le_right

/-- The indices of a cycle are different. -/
theorem maskedStep_iterate_injective {mask r : Nat} (ones : TrailingOnes mask r) (value : Nat)
    {first second : Nat} (isFirst : first < 2 ^ r) (isSecond : second < 2 ^ r)
    (same : (maskedStep mask)^[first] (value &&& mask) =
      (maskedStep mask)^[second] (value &&& mask)) : first = second := by
  rw [maskedStep_iterate_and ones, maskedStep_iterate_and ones] at same
  have congruent : first ≡ second [MOD 2 ^ r] :=
    Nat.ModEq.add_left_cancel' _ (Nat.add_left_cancel same)
  rwa [Nat.ModEq, Nat.mod_eq_of_lt isFirst, Nat.mod_eq_of_lt isSecond] at congruent

/-- **A masked probe fails exactly when nothing in its block of `2 ^ r` indices
stops it.** -/
theorem probeLoop_masked_exhausted_iff {mask r : Nat} (ones : TrailingOnes mask r) {fuel : Nat}
    (enough : 2 ^ r ≤ fuel) (value : Nat) {stop : Nat → Bool} :
    probeLoop (maskedStep mask) stop (value &&& mask) fuel (value &&& mask) = some none ↔
      ∀ low < 2 ^ r, stop ((value &&& mask) / 2 ^ r * 2 ^ r + low) = false := by
  have pos : 0 < 2 ^ r := Nat.two_pow_pos r
  rw [probeLoop_exhausted_iff (maskedStep_iterate_period ones value) enough pos]
  simp only [maskedStep_iterate_and ones]
  generalize (value &&& mask) / 2 ^ r * 2 ^ r = base
  have bound := Nat.mod_lt (value &&& mask) pos
  generalize (value &&& mask) % 2 ^ r = first at bound
  constructor
  · intro never low below
    rcases Nat.lt_or_ge low first with before | behind
    · have hit := never (low + 2 ^ r - first) (by omega)
      rwa [show first + (low + 2 ^ r - first) = low + 2 ^ r by omega, Nat.add_mod_right,
        Nat.mod_eq_of_lt below] at hit
    · have hit := never (low - first) (by omega)
      rwa [Nat.add_sub_cancel' behind, Nat.mod_eq_of_lt below] at hit
  · exact fun never steps _ => never _ (Nat.mod_lt _ pos)

/-- A masked probe finds an index exactly when one of its block stops it. -/
theorem probeLoop_masked_ne_none_iff {mask r : Nat} (ones : TrailingOnes mask r) {fuel : Nat}
    (enough : 2 ^ r ≤ fuel) (value : Nat) {stop : Nat → Bool} :
    (probeLoop (maskedStep mask) stop (value &&& mask) fuel (value &&& mask)).join ≠ none ↔
      ∃ low < 2 ^ r, stop ((value &&& mask) / 2 ^ r * 2 ^ r + low) = true := by
  have returns : (probeLoop (maskedStep mask) stop (value &&& mask) fuel (value &&& mask)).isSome :=
    probeLoop_isSome (maskedStep_iterate_period ones value) enough (Nat.two_pow_pos r)
  obtain ⟨result, ends⟩ := Option.isSome_iff_exists.mp returns
  have fails := @probeLoop_masked_exhausted_iff mask r ones fuel enough value stop
  rw [ends, Option.some_inj] at fails
  rw [ends, Option.join_some, ne_eq, fails]
  simp only [not_forall, Bool.not_eq_false, exists_prop]

/-- A masked index lies below the size of the table. -/
theorem and_lt_succ (value mask : Nat) : value &&& mask < mask + 1 :=
  Nat.lt_succ_of_le Nat.and_le_right

/-! ## The values under a mask -/

/-- The values that a mask of the given width lets through, bit by bit. -/
def submasks : Nat → Nat → List Nat
  | 0, _ => [0]
  | bits + 1, mask =>
      (submasks bits (mask / 2)).flatMap fun high =>
        if mask % 2 = 1 then [2 * high, 2 * high + 1] else [2 * high]

theorem and_mem_submasks {bits mask : Nat} (small : mask < 2 ^ bits) (value : Nat) :
    value &&& mask ∈ submasks bits mask := by
  induction bits generalizing mask value with
  | zero =>
      obtain rfl : mask = 0 := by omega
      simp [submasks]
  | succ bits ih =>
      have high : value / 2 &&& mask / 2 ∈ submasks bits (mask / 2) :=
        ih (by rw [Nat.pow_succ] at small; omega) (value / 2)
      have halves : (value &&& mask) / 2 = value / 2 &&& mask / 2 := Nat.and_div_two
      have parity : (value &&& mask) % 2 = 1 ↔ value % 2 = 1 ∧ mask % 2 = 1 :=
        Nat.and_mod_two_eq_one
      rw [submasks, List.mem_flatMap]
      refine ⟨_, high, ?_⟩
      split <;> simp only [List.mem_cons, List.not_mem_nil, or_false] <;> omega

/-- **Cells with different masked values are no more than the values.** -/
theorem length_le_submasks {bits mask : Nat} (small : mask < 2 ^ bits) {cells : List Nat}
    (distinct : cells.Nodup) {slot : Nat → Nat}
    (masked : ∀ cell, ∃ value, slot cell = value &&& mask)
    (injective : ∀ first ∈ cells, ∀ second ∈ cells, slot first = slot second → first = second) :
    cells.length ≤ (submasks bits mask).length := by
  have slotsDistinct : (cells.map slot).Nodup :=
    List.Nodup.map_on injective distinct
  have among : cells.map slot ⊆ submasks bits mask := by
    intro value member
    obtain ⟨cell, -, rfl⟩ := List.mem_map.mp member
    obtain ⟨whole, isMasked⟩ := masked cell
    rw [isMasked]
    exact and_mem_submasks small whole
  simpa using (List.subperm_of_subset slotsDistinct among).length_le

end Probing
