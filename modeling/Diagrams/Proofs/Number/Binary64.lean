import Diagrams.Number.Shortest
import Mathlib.Algebra.Order.Field.Power
import Mathlib.Algebra.Order.Field.Rat
import Mathlib.Data.Rat.Floor
import Mathlib.Tactic.FieldSimp
import Mathlib.Tactic.Linarith
import Mathlib.Tactic.Positivity

/-!
# Rounding to 53 bits

* `toBinary64_intCast`, `toBinary64_half`, `coordinateText_intCast` — whole numbers below `2 ^ 53`
  and their halves are kept, and the whole numbers are written as they are.
* `mul_two_zpow_le_toBinary64`, `toBinary64_le_mul_two_zpow` — a number is not rounded past a whole
  number of units that are not smaller than its last bit. So numbers between halves of small whole
  numbers stay between them (`toBinary64_mem_halves`).
* `two_pow_le_toBinary64`, `two_pow_le_nearest` — what is not below a power of two is not rounded
  below it.
-/

namespace Diagrams.Number

/-! ### The nearest integer -/

/-- A number that is not below a whole number is not rounded below it. -/
theorem le_nearestEven {m : Int} {q : Rat} (h : (m : Rat) ≤ q) : m ≤ nearestEven q := by
  have hfloor : m ≤ q.floor := Rat.le_floor_iff.mpr h
  unfold nearestEven
  dsimp only
  split_ifs <;> omega

/-- A whole number is rounded to itself. -/
theorem nearestEven_intCast (n : Int) : nearestEven n = n := by
  have hrest : (n : Rat) - (n : Rat).floor < 1 / 2 := by
    rw [Rat.floor_intCast]
    norm_num
  unfold nearestEven
  rw [if_pos hrest, Rat.floor_intCast]

/-- A number that is not above a whole number is not rounded above it. -/
theorem nearestEven_le {m : Int} {q : Rat} (h : q ≤ m) : nearestEven q ≤ m := by
  rcases h.lt_or_eq with hlt | rfl
  · have hfloor : q.floor < m := Rat.floor_lt_iff.mpr hlt
    unfold nearestEven
    dsimp only
    split_ifs <;> omega
  · rw [nearestEven_intCast]

/-! ### The last bit -/

/-- The last bit is not above the first guess. -/
theorem lastBit_le (q : Rat) :
    lastBit q ≤ max ((q.num.natAbs.log2 : Int) - q.den.log2 - 52) (-1074) := by
  unfold lastBit
  dsimp only
  split_ifs <;> omega

/-- It stands 53 places below the first power of two that the number does not reach. -/
theorem lastBit_le_of_abs_lt {q : Rat} {k : Nat} (h : |q| < 2 ^ k) :
    lastBit q ≤ max ((k : Int) - 53) (-1074) := by
  have habs : q.abs = |q| := by
    rcases le_total 0 q with hq | hq
    · rw [abs_of_nonneg hq, Rat.abs_of_nonneg hq]
    · rw [abs_of_nonpos hq, Rat.abs_of_nonpos hq]
  have hlog : q.num.natAbs.log2 ≤ k + q.den.log2 := by
    by_cases hzero : q.num.natAbs = 0
    · rw [hzero]
      exact Nat.zero_le _
    · have hden : (0 : Rat) < q.den := by exact_mod_cast q.den_pos
      have hnum : (q.num.natAbs : Rat) < 2 ^ k * q.den := by
        rw [← div_lt_iff₀ hden, Nat.cast_natAbs, Int.cast_abs, ← Nat.abs_cast q.den, ← abs_div,
          Rat.num_div_den]
        exact h
      refine Nat.le_of_lt_succ ((Nat.log2_lt hzero).mpr ?_)
      calc q.num.natAbs
          < 2 ^ k * q.den := by exact_mod_cast hnum
        _ ≤ 2 ^ k * 2 ^ (q.den.log2 + 1) := Nat.mul_le_mul_left _ (Nat.le_of_lt Nat.lt_log2_self)
        _ = 2 ^ (k + q.den.log2 + 1) := by rw [← Nat.pow_add, Nat.add_assoc]
  unfold lastBit
  dsimp only
  split_ifs with hshift
  · omega
  · -- otherwise the first guess is below the bound already
    have hguess : (q.num.natAbs.log2 : Int) - q.den.log2 - 52 < k - 52 := by
      by_contra hge
      refine hshift ?_
      rw [habs, div_lt_iff₀ (by positivity), ← zpow_add₀ (by norm_num)]
      calc |q|
          < (2 : Rat) ^ (k : Int) := by rwa [zpow_natCast]
        _ ≤ _ := zpow_le_zpow_right₀ (by norm_num) (by omega)
    omega

/-- A positive number has the place of its last bit, unless it is too small. -/
theorem two_pow_lastBit_le {q : Rat} (hq : 0 < q) (h : -1074 < lastBit q) :
    (2 : Rat) ^ lastBit q ≤ q := by
  have hnum : q.num.natAbs ≠ 0 := Int.natAbs_ne_zero.mpr (Rat.num_pos.mpr hq).ne'
  have hlow : (2 : Rat) ^ (q.num.natAbs.log2 : Int) ≤ q.num := by
    have habs : (q.num.natAbs : Int) = q.num := Int.natAbs_of_nonneg (Rat.num_pos.mpr hq).le
    rw [← habs, zpow_natCast]
    exact_mod_cast Nat.log2_self_le hnum
  have hhigh : (q.den : Rat) ≤ (2 : Rat) ^ (q.den.log2 + 1 : Int) := by
    exact_mod_cast Nat.le_of_lt (Nat.lt_log2_self (n := q.den))
  have hguess : lastBit q ≤ (q.num.natAbs.log2 : Int) - (q.den.log2 + 1) := by
    have := lastBit_le q
    omega
  calc (2 : Rat) ^ lastBit q
      ≤ (2 : Rat) ^ ((q.num.natAbs.log2 : Int) - (q.den.log2 + 1)) :=
        zpow_le_zpow_right₀ (by norm_num) hguess
    _ = (2 : Rat) ^ (q.num.natAbs.log2 : Int) / (2 : Rat) ^ (q.den.log2 + 1 : Int) :=
        zpow_sub₀ (by norm_num) _ _
    _ ≤ q.num / q.den := by
        gcongr
    _ = q := Rat.num_div_den q

/-! ### Rounding -/

section Units

variable {q : Rat} {n e : Int}

/-- Units that are not smaller than the last bit are whole numbers of last bits. -/
theorem exists_mul_two_zpow_eq (n : Int) (h : lastBit q ≤ e) :
    ∃ k : Int, (n : Rat) * 2 ^ e = k * 2 ^ lastBit q := by
  refine ⟨n * 2 ^ (e - lastBit q).toNat, ?_⟩
  have hplace : ((e - lastBit q).toNat : Int) = e - lastBit q := by omega
  rw [Int.cast_mul, Int.cast_pow, Int.cast_ofNat, ← zpow_natCast, hplace, mul_assoc,
    ← zpow_add₀ (by norm_num), Int.sub_add_cancel]

/-- A number is not rounded below a whole number of such units. -/
theorem mul_two_zpow_le_toBinary64 (hbit : lastBit q ≤ e) (h : n * 2 ^ e ≤ q) :
    n * 2 ^ e ≤ toBinary64 q := by
  by_cases hzero : q = 0
  · rwa [toBinary64, if_pos hzero, ← hzero]
  · obtain ⟨k, hk⟩ := exists_mul_two_zpow_eq n hbit
    have hscale : (0 : Rat) < 2 ^ lastBit q := by positivity
    rw [toBinary64, if_neg hzero, hk]
    gcongr
    apply le_nearestEven
    rwa [le_div_iff₀ hscale, ← hk]

/-- Nor is it rounded above one. -/
theorem toBinary64_le_mul_two_zpow (hbit : lastBit q ≤ e) (h : q ≤ n * 2 ^ e) :
    toBinary64 q ≤ n * 2 ^ e := by
  by_cases hzero : q = 0
  · rwa [toBinary64, if_pos hzero, ← hzero]
  · obtain ⟨k, hk⟩ := exists_mul_two_zpow_eq n hbit
    have hscale : (0 : Rat) < 2 ^ lastBit q := by positivity
    rw [toBinary64, if_neg hzero, hk]
    gcongr
    apply nearestEven_le
    rwa [div_le_iff₀ hscale, ← hk]

/-- A whole number of such units is kept. -/
theorem toBinary64_mul_two_zpow (h : lastBit (n * 2 ^ e) ≤ e) :
    toBinary64 (n * 2 ^ e) = n * 2 ^ e :=
  le_antisymm (toBinary64_le_mul_two_zpow h le_rfl) (mul_two_zpow_le_toBinary64 h le_rfl)

end Units

/-- Whole numbers below `2 ^ 53` are kept. -/
theorem toBinary64_intCast {n : Int} (h : n.natAbs < 2 ^ 53) : toBinary64 n = n := by
  have habs : |(n : Rat)| < 2 ^ 53 := by
    rw [← Int.cast_abs, ← Nat.cast_natAbs]
    exact_mod_cast h
  have hkept := toBinary64_mul_two_zpow (n := n) (e := 0)
  rw [zpow_zero, mul_one] at hkept
  exact hkept (lastBit_le_of_abs_lt habs)

/-- So are their halves. -/
theorem toBinary64_half {n : Int} (h : n.natAbs < 2 ^ 53) : toBinary64 (n / 2) = n / 2 := by
  have habs : |(n : Rat) / 2| < 2 ^ 52 := by
    rw [abs_div, ← Int.cast_abs, ← Nat.cast_natAbs, abs_two, div_lt_iff₀ (by norm_num)]
    exact_mod_cast h
  have hkept := toBinary64_mul_two_zpow (n := n) (e := -1)
  rw [zpow_neg_one, ← div_eq_mul_inv] at hkept
  exact hkept (lastBit_le_of_abs_lt habs)

/-- The whole numbers are written as they are. -/
theorem coordinateText_intCast {n : Int} (h : n.natAbs < 2 ^ 53) :
    coordinateText n = toString n := by
  rw [coordinateText, toBinary64_intCast h]
  exact if_pos (Rat.den_intCast n)

/-- A number that is not negative is not rounded below zero. -/
theorem toBinary64_nonneg {q : Rat} (h : 0 ≤ q) : 0 ≤ toBinary64 q := by
  have hbound := mul_two_zpow_le_toBinary64 (q := q) (n := 0) le_rfl
  rw [Int.cast_zero, zero_mul] at hbound
  exact hbound h

/-- A number between halves of whole numbers below `2 ^ 53` is rounded to one between them. -/
theorem toBinary64_mem_halves {q : Rat} {l m : Nat} (hm : m < 2 ^ 53) (hl : (l : Rat) / 2 ≤ q)
    (hq : q ≤ (m : Rat) / 2) : (l : Rat) / 2 ≤ toBinary64 q ∧ toBinary64 q ≤ (m : Rat) / 2 := by
  have hunits : ∀ k : Nat, (k : Rat) / 2 = (k : Int) * 2 ^ (-1 : Int) := by
    intro k
    rw [zpow_neg_one, div_eq_mul_inv, Int.cast_natCast]
  have hbit : lastBit q ≤ -1 := by
    apply lastBit_le_of_abs_lt (k := 52)
    have hnonneg : 0 ≤ q := le_trans (by positivity) hl
    rw [abs_of_nonneg hnonneg]
    refine lt_of_le_of_lt hq ?_
    rw [div_lt_iff₀ (by norm_num)]
    exact_mod_cast hm
  rw [hunits] at hl hq
  rw [hunits l, hunits m]
  exact ⟨mul_two_zpow_le_toBinary64 hbit hl, toBinary64_le_mul_two_zpow hbit hq⟩

/-- A number within a power of two is rounded to one within it. -/
theorem abs_toBinary64_le {q : Rat} {k : Nat} (h : |q| ≤ 2 ^ k) : |toBinary64 q| ≤ 2 ^ k := by
  have hlt : |q| < 2 ^ (k + 1) := h.trans_lt (pow_lt_pow_right₀ (by norm_num) (Nat.lt_succ_self k))
  have hbit : lastBit q ≤ k := by
    have hle := lastBit_le_of_abs_lt hlt
    omega
  have hunits : ∀ n : Int, (n : Rat) * 2 ^ (k : Int) = n * 2 ^ k := fun n => by rw [zpow_natCast]
  have hlow := mul_two_zpow_le_toBinary64 (n := -1) hbit
  have hhigh := toBinary64_le_mul_two_zpow (n := 1) hbit
  rw [hunits] at hlow hhigh
  push_cast at hlow hhigh
  rw [neg_one_mul] at hlow
  rw [one_mul] at hhigh
  exact abs_le.mpr ⟨hlow (abs_le.mp h).1, hhigh (abs_le.mp h).2⟩

/-- A number within a power of two that is not the last one lies in the range. -/
theorem inRange_binary64 {q : Rat} {k : Nat} (hk : k < 1024) (h : |q| ≤ 2 ^ k) :
    Arithmetic.binary64.inRange q = true := by
  have habs : q.abs = |q| := by
    rcases le_total 0 q with hq | hq
    · rw [abs_of_nonneg hq, Rat.abs_of_nonneg hq]
    · rw [abs_of_nonpos hq, Rat.abs_of_nonpos hq]
  have hend : (2 : Rat) ^ k < 2 ^ (1024 : Int) := by
    rw [← zpow_natCast]
    exact zpow_lt_zpow_right₀ (by norm_num) (by omega)
  exact decide_eq_true (habs ▸ h.trans_lt hend)

/-- What is not below a power of two is not rounded below it. -/
theorem two_pow_le_toBinary64 {q : Rat} {k : Nat} (h : (2 : Rat) ^ k ≤ q) :
    (2 : Rat) ^ k ≤ toBinary64 q := by
  have hpos : (0 : Rat) < 2 ^ k := by positivity
  have hq : 0 < q := lt_of_lt_of_le hpos h
  by_cases hbit : lastBit q ≤ k
  · have hbound := mul_two_zpow_le_toBinary64 (n := 1) hbit
    rw [Int.cast_one, one_mul, zpow_natCast] at hbound
    exact hbound h
  · -- the last bit itself is above the power of two
    have hbound := mul_two_zpow_le_toBinary64 (q := q) (n := 1) le_rfl
    rw [Int.cast_one, one_mul] at hbound
    calc (2 : Rat) ^ k
        ≤ 2 ^ lastBit q := by
          rw [← zpow_natCast]
          exact zpow_le_zpow_right₀ (by norm_num) (by omega)
      _ ≤ toBinary64 q := hbound (two_pow_lastBit_le hq (by omega))

/-- A number that is not below the end of the range does not lie in it. -/
theorem not_inRange_binary64 {q : Rat} (h : (2 : Rat) ^ 1024 ≤ q) :
    ¬Arithmetic.binary64.inRange q = true := by
  have habs : q.abs = q := Rat.abs_of_nonneg (le_trans (by positivity) h)
  have hend : (2 : Rat) ^ (1024 : Int) = 2 ^ 1024 := zpow_natCast 2 1024
  rw [Arithmetic.binary64, decide_eq_true_eq, habs, hend]
  exact not_lt.mpr h

/-- What is not below a power of two has no nearest integer below it. -/
theorem two_pow_le_nearest {q : Rat} {k : Nat} (h : (2 : Rat) ^ k ≤ q) :
    (2 : Int) ^ k ≤ Arithmetic.binary64.nearest q := by
  apply Rat.le_floor_iff.mpr
  push_cast
  apply two_pow_le_toBinary64
  linarith

end Diagrams.Number
