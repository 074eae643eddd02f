import Mathlib.Algebra.Order.Floor.Ring
import Mathlib.Algebra.Order.Group.MinMax
import Mathlib.Data.Rat.Floor
import Mathlib.Data.Int.Log
import Mathlib.Tactic.Linarith
import Mathlib.Tactic.Positivity
import Mathlib.Tactic.FieldSimp

/-!
# Python floats in exact arithmetic

A float is a rational, one of the two infinities, or a NaN. Sums, products
and comparisons are those of the IEEE special cases, with no rounding
between rationals. Every ordering comparison with a NaN is false, so `<`
and `≤` are two relations and neither is the negation of the other.

`pyMin` and `pyMax` are the two-argument built-ins. They keep their first
argument when the comparison is false, which is what a clamp
`max(lo, min(hi, v))` does with a NaN : `pyClamp_mem` puts the clamp of
every float, NaN included, between its bounds.

`roundHalfEven` is the built-in `round` on a rational. `PyFloat.round`
raises on an infinity and on a NaN.
-/

namespace A1Bsw

/-- The exceptions of the built-in operations the sources call. -/
inductive PyError where
  | valueError
  | overflowError
  | structError
  deriving DecidableEq

/-- A Python float : a rational, an infinity or a NaN. -/
inductive PyFloat where
  | fin (q : ℚ)
  | inf
  | negInf
  | nan
  deriving DecidableEq

/-! ## The built-in `min` and `max` -/

section MinMax

variable {α : Type*} [LT α] [DecidableLT α]

/-- `min(a, b)` : the second argument if it compares less, else the first. -/
def pyMin (a b : α) : α :=
  if b < a then b else a

/-- `max(a, b)` : the second argument if it compares greater, else the first. -/
def pyMax (a b : α) : α :=
  if a < b then b else a

/-- `max(lo, min(hi, v))`. -/
def pyClamp (lo hi v : α) : α :=
  pyMax lo (pyMin hi v)

end MinMax

section MinMaxOrder

variable {α : Type*} [LinearOrder α]

theorem pyMin_eq_min (a b : α) : pyMin a b = min a b := by
  unfold pyMin
  split_ifs with h
  · exact (min_eq_right h.le).symm
  · exact (min_eq_left (not_lt.1 h)).symm

theorem pyMax_eq_max (a b : α) : pyMax a b = max a b := by
  unfold pyMax
  split_ifs with h
  · exact (max_eq_right h.le).symm
  · exact (max_eq_left (not_lt.1 h)).symm

/-- On a linear order the built-in clamp is the lattice clamp. -/
theorem pyClamp_eq (lo hi v : α) : pyClamp lo hi v = max lo (min hi v) := by
  rw [pyClamp, pyMin_eq_min, pyMax_eq_max]

end MinMaxOrder

namespace PyFloat

/-! ## Arithmetic -/

/-- The sign of a float that is not a NaN. -/
def sgn : PyFloat → ℤ
  | fin q => q.num.sign
  | inf => 1
  | negInf => -1
  | nan => 0

/-- The infinity of a sign. An infinity times zero has sign zero and is a NaN. -/
def infOfSign (s : ℤ) : PyFloat :=
  if 0 < s then inf else if s < 0 then negInf else nan

/-- `-x`. -/
def neg : PyFloat → PyFloat
  | fin q => fin (-q)
  | inf => negInf
  | negInf => inf
  | nan => nan

/-- `x + y`. Opposite infinities sum to a NaN. -/
def add : PyFloat → PyFloat → PyFloat
  | fin a, fin b => fin (a + b)
  | nan, _ => nan
  | _, nan => nan
  | inf, negInf => nan
  | negInf, inf => nan
  | inf, _ => inf
  | _, inf => inf
  | negInf, _ => negInf
  | _, negInf => negInf

/-- `x * y`. -/
def mul : PyFloat → PyFloat → PyFloat
  | fin a, fin b => fin (a * b)
  | nan, _ => nan
  | _, nan => nan
  | x, y => infOfSign (x.sgn * y.sgn)

instance : Neg PyFloat := ⟨neg⟩

instance : Add PyFloat := ⟨add⟩

instance : Sub PyFloat := ⟨fun x y => x + -y⟩

instance : Mul PyFloat := ⟨mul⟩

/-- `x / c` by a nonzero literal. -/
def divLit (x : PyFloat) (c : ℚ) : PyFloat :=
  x * fin c⁻¹

/-- `abs(x)`. -/
def abs : PyFloat → PyFloat
  | fin q => fin |q|
  | inf => inf
  | negInf => inf
  | nan => nan

@[simp] theorem fin_add_fin (a b : ℚ) : fin a + fin b = fin (a + b) :=
  rfl

@[simp] theorem fin_sub_fin (a b : ℚ) : fin a - fin b = fin (a - b) := by
  rw [sub_eq_add_neg]
  rfl

@[simp] theorem fin_mul_fin (a b : ℚ) : fin a * fin b = fin (a * b) :=
  rfl

/-- A positive factor keeps an infinity. -/
theorem inf_mul_fin_of_pos {q : ℚ} (hq : 0 < q) : inf * fin q = inf := by
  show infOfSign (1 * q.num.sign) = inf
  rw [Int.sign_eq_one_of_pos (Rat.num_pos.2 hq)]
  rfl

theorem negInf_mul_fin_of_pos {q : ℚ} (hq : 0 < q) : negInf * fin q = negInf := by
  show infOfSign (-1 * q.num.sign) = negInf
  rw [Int.sign_eq_one_of_pos (Rat.num_pos.2 hq)]
  rfl

@[simp] theorem divLit_fin (a c : ℚ) : (fin a).divLit c = fin (a / c) := by
  rw [divLit, fin_mul_fin, div_eq_mul_inv]

@[simp] theorem abs_fin (a : ℚ) : (fin a).abs = fin |a| :=
  rfl

@[simp] theorem nan_sub (x : PyFloat) : nan - x = nan :=
  rfl

@[simp] theorem sub_nan (x : PyFloat) : x - nan = nan := by
  cases x <;> rfl

@[simp] theorem abs_nan : nan.abs = nan :=
  rfl

/-! ## Comparisons -/

/-- `x < y`. -/
def lt : PyFloat → PyFloat → Prop
  | fin a, fin b => a < b
  | negInf, fin _ => True
  | negInf, inf => True
  | fin _, inf => True
  | _, _ => False

/-- `x <= y`. -/
def le : PyFloat → PyFloat → Prop
  | fin a, fin b => a ≤ b
  | negInf, negInf => True
  | negInf, fin _ => True
  | negInf, inf => True
  | fin _, inf => True
  | inf, inf => True
  | _, _ => False

instance : LT PyFloat := ⟨lt⟩

instance : LE PyFloat := ⟨le⟩

instance : DecidableLT PyFloat := fun x y =>
  match x, y with
  | fin a, fin b => inferInstanceAs (Decidable (a < b))
  | negInf, fin _ | negInf, inf | fin _, inf => isTrue trivial
  | negInf, negInf | negInf, nan | fin _, negInf | fin _, nan | inf, _ | nan, _ => isFalse id

instance : DecidableLE PyFloat := fun x y =>
  match x, y with
  | fin a, fin b => inferInstanceAs (Decidable (a ≤ b))
  | negInf, negInf | negInf, fin _ | negInf, inf | fin _, inf | inf, inf => isTrue trivial
  | negInf, nan | fin _, negInf | fin _, nan | inf, fin _ | inf, negInf | inf, nan | nan, _ =>
    isFalse id

/-- `x == y`. A NaN differs from itself. -/
instance : BEq PyFloat where
  beq x y := x ≠ nan ∧ x = y

@[simp] theorem fin_lt_fin {a b : ℚ} : fin a < fin b ↔ a < b :=
  Iff.rfl

@[simp] theorem fin_le_fin {a b : ℚ} : fin a ≤ fin b ↔ a ≤ b :=
  Iff.rfl

@[simp] theorem not_nan_lt (x : PyFloat) : ¬nan < x :=
  id

@[simp] theorem not_lt_nan (x : PyFloat) : ¬x < nan := by
  cases x <;> exact id

@[simp] theorem not_inf_lt (x : PyFloat) : ¬inf < x :=
  id

@[simp] theorem negInf_lt_fin (a : ℚ) : negInf < fin a :=
  trivial

@[simp] theorem not_lt_negInf (x : PyFloat) : ¬x < negInf := by
  cases x <;> exact id

/-! ## Clamping -/

@[simp] theorem pyClamp_fin (lo hi v : ℚ) :
    pyClamp (fin lo) (fin hi) (fin v) = fin (max lo (min hi v)) := by
  rw [← pyClamp_eq]
  unfold pyClamp pyMax pyMin
  simp only [fin_lt_fin, ← apply_ite fin]

/-- A float that is not below the upper bound, a NaN among them, is clamped to it. -/
theorem pyClamp_of_not_lt {lo hi : ℚ} (h : lo ≤ hi) {v : PyFloat} (hv : ¬v < fin hi) :
    pyClamp (fin lo) (fin hi) v = fin hi := by
  unfold pyClamp pyMax pyMin
  rw [if_neg hv]
  rcases h.lt_or_eq with h | rfl
  · exact if_pos h
  · exact if_neg (lt_irrefl lo)

theorem pyClamp_negInf (lo hi : ℚ) : pyClamp (fin lo) (fin hi) negInf = fin lo := by
  unfold pyClamp pyMax pyMin
  rw [if_pos (negInf_lt_fin hi), if_neg (not_lt_negInf _)]

/-- A clamp of any float, NaN and infinities included, is a rational between the bounds. -/
theorem pyClamp_mem {lo hi : ℚ} (h : lo ≤ hi) (v : PyFloat) :
    ∃ q, pyClamp (fin lo) (fin hi) v = fin q ∧ lo ≤ q ∧ q ≤ hi := by
  cases v with
  | fin v => exact ⟨_, pyClamp_fin lo hi v, le_max_left _ _, max_le h (min_le_left _ _)⟩
  | inf => exact ⟨hi, pyClamp_of_not_lt h (not_inf_lt _), h, le_rfl⟩
  | negInf => exact ⟨lo, pyClamp_negInf lo hi, le_rfl, h⟩
  | nan => exact ⟨hi, pyClamp_of_not_lt h (not_nan_lt _), h, le_rfl⟩

/-- A bound above the lower end holds of a clamp exactly when it holds of the float. -/
theorem pyClamp_le_iff {lo hi c q : ℚ} (hlo : lo ≤ c) (hhi : c < hi) {v : PyFloat}
    (hq : pyClamp (fin lo) (fin hi) v = fin q) : q ≤ c ↔ v ≤ fin c := by
  have hle : lo ≤ hi := hlo.trans hhi.le
  cases v with
  | fin v =>
    rw [pyClamp_fin, fin.injEq] at hq
    rw [← hq, max_le_iff, min_le_iff, fin_le_fin]
    simp only [hlo, hhi.not_ge, true_and, false_or]
  | inf =>
    rw [pyClamp_of_not_lt hle (not_inf_lt _), fin.injEq] at hq
    exact iff_of_false (hq ▸ hhi.not_ge) id
  | negInf =>
    rw [pyClamp_negInf, fin.injEq] at hq
    exact iff_of_true (hq ▸ hlo) trivial
  | nan =>
    rw [pyClamp_of_not_lt hle (not_nan_lt _), fin.injEq] at hq
    exact iff_of_false (hq ▸ hhi.not_ge) id

end PyFloat

/-! ## Rounding -/

/-- `round(q)` : the nearest integer, the even one at a tie. -/
def roundHalfEven (q : ℚ) : ℤ :=
  if q - ⌊q⌋ < 1 / 2 then ⌊q⌋
  else if 1 / 2 < q - ⌊q⌋ then ⌊q⌋ + 1
  else if ⌊q⌋ % 2 = 0 then ⌊q⌋ else ⌊q⌋ + 1

theorem roundHalfEven_intCast (n : ℤ) : roundHalfEven n = n := by
  simp [roundHalfEven]

/-- Rounding moves a rational by at most a half. -/
theorem abs_roundHalfEven_sub_le (q : ℚ) : |(roundHalfEven q : ℚ) - q| ≤ 1 / 2 := by
  have h0 := Int.floor_le q
  have h1 := Int.lt_floor_add_one q
  unfold roundHalfEven
  rw [abs_le]
  split_ifs <;> push_cast <;> constructor <;> linarith

/-- Rounding to a multiple of a step moves a rational by at most half a step. -/
theorem abs_roundHalfEven_div_mul_sub_le {c : ℚ} (hc : 0 < c) (q : ℚ) :
    |(roundHalfEven (q / c) : ℚ) * c - q| ≤ c / 2 := by
  have hscale : (roundHalfEven (q / c) : ℚ) * c - q = (roundHalfEven (q / c) - q / c) * c := by
    rw [sub_mul, div_mul_cancel₀ _ hc.ne']
  rw [hscale, abs_mul, abs_of_pos hc]
  calc |(roundHalfEven (q / c) : ℚ) - q / c| * c
      ≤ 1 / 2 * c := mul_le_mul_of_nonneg_right (abs_roundHalfEven_sub_le _) hc.le
    _ = c / 2 := one_div_mul_eq_div 2 c

theorem roundHalfEven_mono {p q : ℚ} (h : p ≤ q) : roundHalfEven p ≤ roundHalfEven q := by
  have hp := abs_le.1 (abs_roundHalfEven_sub_le p)
  have hq := abs_le.1 (abs_roundHalfEven_sub_le q)
  rcases lt_or_eq_of_le (Int.floor_mono h) with hf | hf
  · -- Different integer parts : the roundings can only meet at `⌊q⌋`.
    have hp' : roundHalfEven p ≤ ⌊p⌋ + 1 := by
      unfold roundHalfEven
      split_ifs <;> omega
    have hq' : ⌊q⌋ ≤ roundHalfEven q := by
      unfold roundHalfEven
      split_ifs <;> omega
    omega
  · unfold roundHalfEven
    rw [hf]
    split_ifs <;> first | omega | linarith

/-- Rounding keeps a rational inside integer bounds. -/
theorem roundHalfEven_mem {q : ℚ} {a b : ℤ} (ha : (a : ℚ) ≤ q) (hb : q ≤ b) :
    a ≤ roundHalfEven q ∧ roundHalfEven q ≤ b :=
  ⟨by simpa [roundHalfEven_intCast] using roundHalfEven_mono ha,
    by simpa [roundHalfEven_intCast] using roundHalfEven_mono hb⟩

/-- A tie at a half rounds to zero. -/
theorem roundHalfEven_eq_zero_iff {q : ℚ} (h : 0 ≤ q) : roundHalfEven q = 0 ↔ q ≤ 1 / 2 := by
  have hhalf : roundHalfEven (1 / 2) = 0 := by decide +kernel
  constructor
  · intro hzero
    by_contra hlt
    have hle := abs_le.1 (abs_roundHalfEven_sub_le q)
    rw [hzero] at hle
    push_cast at hle
    linarith
  · intro hle
    have h1 := roundHalfEven_mono hle
    have h0 := roundHalfEven_mono h
    rw [hhalf] at h1
    rw [← Int.cast_zero, roundHalfEven_intCast] at h0
    omega

namespace PyFloat

/-- `round(x)` : no integer for an infinity or a NaN. -/
def round : PyFloat → Except PyError ℤ
  | fin q => .ok (roundHalfEven q)
  | inf => .error .overflowError
  | negInf => .error .overflowError
  | nan => .error .valueError

@[simp] theorem round_fin (q : ℚ) : (fin q).round = .ok (roundHalfEven q) :=
  rfl

/-! ## Binary32 -/

/-- The spacing of binary32 values around `q` : 24 significant bits, and no finer than
the subnormals. -/
def ulp32 (q : ℚ) : ℚ :=
  2 ^ (max (Int.log 2 |q|) (-126) - 23)

/-- The value a C `float` holds after a Python float is stored in it. A rational too
large for the format becomes an infinity. -/
def toFloat32 : PyFloat → PyFloat
  | fin q =>
    let r := roundHalfEven (q / ulp32 q) * ulp32 q
    if 2 ^ 128 ≤ r then inf else if r ≤ -2 ^ 128 then negInf else fin r
  | x => x

end PyFloat

example : PyFloat.toFloat32 (.fin (1 / 10)) = .fin (13421773 / 134217728) := by
  decide +kernel

end A1Bsw
