import Mathlib.Algebra.Order.Field.Basic
import Mathlib.Algebra.Order.Floor.Semiring
import Mathlib.Algebra.Order.Group.MinMax
import Mathlib.Order.Interval.Set.UnorderedInterval
import Mathlib.Tactic.Linarith
import Mathlib.Tactic.Ring

/-!
# Bounded moves toward a target

`moveToward m x t` moves `x` toward `t` by `m`, or onto `t` if it is nearer
than `m`. A signal limited to `m` per step follows the target this way.
Repeating the move `n` times at a fixed target is one move of `n * m`
(`moveToward_iterate`), so the target is reached exactly when its distance
is at most `n * m`. `follow` moves toward one target after another : where
they stay the same it goes there without overshoot (`follow_monotone`,
`follow_antitone`) and arrives on time (`follow_eq_target_iff`).

`clamp lo hi` cuts a value to an interval. Moving and then clamping is
moving the clamped value toward the clamped target when the value is inside
the interval (`clamp_moveToward`). Outside it the two disagree exactly when
the move is spent on the way back to the interval
(`clamp_moveToward_eq_iff`).
-/

set_option linter.unusedSectionVars false

namespace A1Bsw

variable {α : Type*} [Field α] [LinearOrder α] [IsStrictOrderedRing α]

/-- Cut `v` to `[lo, hi]`. -/
def clamp (lo hi v : α) : α :=
  max lo (min hi v)

/-- Move `x` toward `t` by `m`, and no farther than `t`. -/
def moveToward (m x t : α) : α :=
  if x ≤ t then x + min m (t - x) else x - min m (x - t)

section Clamp

variable {lo hi : α}

theorem clamp_of_mem {v : α} (h1 : lo ≤ v) (h2 : v ≤ hi) : clamp lo hi v = v := by
  rw [clamp, min_eq_right h2, max_eq_right h1]

theorem clamp_mem (h : lo ≤ hi) (v : α) : lo ≤ clamp lo hi v ∧ clamp lo hi v ≤ hi :=
  ⟨le_max_left _ _, max_le h (min_le_left _ _)⟩

theorem clamp_of_ge (h : lo ≤ hi) {v : α} (hv : hi ≤ v) : clamp lo hi v = hi := by
  rw [clamp, min_eq_left hv, max_eq_right h]

/-- An inner point of the interval is the clamp of itself only. -/
theorem clamp_eq_iff {v w : α} (h1 : lo < w) (h2 : w < hi) : clamp lo hi v = w ↔ v = w := by
  unfold clamp
  constructor
  · intro h
    rcases max_choice lo (min hi v) with h' | h' <;> rw [h'] at h
    · exact absurd h h1.ne
    rcases min_choice hi v with h'' | h'' <;> rw [h''] at h
    · exact absurd h h2.ne'
    · exact h
  · rintro rfl
    exact clamp_of_mem h1.le h2.le

/-- Only values past the upper bound reach it. -/
theorem le_clamp_iff (h : lo < hi) {v : α} : hi ≤ clamp lo hi v ↔ hi ≤ v := by
  rw [clamp, le_max_iff, le_min_iff]
  simp only [h.not_ge, false_or, le_rfl, true_and]

/-- Clamping never increases a distance. -/
theorem abs_clamp_sub_clamp_le (v w : α) : |clamp lo hi v - clamp lo hi w| ≤ |v - w| := by
  unfold clamp
  rw [max_comm lo, max_comm lo]
  refine (abs_max_sub_max_le_abs _ _ _).trans ((abs_min_sub_min_le_max _ _ _ _).trans ?_)
  rw [sub_self, abs_zero, max_eq_right (abs_nonneg _)]

theorem clamp_neg (h : lo ≤ hi) (v : α) : clamp (-hi) (-lo) (-v) = -clamp lo hi v := by
  unfold clamp
  rw [min_neg_neg, max_neg_neg, neg_inj, min_max_distrib_left, min_eq_right h]

/-- Only values of at least the bound reach a symmetric bound. -/
theorem le_abs_clamp_iff (h : 0 < hi) {v : α} : hi ≤ |clamp (-hi) hi v| ↔ hi ≤ |v| := by
  have hlt : -hi < hi := neg_lt_self h
  have hneg := clamp_neg hlt.le v
  rw [neg_neg] at hneg
  rw [le_abs, le_abs, ← hneg, le_clamp_iff hlt, le_clamp_iff hlt]

theorem clamp_mono : Monotone (clamp lo hi) :=
  fun _ _ h => max_le_max le_rfl (min_le_min le_rfl h)

theorem clamp_max (v w : α) : clamp lo hi (max v w) = max (clamp lo hi v) (clamp lo hi w) := by
  unfold clamp
  rw [min_max_distrib_left, max_max_max_comm, max_self]

end Clamp

section MoveToward

variable {m x t : α}

/-- As a cut of the target to the interval the move can reach. -/
theorem moveToward_eq (hm : 0 ≤ m) : moveToward m x t = max (x - m) (min (x + m) t) := by
  unfold moveToward
  split_ifs with h
  · rw [← min_add_add_left, add_sub_cancel, max_eq_right]
    exact le_min (by linarith) (by linarith)
  · have hle : min (x + m) t = t := min_eq_right (by linarith)
    rw [hle]
    rcases le_total m (x - t) with h' | h'
    · rw [min_eq_left h', max_eq_left (by linarith)]
    · rw [min_eq_right h', max_eq_right (by linarith), sub_sub_cancel]

theorem moveToward_neg (hm : 0 ≤ m) : moveToward m (-x) (-t) = -moveToward m x t := by
  unfold moveToward
  rcases lt_trichotomy x t with h | rfl | h
  · rw [if_neg (by linarith), if_pos h.le, neg_sub_neg, neg_add']
  · simp [hm]
  · rw [if_pos (by linarith), if_neg h.not_ge, neg_sub_neg, neg_sub, neg_add_eq_sub]

theorem moveToward_zero (x t : α) : moveToward 0 x t = x := by
  rw [moveToward_eq le_rfl, sub_zero, add_zero, max_eq_left (min_le_left _ _)]

/-- The move reaches the target exactly when it is within `m`. -/
theorem moveToward_eq_target_iff (hm : 0 ≤ m) : moveToward m x t = t ↔ |t - x| ≤ m := by
  rw [moveToward_eq hm, abs_le]
  constructor
  · intro h
    have h1 : x - m ≤ t := h ▸ le_max_left _ _
    have h2 : t ≤ x + m := by
      by_contra hlt
      rw [not_le] at hlt
      rw [min_eq_left hlt.le, max_eq_right (by linarith)] at h
      exact hlt.ne h
    constructor <;> linarith
  · rintro ⟨h1, h2⟩
    rw [min_eq_right (by linarith), max_eq_right (by linarith)]

/-- The move is at most `m`. -/
theorem abs_moveToward_sub_le (hm : 0 ≤ m) : |moveToward m x t - x| ≤ m := by
  rw [moveToward_eq hm, abs_le]
  have h1 : x - m ≤ max (x - m) (min (x + m) t) := le_max_left _ _
  have h2 : max (x - m) (min (x + m) t) ≤ x + m := max_le (by linarith) (min_le_left _ _)
  constructor <;> linarith

/-- The move stays between the start and the target. -/
theorem moveToward_mem_uIcc (hm : 0 ≤ m) : moveToward m x t ∈ Set.uIcc x t := by
  rw [Set.mem_uIcc, moveToward_eq hm]
  rcases le_total x t with h | h
  · exact .inl
      ⟨le_max_of_le_right (le_min (by linarith) h), max_le (by linarith) (min_le_right _ _)⟩
  · exact .inr ⟨le_max_of_le_right (le_min (by linarith) le_rfl),
      max_le (by linarith) ((min_le_right _ _).trans h)⟩

/-- Clamped, the move stays between the clamped start and the clamped target. -/
theorem clamp_moveToward_mem_uIcc {lo hi : α} (hm : 0 ≤ m) :
    clamp lo hi (moveToward m x t) ∈ Set.uIcc (clamp lo hi x) (clamp lo hi t) :=
  clamp_mono.image_uIcc_subset ⟨_, moveToward_mem_uIcc hm, rfl⟩

/-- Two moves at one target are one move of their sum. -/
theorem moveToward_moveToward {m' : α} (hm : 0 ≤ m) (hm' : 0 ≤ m') :
    moveToward m' (moveToward m x t) t = moveToward (m + m') x t := by
  rw [moveToward_eq hm, moveToward_eq hm', moveToward_eq (add_nonneg hm hm')]
  rcases le_total x t with h | h
  · rw [max_eq_right (le_min (by linarith) (by linarith) : x - m ≤ min (x + m) t),
      max_eq_right (le_min (by linarith) (by linarith) : x - (m + m') ≤ min (x + (m + m')) t),
      max_eq_right
        (le_min (by linarith [min_le_left (x + m) t]) (by linarith [min_le_right (x + m) t])),
      ← min_add_add_right, min_assoc, min_eq_right (by linarith : t ≤ t + m'), add_assoc]
  · rw [min_eq_right (by linarith : t ≤ x + m), min_eq_right (by linarith : t ≤ x + (m + m')),
      min_eq_right (by linarith [le_max_right (x - m) t] : t ≤ max (x - m) t + m'),
      ← max_sub_sub_right, max_assoc, max_eq_right (by linarith : t - m' ≤ t), sub_sub]

/-- `n` moves at a fixed target. -/
theorem moveToward_iterate (hm : 0 ≤ m) (n : ℕ) :
    (moveToward m · t)^[n] x = moveToward (n * m) x t := by
  induction n with
  | zero => rw [Nat.cast_zero, zero_mul, moveToward_zero, Function.iterate_zero, id]
  | succ n ih =>
    rw [Function.iterate_succ_apply', ih, moveToward_moveToward (by positivity) hm]
    push_cast
    rw [add_one_mul]

/-- `n` moves reach the target exactly when it is within `n * m`. -/
theorem moveToward_iterate_eq_target_iff (hm : 0 ≤ m) (n : ℕ) :
    (moveToward m · t)^[n] x = t ↔ |t - x| ≤ n * m := by
  rw [moveToward_iterate hm, moveToward_eq_target_iff (by positivity)]

/-- A longer move goes farther toward the target, and never past it. -/
theorem moveToward_mono_left (h : x ≤ t) {m' : α} (hmm : m ≤ m') :
    moveToward m x t ≤ moveToward m' x t ∧ moveToward m' x t ≤ t := by
  rw [moveToward, moveToward, if_pos h, if_pos h]
  exact ⟨add_le_add_right (min_le_min hmm le_rfl) x, by linarith [min_le_right m' (t - x)]⟩

/-- A value on the way to zero keeps its sign and is no larger. -/
theorem decay_of_mem_uIcc_zero {u v : α} (h : v ∈ Set.uIcc u 0) : 0 ≤ u * v ∧ |v| ≤ |u| := by
  rcases Set.mem_uIcc.1 h with ⟨h1, h2⟩ | ⟨h1, h2⟩
  · exact ⟨mul_nonneg_of_nonpos_of_nonpos (h1.trans h2) h2, abs_le_abs_of_nonpos h2 h1⟩
  · exact ⟨mul_nonneg (h1.trans h2) h1, abs_le_abs_of_nonneg h1 h2⟩

end MoveToward

section ClampMove

variable {lo hi m x t : α}

/-- Inside the interval, moving and clamping is moving toward the clamped target. -/
theorem clamp_moveToward (hm : 0 ≤ m) (h1 : lo ≤ x) (h2 : x ≤ hi) :
    clamp lo hi (moveToward m x t) = moveToward m x (clamp lo hi t) := by
  rw [moveToward_eq hm, moveToward_eq hm, clamp, clamp]
  rcases le_total t x with h | h
  · rw [min_eq_right (by linarith : t ≤ x + m), min_eq_right (by linarith : t ≤ hi),
      min_eq_right (max_le (by linarith) (by linarith) : max (x - m) t ≤ hi),
      min_eq_right (max_le (by linarith) (by linarith) : max lo t ≤ x + m), max_left_comm]
  · have hlo : lo ≤ min hi t := le_min (by linarith) (by linarith)
    rw [max_eq_right hlo, min_left_comm,
      max_eq_right (le_min (by linarith) (le_min (by linarith) (by linarith)) :
        x - m ≤ min hi (min (x + m) t)),
      max_eq_right (le_min (by linarith) (by linarith) : x - m ≤ min (x + m) t),
      max_eq_right (le_min (by linarith) (le_min (by linarith) (by linarith)))]

/-- The move is spent outside the interval : `x` lies past a bound, and the clamped
target is short of both that bound and the point the move reaches. -/
def WindUp (lo hi m x t : α) : Prop :=
  0 < m ∧
    ((hi < x ∧ clamp lo hi t < min hi (x - m)) ∨ (x < lo ∧ max lo (x + m) < clamp lo hi t))

instance (lo hi m x t : α) : Decidable (WindUp lo hi m x t) :=
  inferInstanceAs (Decidable (_ ∧ (_ ∨ _)))

/-- Above the interval, moving and clamping is moving the clamped value unless the
clamped target is short of both the bound and the point the move reaches. -/
theorem clamp_moveToward_eq_iff_of_gt (hm : 0 < m) (hlh : lo ≤ hi) (hx : hi < x) :
    clamp lo hi (moveToward m x t) = moveToward m (clamp lo hi x) (clamp lo hi t) ↔
      ¬clamp lo hi t < min hi (x - m) := by
  obtain ⟨hlo, hhi⟩ := clamp_mem hlh t
  rw [clamp_of_ge hlh hx.le, moveToward_eq hm.le, moveToward_eq hm.le,
    min_eq_right (by linarith : clamp lo hi t ≤ hi + m)]
  rcases le_or_gt x t with h | h
  · -- The target is past the bound as well, so both sides stay on it.
    have ht : clamp lo hi t = hi := clamp_of_ge hlh (hx.le.trans h)
    rw [ht, max_eq_right (by linarith : hi - m ≤ hi), clamp_of_ge hlh]
    · simp
    · exact le_max_of_le_right (le_min (by linarith) (by linarith))
  · rw [min_eq_right (by linarith : t ≤ x + m), clamp_max]
    rcases le_or_gt (min hi (x - m)) (clamp lo hi t) with hw | hw
    · rw [iff_true_right (not_lt.2 hw)]
      have h1 : hi - m ≤ clamp lo hi t := by
        rcases le_total hi (x - m) with h' | h'
        · rw [min_eq_left h'] at hw
          linarith
        · rw [min_eq_right h'] at hw
          linarith
      have h2 : clamp lo hi (x - m) ≤ clamp lo hi t := max_le hlo hw
      rw [max_eq_right h1, max_eq_right h2]
    · rw [iff_false_right (not_not.2 hw)]
      have h1 : min hi (x - m) ≤ clamp lo hi (x - m) := le_max_right _ _
      have h2 : hi - m < min hi (x - m) := lt_min (by linarith) (by linarith)
      refine ne_of_gt (lt_of_lt_of_le (max_lt h2 hw) (h1.trans (le_max_left _ _)))

/-- Moving and then clamping is moving the clamped value toward the clamped target
exactly when the move is not spent outside the interval. -/
theorem clamp_moveToward_eq_iff (hm : 0 ≤ m) (hlh : lo ≤ hi) :
    clamp lo hi (moveToward m x t) = moveToward m (clamp lo hi x) (clamp lo hi t) ↔
      ¬WindUp lo hi m x t := by
  unfold WindUp
  rcases hm.eq_or_lt with rfl | hm
  · simp only [moveToward_zero, lt_irrefl, false_and, not_false_iff]
  rw [and_iff_right hm]
  rcases lt_or_ge hi x with hx | hx
  · have hnx : ¬x < lo := (hlh.trans hx.le).not_gt
    simp only [clamp_moveToward_eq_iff_of_gt hm hlh hx, hx, hnx, true_and, false_and, or_false]
  rcases lt_or_ge x lo with hx' | hx'
  · have h : clamp (-hi) (-lo) (moveToward m (-x) (-t)) =
        moveToward m (clamp (-hi) (-lo) (-x)) (clamp (-hi) (-lo) (-t)) ↔
          ¬clamp (-hi) (-lo) (-t) < min (-lo) (-x - m) :=
      clamp_moveToward_eq_iff_of_gt hm (neg_le_neg hlh) (neg_lt_neg hx')
    rw [moveToward_neg hm.le, clamp_neg hlh, clamp_neg hlh, clamp_neg hlh, moveToward_neg hm.le,
      neg_inj] at h
    rw [h, ← neg_add', min_neg_neg, neg_lt_neg_iff]
    simp only [hx.not_gt, hx', true_and, false_and, false_or]
  · rw [clamp_of_mem hx' hx]
    simp only [clamp_moveToward hm.le hx' hx, hx.not_gt, hx'.not_gt, false_and, or_self,
      not_false_iff]

end ClampMove

/-! ## Following a sequence of targets -/

section Follow

/-- Start at `x` and move toward each target in turn. -/
def follow (m x : α) (targets : ℕ → α) : ℕ → α
  | 0 => x
  | n + 1 => moveToward m (follow m x targets n) (targets n)

variable {m x t : α} {targets : ℕ → α}

/-- From the step on at which the target stays, the moves add up. -/
theorem follow_add_of_const (hm : 0 ≤ m) {n : ℕ} (h : ∀ k, n ≤ k → targets k = t) (k : ℕ) :
    follow m x targets (n + k) = moveToward (k * m) (follow m x targets n) t := by
  induction k with
  | zero => rw [Nat.cast_zero, zero_mul, moveToward_zero, Nat.add_zero]
  | succ k ih =>
    rw [← Nat.add_assoc, follow, ih, h (n + k) (Nat.le_add_right n k),
      moveToward_moveToward (by positivity) hm]
    push_cast
    rw [add_one_mul]

/-- A target that stays is reached after as many steps as its distance needs, and kept. -/
theorem follow_eq_target_iff [FloorSemiring α] (hm : 0 < m) {n : ℕ}
    (h : ∀ k, n ≤ k → targets k = t) (k : ℕ) :
    follow m x targets (n + k) = t ↔ ⌈|t - follow m x targets n| / m⌉₊ ≤ k := by
  rw [follow_add_of_const hm.le h, moveToward_eq_target_iff (by positivity), Nat.ceil_le,
    div_le_iff₀ hm]

/-- Below a target that stays the steps go up to it, and not past it. -/
theorem follow_monotone (hm : 0 ≤ m) {n : ℕ} (h : ∀ k, n ≤ k → targets k = t)
    (hle : follow m x targets n ≤ t) :
    (Monotone fun k => follow m x targets (n + k)) ∧ ∀ k, follow m x targets (n + k) ≤ t := by
  simp only [follow_add_of_const hm h]
  refine ⟨fun j k hjk => ?_, fun k => (moveToward_mono_left hle le_rfl).2⟩
  have hcast : (j : α) ≤ k := Nat.cast_le.2 hjk
  exact (moveToward_mono_left hle (mul_le_mul_of_nonneg_right hcast hm)).1

/-- Mirrored steps. -/
theorem follow_neg (hm : 0 ≤ m) (n : ℕ) :
    follow m (-x) (fun k => -targets k) n = -follow m x targets n := by
  induction n with
  | zero => rfl
  | succ n ih => rw [follow, ih, moveToward_neg hm, follow]

/-- Above a target that stays the steps go down to it, and not past it. -/
theorem follow_antitone (hm : 0 ≤ m) {n : ℕ} (h : ∀ k, n ≤ k → targets k = t)
    (hle : t ≤ follow m x targets n) :
    (Antitone fun k => follow m x targets (n + k)) ∧ ∀ k, t ≤ follow m x targets (n + k) := by
  have hneg : ∀ k, n ≤ k → -targets k = -t := fun k hk => congrArg (-·) (h k hk)
  obtain ⟨hmono, hbound⟩ := follow_monotone (x := -x) hm hneg
    (by rw [follow_neg hm]; exact neg_le_neg hle)
  simp only [follow_neg hm] at hmono hbound
  exact ⟨fun j k hjk => neg_le_neg_iff.1 (hmono hjk), fun k => neg_le_neg_iff.1 (hbound k)⟩

end Follow

end A1Bsw
