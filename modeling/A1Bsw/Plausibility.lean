import A1Bsw.Protocol
import A1Bsw.Slew

/-!
# Range clamp and rate limiter

`clampRange` cuts the four bounded fields of a command to the DBC ranges and
reports each field it changed. `RateLimiter.step` is the limiter of one
signal. It compares the request with its own previous output, which is not
clamped.

On rationals a limiter with a bound `r` moves its memory toward the request
by `r * dt` (`RateLimiter.limited_fin`), so its outputs follow the requests
(`rate_limiter_tracks`).
-/

namespace A1Bsw

/-! ## Range clamp -/

/-- `EPS_CMD_MIN`. -/
def epsCmdMin : ℚ := -500

/-- `EPS_CMD_MAX`. -/
def epsCmdMax : ℚ := 500

/-- `ACC_CMD_MIN`. -/
def accCmdMin : ℚ := -3

/-- `ACC_CMD_MAX`. -/
def accCmdMax : ℚ := 1

/-- `EPS_SPEED_MIN`. -/
def epsSpeedMin : ℤ := 10

/-- `EPS_SPEED_MAX`. -/
def epsSpeedMax : ℤ := 250

/-- `AEB_DECEL_MIN`. -/
def aebDecelMin : ℚ := 0

/-- `AEB_DECEL_MAX`. -/
def aebDecelMax : ℚ := 1

theorem epsCmdMin_le_epsCmdMax : epsCmdMin ≤ epsCmdMax := by
  norm_num [epsCmdMin, epsCmdMax]

theorem accCmdMin_le_accCmdMax : accCmdMin ≤ accCmdMax := by
  norm_num [accCmdMin, accCmdMax]

theorem aebDecelMin_le_aebDecelMax : aebDecelMin ≤ aebDecelMax := by
  norm_num [aebDecelMin, aebDecelMax]

/-- `Violation`. -/
structure Violation where
  field : String
  requested : PyFloat
  clamped : PyFloat

/-- `_clip`, with the violation it appends. -/
def clip {α : Type} [LT α] [DecidableLT α] [BEq α] (toFloat : α → PyFloat) (name : String)
    (v lo hi : α) : α × List Violation :=
  let c := pyClamp lo hi v
  (c, if c != v then [⟨name, toFloat v, toFloat c⟩] else [])

/-- `clamp_range`, with the violations in the order they are appended. -/
def clampRange (cmd : Command) : Command × List Violation :=
  let eps := clip id "eps_cmd" cmd.epsCmd (.fin epsCmdMin) (.fin epsCmdMax)
  let acc := clip id "acc_cmd" cmd.accCmd (.fin accCmdMin) (.fin accCmdMax)
  let speed := clip (fun n : ℤ => .fin n) "eps_speed" cmd.epsSpeed epsSpeedMin epsSpeedMax
  let aeb := clip id "aeb_decel_value" cmd.aebDecelValue (.fin aebDecelMin) (.fin aebDecelMax)
  ({ cmd with epsCmd := eps.1, accCmd := acc.1, epsSpeed := speed.1, aebDecelValue := aeb.1 },
    eps.2 ++ acc.2 ++ speed.2 ++ aeb.2)

/-- A command whose bounded fields are rationals inside the DBC ranges. -/
structure Command.InRange (cmd : Command) : Prop where
  epsCmd : ∃ q, cmd.epsCmd = .fin q ∧ epsCmdMin ≤ q ∧ q ≤ epsCmdMax
  accCmd : ∃ q, cmd.accCmd = .fin q ∧ accCmdMin ≤ q ∧ q ≤ accCmdMax
  epsSpeed : epsSpeedMin ≤ cmd.epsSpeed ∧ cmd.epsSpeed ≤ epsSpeedMax
  aebDecelValue : ∃ q, cmd.aebDecelValue = .fin q ∧ aebDecelMin ≤ q ∧ q ≤ aebDecelMax

/-- Every command leaves the clamp in range, whatever its floats are. -/
theorem clampRange_inRange (cmd : Command) : (clampRange cmd).1.InRange where
  epsCmd := PyFloat.pyClamp_mem epsCmdMin_le_epsCmdMax cmd.epsCmd
  accCmd := PyFloat.pyClamp_mem accCmdMin_le_accCmdMax cmd.accCmd
  epsSpeed := by
    show epsSpeedMin ≤ pyClamp _ _ cmd.epsSpeed ∧ pyClamp _ _ cmd.epsSpeed ≤ epsSpeedMax
    rw [pyClamp_eq]
    unfold epsSpeedMin epsSpeedMax
    omega
  aebDecelValue := PyFloat.pyClamp_mem aebDecelMin_le_aebDecelMax cmd.aebDecelValue

/-! ## Rate limiter -/

/-- `RateLimiter` : the bound per second, and the previous output. -/
structure RateLimiter where
  maxDeltaPerS : Option PyFloat
  lastValue : Option PyFloat := none

namespace RateLimiter

/-- `reset`. -/
def reset (l : RateLimiter) (value : Option PyFloat := none) : RateLimiter :=
  { l with lastValue := value }

/-- The value that `step` returns. -/
def limited (l : RateLimiter) (value dt : PyFloat) : PyFloat :=
  match l.maxDeltaPerS, l.lastValue with
  | some maxDeltaPerS, some last =>
    if dt ≤ .fin 0 then value
    else
      let maxDelta := maxDeltaPerS * dt
      let delta := value - last
      if maxDelta < delta.abs then last + maxDelta * (if .fin 0 < delta then .fin 1 else .fin (-1))
      else value
  | _, _ => value

/-- `step` : the allowed value, and the limiter that remembers it. -/
def step (l : RateLimiter) (value dt : PyFloat) : PyFloat × RateLimiter :=
  (l.limited value dt, { l with lastValue := some (l.limited value dt) })

theorem limited_of_unlimited {l : RateLimiter} (h : l.maxDeltaPerS = none) (value dt : PyFloat) :
    l.limited value dt = value := by
  simp only [limited, h]

/-- The first call after construction or a reset passes its value. -/
theorem limited_of_unset {l : RateLimiter} (h : l.lastValue = none) (value dt : PyFloat) :
    l.limited value dt = value := by
  unfold limited
  rw [h]
  split <;> first | rfl | contradiction

/-- The difference of a float with itself exceeds no bound that is not negative. -/
theorem not_lt_abs_sub_self {maxDelta : PyFloat} (h : ¬maxDelta < .fin 0) (v : PyFloat) :
    ¬maxDelta < (v - v).abs := by
  cases v with
  | fin q => simpa using h
  | inf => exact PyFloat.not_lt_nan _
  | negInf => exact PyFloat.not_lt_nan _
  | nan => exact PyFloat.not_lt_nan _

/-- A request equal to the memory passes a limit that is not negative. -/
theorem limited_last {l : RateLimiter} {value dt : PyFloat} (hl : l.lastValue = some value)
    (hpos : ∀ r, l.maxDeltaPerS = some r → ¬r * dt < .fin 0) : l.limited value dt = value := by
  rcases hr : l.maxDeltaPerS with _ | r
  · exact limited_of_unlimited hr value dt
  · simp only [limited, hr, hl, not_lt_abs_sub_self (hpos r hr) value, if_false, ite_self]

/-- A NaN passes every limit. -/
theorem limited_nan (l : RateLimiter) (dt : PyFloat) : l.limited .nan dt = .nan := by
  rcases hr : l.maxDeltaPerS with _ | r
  · exact limited_of_unlimited hr _ _
  rcases hl : l.lastValue with _ | last
  · exact limited_of_unset hl _ _
  · simp only [limited, hr, hl, PyFloat.nan_sub, PyFloat.abs_nan, PyFloat.not_lt_nan, if_false,
      ite_self]

/-- A NaN in the memory lets the next request pass. -/
theorem limited_of_last_nan {l : RateLimiter} (hl : l.lastValue = some .nan) (value dt : PyFloat) :
    l.limited value dt = value := by
  rcases hr : l.maxDeltaPerS with _ | r
  · exact limited_of_unlimited hr _ _
  · simp only [limited, hr, hl, PyFloat.sub_nan, PyFloat.abs_nan, PyFloat.not_lt_nan, if_false,
      ite_self]

/-- On rationals the limiter moves its memory toward the request. -/
theorem limited_fin {l : RateLimiter} {r x v dt : ℚ} (hr : 0 ≤ r) (hdt : 0 < dt)
    (hl : l.maxDeltaPerS = some (.fin r)) (hx : l.lastValue = some (.fin x)) :
    l.limited (.fin v) (.fin dt) = .fin (moveToward (r * dt) x v) := by
  have hm : 0 ≤ r * dt := mul_nonneg hr hdt.le
  simp only [limited, hl, hx, PyFloat.fin_le_fin, hdt.not_ge, if_false, PyFloat.fin_mul_fin,
    PyFloat.fin_sub_fin, PyFloat.abs_fin, PyFloat.fin_lt_fin, sub_pos]
  split_ifs with h hlt
  · rw [PyFloat.fin_mul_fin, PyFloat.fin_add_fin, mul_one, moveToward, if_pos hlt.le,
      min_eq_left]
    rw [abs_of_pos (sub_pos.2 hlt)] at h
    exact h.le
  · rw [not_lt] at hlt
    rw [abs_of_nonpos (sub_nonpos.2 hlt), neg_sub] at h
    rw [PyFloat.fin_mul_fin, PyFloat.fin_add_fin, mul_neg_one, ← sub_eq_add_neg, moveToward,
      if_neg (by linarith), min_eq_left h.le]
  · rw [(moveToward_eq_target_iff hm).2 (not_lt.1 h)]

/-! ### Sequences of requests -/

/-- The limiter after the first `n` calls of `step`. -/
def after (l : RateLimiter) (requests : ℕ → PyFloat) (dt : PyFloat) : ℕ → RateLimiter
  | 0 => l
  | n + 1 => ((after l requests dt n).step (requests n) dt).2

/-- What call `n` of `step` returns. -/
def output (l : RateLimiter) (requests : ℕ → PyFloat) (dt : PyFloat) (n : ℕ) : PyFloat :=
  ((l.after requests dt n).step (requests n) dt).1

/-- On rationals the memory follows the requests. -/
theorem after_fin {r dt : ℚ} (hr : 0 ≤ r) (hdt : 0 < dt) (x : ℚ) (requests : ℕ → ℚ) (n : ℕ) :
    after ⟨some (.fin r), some (.fin x)⟩ (fun k => .fin (requests k)) (.fin dt) n =
      ⟨some (.fin r), some (.fin (follow (r * dt) x requests n))⟩ := by
  induction n with
  | zero => rfl
  | succ n ih => rw [after, ih, step, limited_fin hr hdt rfl rfl, follow]

theorem output_fin {r dt : ℚ} (hr : 0 ≤ r) (hdt : 0 < dt) (x : ℚ) (requests : ℕ → ℚ) (n : ℕ) :
    output ⟨some (.fin r), some (.fin x)⟩ (fun k => .fin (requests k)) (.fin dt) n =
      .fin (follow (r * dt) x requests (n + 1)) := by
  rw [output, after_fin hr hdt, step, limited_fin hr hdt rfl rfl, follow]

/-- Positions that go toward the request of each step, by at most `maxDelta`. A request that
stays is approached from one side, reached after as many steps as its distance needs, and
kept. -/
structure Tracks (positions requests : ℕ → ℚ) (maxDelta : ℚ) : Prop where
  between : ∀ n, positions (n + 1) ∈ Set.uIcc (positions n) (requests n)
  step_le : ∀ n, |positions (n + 1) - positions n| ≤ maxDelta
  ascends : ∀ {n t}, (∀ k, n ≤ k → requests k = t) → positions n ≤ t →
    (Monotone fun k => positions (n + k)) ∧ ∀ k, positions (n + k) ≤ t
  descends : ∀ {n t}, (∀ k, n ≤ k → requests k = t) → t ≤ positions n →
    (Antitone fun k => positions (n + k)) ∧ ∀ k, t ≤ positions (n + k)
  arrives : ∀ {n t}, (∀ k, n ≤ k → requests k = t) → ∀ k,
    positions (n + k) = t ↔ ⌈|t - positions n| / maxDelta⌉₊ ≤ k

end RateLimiter

open RateLimiter in
/-- The outputs of a limiter with a positive limit track the requests from its memory on. -/
theorem rate_limiter_tracks {r dt : ℚ} (hr : 0 < r) (hdt : 0 < dt) (x : ℚ) (requests : ℕ → ℚ) :
    ∃ positions : ℕ → ℚ, positions 0 = x ∧
      (∀ n, output ⟨some (.fin r), some (.fin x)⟩ (fun k => .fin (requests k)) (.fin dt) n =
        .fin (positions (n + 1))) ∧
      Tracks positions requests (r * dt) := by
  have hm : 0 < r * dt := mul_pos hr hdt
  refine ⟨follow (r * dt) x requests, rfl, output_fin hr.le hdt x requests, ?_⟩
  exact
    { between := fun n => moveToward_mem_uIcc hm.le
      step_le := fun n => abs_moveToward_sub_le hm.le
      ascends := follow_monotone hm.le
      descends := follow_antitone hm.le
      arrives := follow_eq_target_iff hm }

/-- From 0 by steps of 1 to 5/2 : three steps. -/
theorem rate_limiter_tracks_ramp : ∃ positions : ℕ → ℚ, positions 0 = 0 ∧
    (∀ n, RateLimiter.output ⟨some (.fin 100), some (.fin 0)⟩ (fun _ => .fin (5 / 2))
      (.fin (1 / 100)) n = .fin (positions (n + 1))) ∧
    RateLimiter.Tracks positions (fun _ => 5 / 2) (100 * (1 / 100)) :=
  rate_limiter_tracks (by norm_num) (by norm_num) 0 fun _ => 5 / 2

end A1Bsw
