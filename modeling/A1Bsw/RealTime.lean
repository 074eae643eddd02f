import A1Bsw.RateBound

/-!
# Rate limits in real time

The loop gives the limiter the configured period in every cycle, whatever
time has passed. A cycle after a stall starts at once, and the cycles that
catch up each move by a full period's step. So the times of the cycles decide
how fast a signal can move : the limit holds in real time for every run on a
schedule exactly when no span of cycles is shorter than its steps need
(`rate_limit_in_time_iff`).
-/

namespace A1Bsw

namespace Axis

variable (x : Axis) {a : Args} (ρ : GuardRun a)

/-- Every command that is read has a rational of the range in the signal. -/
def InRangeRequests : Prop :=
  ∀ {n cmd cmdAge}, (ρ.input n).cmdRead = .ok (some (cmd, cmdAge)) →
    ∃ q, x.value cmd = .fin q ∧ x.lo ≤ q ∧ q ≤ x.hi

/-- Two cycles after the first send values that differ by at most what the limit `r` allows in
the time between them and in one more period. -/
def BoundedInTime (r : ℚ) : Prop :=
  ∀ i j, 1 ≤ i → i < j → ρ.state (j + 1) ≠ .STOPPED → ∃ u v, x.value (ρ.sent i).out = .fin u ∧
    x.value (ρ.sent j).out = .fin v ∧ |v - u| ≤ r * (ρ.now j - ρ.now i) + r * a.period

variable {x} {ρ} {r : ℚ}

theorem InRangeRequests.finite (h : x.InRangeRequests ρ) : x.FiniteRequests ρ := by
  intro n cmd cmdAge hread
  obtain ⟨q, hq, -⟩ := h hread
  exact ⟨q, hq⟩

/-- Over `k` cycles a signal moves by at most `k` steps, and by at most its range. -/
theorem abs_sub_le_span (hrate : x.rateLimit a = some (.fin r)) (hr : 0 ≤ r)
    (hperiod : 0 < a.period) (hfin : x.FiniteRequests ρ) {i k : ℕ}
    (hrun : ρ.state (i + k + 1) ≠ .STOPPED) :
    ∃ u v, x.value (ρ.sent i).out = .fin u ∧ x.value (ρ.sent (i + k)).out = .fin v ∧
      |v - u| ≤ min (k * (r * a.period)) (x.hi - x.lo) := by
  have hstart : ρ.state (i + 1) ≠ .STOPPED := fun h => hrun (ρ.stopped_of_le (by omega) h)
  obtain ⟨m, hm⟩ := hfin.memory hrate hr hperiod hstart
  obtain ⟨m', hm'⟩ := hfin.memory hrate hr hperiod hrun
  have hu := value_sent_fin hstart hm
  have hv := value_sent_fin hrun hm'
  refine ⟨_, _, hu, hv, le_min ?_ ?_⟩
  · clear hm'
    generalize clamp x.lo x.hi m = u at hu ⊢
    generalize clamp x.lo x.hi m' = v at hv ⊢
    induction k generalizing v with
    | zero =>
      obtain rfl : u = v := by simpa [hu] using hv
      simp
    | succ k ih =>
      obtain ⟨w, v', hw, hv', hstep⟩ := abs_sub_le_step hrate hr hperiod hfin hrun
      obtain rfl : v' = v := by simpa [Nat.add_assoc] using hv'.symm.trans hv
      have hspan := ih (mt ρ.stopped_succ hrun) w hw
      have htri := abs_sub_le v' w u
      push_cast
      linarith
  · obtain ⟨h1, h2⟩ := clamp_mem x.lo_le_hi m
    obtain ⟨h3, h4⟩ := clamp_mem x.lo_le_hi m'
    exact abs_sub_le_iff.2 ⟨by linarith, by linarith⟩

/-! ## The fastest run on a schedule -/

variable (x)

/-- A command that requests `q` in the signal. -/
def request : ℚ → Command
  | q => match x with
    | eps => { epsCmd := .fin q }
    | acc => { accCmd := .fin q }

theorem value_request (q : ℚ) : x.value (x.request q) = .fin q := by
  cases x <;> rfl

/-- Every cycle finds a fresh command, which requests the lower end of the range up to cycle `i`
and the upper end afterwards. -/
def slew (a : Args) {now : ℕ → ℚ} (now_mono : Monotone now) (i : ℕ) : GuardRun a :=
  .fresh a now_mono fun n => x.request (if n ≤ i then x.lo else x.hi)

variable {now : ℕ → ℚ} (now_mono : Monotone now) (i : ℕ)

theorem slew_inRangeRequests : x.InRangeRequests (x.slew a now_mono i) := by
  intro n cmd cmdAge hread
  cases hread
  refine ⟨_, x.value_request _, ?_⟩
  split_ifs
  · exact ⟨le_rfl, x.lo_le_hi⟩
  · exact ⟨x.lo_le_hi, le_rfl⟩

theorem slew_following (n : ℕ) : ((x.slew a now_mono i).state (n + 1)).Following := by
  rw [slew, GuardRun.fresh_active]
  decide

theorem slew_target (n : ℕ) : x.target ((x.slew a now_mono i).entered n) =
    .fin (if n ≤ i then x.lo else x.hi) := by
  have hstate : ((x.slew a now_mono i).entered n).state = .ACTIVE := by
    rw [GuardRun.entered_state, slew, GuardRun.fresh_active]
  have hcmd : ((x.slew a now_mono i).entered n).lastValidCmd =
      x.request (if n ≤ i then x.lo else x.hi) :=
    GuardRun.fresh_lastValidCmd a now_mono (fun n => x.request (if n ≤ i then x.lo else x.hi)) n
  rw [← x.value_request, ← hcmd]
  cases x <;> exact if_pos hstate

/-- Up to cycle `i` the memory is the lower end of the range, and then it moves up. -/
theorem slew_lastValue (hrate : x.rateLimit a = some (.fin r)) (hr : 0 ≤ r)
    (hperiod : 0 < a.period) (k : ℕ) :
    (x.limiter ((x.slew a now_mono i).loop (i + k + 1))).lastValue =
      some (.fin (moveToward (k * (r * a.period)) x.lo x.hi)) := by
  have hstep : 0 ≤ r * a.period := mul_nonneg hr hperiod.le
  have hwait : ∀ n ≤ i, (x.limiter ((x.slew a now_mono i).loop (n + 1))).lastValue =
      some (.fin x.lo) := by
    intro n hn
    induction n with
    | zero =>
      rw [x.lastValue_one_of_following _ (x.slew_following now_mono i 0), slew_target, if_pos hn]
    | succ n ih =>
      have hmove := lastValue_move hrate hr hperiod (x.slew_following now_mono i (n + 1))
        (ih (by omega)) (x.slew_target now_mono i (n + 1))
      rwa [if_pos hn, (moveToward_eq_target_iff hstep).2 (by simpa using hstep)] at hmove
  induction k with
  | zero => rw [Nat.cast_zero, zero_mul, moveToward_zero, Nat.add_zero, hwait i le_rfl]
  | succ k ih =>
    have hmove := lastValue_move hrate hr hperiod (x.slew_following now_mono i (i + k + 1)) ih
      (x.slew_target now_mono i (i + k + 1))
    rw [if_neg (by omega), moveToward_moveToward (by positivity) hstep] at hmove
    push_cast
    rw [add_one_mul]
    exact hmove

/-- From cycle `i` on the signal has moved by as many steps as fit in the range. -/
theorem slew_sent (hrate : x.rateLimit a = some (.fin r)) (hr : 0 ≤ r) (hperiod : 0 < a.period)
    (k : ℕ) : x.value ((x.slew a now_mono i).sent (i + k)).out =
      .fin (x.lo + min (k * (r * a.period)) (x.hi - x.lo)) := by
  have hmove : 0 ≤ min (k * (r * a.period)) (x.hi - x.lo) :=
    le_min (by positivity) (sub_nonneg.2 x.lo_le_hi)
  have hrange := min_le_right (k * (r * a.period)) (x.hi - x.lo)
  rw [value_sent_fin (x.slew_following now_mono i (i + k)).2
    (x.slew_lastValue now_mono i hrate hr hperiod k), moveToward, if_pos x.lo_le_hi,
    clamp_of_mem (by linarith) (by linarith)]

end Axis

open Axis in
/-- On a schedule the limit holds in real time for every run with requests in range exactly when
any two cycles after the first are far enough apart for the steps between them, counting one
period more and no move beyond the range. -/
theorem rate_limit_in_time_iff {a : Args} {x : Axis} {r : ℚ} (hrate : x.rateLimit a = some (.fin r))
    (hr : 0 ≤ r) (hperiod : 0 < a.period) {now : ℕ → ℚ} (now_mono : Monotone now) :
    (∀ ρ : GuardRun a, ρ.now = now → x.InRangeRequests ρ → x.BoundedInTime ρ r) ↔
      ∀ i j, 1 ≤ i → i < j → min ((j - i : ℕ) * (r * a.period)) (x.hi - x.lo) ≤
        r * (now j - now i) + r * a.period := by
  constructor
  · intro hall i j hi hij
    obtain ⟨k, rfl⟩ := Nat.exists_eq_add_of_le hij.le
    obtain ⟨u, v, hu, hv, hle⟩ := hall (x.slew a now_mono i) rfl (x.slew_inRangeRequests now_mono i)
      i (i + k) hi hij (x.slew_following now_mono i (i + k)).2
    have hstart := x.slew_sent now_mono i hrate hr hperiod 0
    rw [Nat.add_zero, hu, PyFloat.fin.injEq] at hstart
    rw [x.slew_sent now_mono i hrate hr hperiod k, PyFloat.fin.injEq] at hv
    have hmove : 0 ≤ min (k * (r * a.period)) (x.hi - x.lo) :=
      le_min (by positivity) (sub_nonneg.2 x.lo_le_hi)
    have hzero : min (0 : ℚ) (x.hi - x.lo) = 0 := min_eq_left (sub_nonneg.2 x.lo_le_hi)
    rw [Nat.cast_zero, zero_mul, hzero, add_zero] at hstart
    rw [hstart, ← hv, add_sub_cancel_left, abs_of_nonneg hmove] at hle
    rwa [Nat.add_sub_cancel_left]
  · intro hschedule ρ hnow hreq i j hi hij hrun
    obtain ⟨k, rfl⟩ := Nat.exists_eq_add_of_le hij.le
    obtain ⟨u, v, hu, hv, hle⟩ := abs_sub_le_span hrate hr hperiod hreq.finite hrun
    refine ⟨u, v, hu, hv, ?_⟩
    have hspan := hschedule i (i + k) hi hij
    rw [Nat.add_sub_cancel_left] at hspan
    rw [hnow]
    exact hle.trans hspan

/-- A loop that starts half a second late, and then catches up at once. -/
theorem monotone_stall : Monotone fun n : ℕ => max ((n : ℚ) / 100) (1 / 2) :=
  GuardRun.monotone_tick.max monotone_const

/-- A limit of 1 degree per cycle, and an angle of 49 degrees requested after cycle 1. -/
def stalledRun : GuardRun { epsRateLimit := some (.fin 100) } :=
  .fresh _ monotone_stall fun n => { epsCmd := .fin (if n ≤ 1 then 0 else 49) }

/-- Cycle 50 sends 49 degrees at the time at which cycle 1 sends zero. -/
theorem stalled_not_bounded :
    (∀ k : ℕ, 0 + k * (1 / 100) ≤ stalledRun.now k) ∧ Axis.eps.InRangeRequests stalledRun ∧
      ¬Axis.eps.BoundedInTime stalledRun 100 := by
  refine ⟨fun k => ?_, fun {n cmd cmdAge} hread => ?_, fun hbound => ?_⟩
  · rw [zero_add, mul_one_div]
    exact le_max_left _ _
  · cases hread
    refine ⟨_, rfl, ?_⟩
    split_ifs <;> decide +kernel
  · obtain ⟨u, v, hu, hv, hle⟩ := hbound 1 50 (by omega) (by omega) (by decide +kernel)
    have h1 : Axis.eps.value (stalledRun.sent 1).out = .fin 0 := by decide +kernel
    have h50 : Axis.eps.value (stalledRun.sent 50).out = .fin 49 := by decide +kernel
    rw [h1, PyFloat.fin.injEq] at hu
    rw [h50, PyFloat.fin.injEq] at hv
    rw [← hu, ← hv] at hle
    revert hle
    decide +kernel

/-- Cycles every 10 ms keep the limit in real time, the stalled schedule does not. -/
theorem rate_limit_in_time_iff_onTime :
    (∀ ρ : GuardRun { epsRateLimit := some (.fin 100) }, (ρ.now = fun n : ℕ => (n : ℚ) / 100) →
      Axis.eps.InRangeRequests ρ → Axis.eps.BoundedInTime ρ 100) ∧
    ¬∀ ρ : GuardRun { epsRateLimit := some (.fin 100) },
      (ρ.now = fun n : ℕ => max ((n : ℚ) / 100) (1 / 2)) →
        Axis.eps.InRangeRequests ρ → Axis.eps.BoundedInTime ρ 100 := by
  have hr : (0 : ℚ) ≤ 100 := by norm_num
  have hperiod : 0 < ({ epsRateLimit := some (.fin 100) } : Args).period := by decide +kernel
  constructor
  · refine (rate_limit_in_time_iff rfl hr hperiod GuardRun.monotone_tick).2 fun i j _ hij => ?_
    refine (min_le_left _ _).trans ?_
    rw [Nat.cast_sub hij.le]
    show ((j : ℚ) - i) * (100 * (1 / 100)) ≤ 100 * (j / 100 - i / 100) + 100 * (1 / 100)
    linarith
  · intro hall
    have hspan := (rate_limit_in_time_iff rfl hr hperiod monotone_stall).1 hall 1 50 (by omega)
      (by omega)
    revert hspan
    decide +kernel

end A1Bsw
