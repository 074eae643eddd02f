import A1Bsw.RateBound

/-!
# A NaN in the request

A NaN passes the limiter, and the clamp turns it into the upper end of the
range. The limiter remembers the NaN, and a NaN in its memory lets the next
request pass as well. So one NaN sends an extreme, and for two pairs of
cycles the limit is off : the NaN's and the one that leads back to a number.

Both are harmless only if what is sent already lies at the extreme
(`nan_contained_iff`).
-/

namespace A1Bsw

namespace Axis

variable (x : Axis) {a : Args} (ρ : GuardRun a)

/-- Every command that is read has a rational or a NaN in the signal. -/
def NumericRequests : Prop :=
  ∀ {n cmd cmdAge}, (ρ.input n).cmdRead = .ok (some (cmd, cmdAge)) →
    (∃ q, x.value cmd = .fin q) ∨ x.value cmd = .nan

/-- Cycle `n` is ACTIVE and its request is a NaN. -/
def NanAt (n : ℕ) : Prop :=
  ρ.state (n + 1) = .ACTIVE ∧ x.value (ρ.sensed n).lastValidCmd = .nan

/-- `after` steers no harder, or accelerates no more, than `before`. -/
def NoFurther : Axis → ℚ → ℚ → Prop
  | eps, before, after => |after| ≤ |before|
  | acc, before, after => after ≤ before

/-- A memory whose clamp no value of the range exceeds. -/
def Extreme : Axis → PyFloat → Prop
  | eps, m => m = .nan ∨ ∃ q, m = .fin q ∧ epsCmdMax ≤ |q|
  | acc, m => m = .nan ∨ ∃ q, m = .fin q ∧ accCmdMax ≤ q

/-- A NaN does not send more than the cycle before it, and after one the limit still holds. -/
structure NanContained : Prop where
  noFurther : ∀ n, x.NanAt ρ (n + 1) → ∃ before after, x.value (ρ.sent n).out = .fin before ∧
    x.value (ρ.sent (n + 1)).out = .fin after ∧ x.NoFurther before after
  bounded : ∀ r, x.rateLimit a = some (.fin r) → ∀ m n, x.NanAt ρ m → m ≤ n →
    ρ.state (n + 1 + 1) ≠ .STOPPED → ∃ u v, x.value (ρ.sent n).out = .fin u ∧
      x.value (ρ.sent (n + 1)).out = .fin v ∧ |v - u| ≤ r * a.period

/-- A NaN finds the limiter at an extreme. From the first NaN on, a cycle in which only one of
the limiter's memory and its target is a NaN finds the other one within a step of the upper
end. -/
structure NanHarmless : Prop where
  extreme : ∀ n, x.NanAt ρ (n + 1) →
    ∃ m, (x.limiter (ρ.loop (n + 1))).lastValue = some m ∧ x.Extreme m
  nearTop : ∀ r, x.rateLimit a = some (.fin r) → ∀ m n, x.NanAt ρ m → m ≤ n →
    ρ.state (n + 1 + 1) ≠ .STOPPED → ∀ q,
      ((x.limiter (ρ.loop (n + 1))).lastValue = some .nan ∧
          x.target (ρ.entered (n + 1)) = .fin q ∨
        (x.limiter (ρ.loop (n + 1))).lastValue = some (.fin q) ∧
          x.target (ρ.entered (n + 1)) = .nan) →
      x.hi ≤ clamp x.lo x.hi q + r * a.period

variable {x} {ρ} {r : ℚ}

theorem Extreme.nan : x.Extreme .nan := by
  cases x <;> exact .inl rfl

/-- ACTIVE asks for the request. -/
theorem target_of_active {n : ℕ} (h : ρ.state (n + 1) = .ACTIVE) :
    x.target (ρ.entered n) = x.value (ρ.sensed n).lastValidCmd := by
  rw [← ρ.entered_state] at h
  cases x <;> exact if_pos h

/-- Once ACTIVE the guard never returns to INIT. -/
theorem NanAt.following {m n : ℕ} (h : x.NanAt ρ m) (hmn : m ≤ n)
    (hrun : ρ.state (n + 1 + 1) ≠ .STOPPED) : (ρ.state (n + 1 + 1)).Following := by
  refine ⟨fun hinit => ?_, hrun⟩
  have hm := ρ.init_of_le (show m + 1 ≤ n + 1 + 1 by omega) hinit
  rw [h.1] at hm
  cases hm

/-- The targets are numeric as well. -/
theorem NumericRequests.target (h : x.NumericRequests ρ) (n : ℕ) :
    (∃ t, x.target (ρ.entered n) = .fin t) ∨ x.target (ρ.entered n) = .nan :=
  target_of_requests (P := fun v => (∃ q, v = .fin q) ∨ v = .nan) (.inl ⟨0, rfl⟩) h n

/-- With no limit, or one that is a number, the memory is numeric from the first cycle on. -/
theorem NumericRequests.memory (h : x.NumericRequests ρ)
    (hlimit : ∀ r, x.rateLimit a = some r → ∃ q, 0 ≤ q ∧ r = .fin q) (hperiod : 0 < a.period)
    {n : ℕ} (hrun : ρ.state (n + 1) ≠ .STOPPED) :
    ∃ m, (x.limiter (ρ.loop (n + 1))).lastValue = some m ∧ ((∃ q, m = .fin q) ∨ m = .nan) := by
  induction n with
  | zero =>
    by_cases hinit : ρ.state 1 = .INIT
    · exact ⟨_, x.lastValue_succ_of_init ρ hinit, .inl ⟨0, rfl⟩⟩
    · exact ⟨_, x.lastValue_one_of_following ρ ⟨hinit, hrun⟩, h.target 0⟩
  | succ n ih =>
    by_cases hinit : ρ.state (n + 1 + 1) = .INIT
    · exact ⟨_, x.lastValue_succ_of_init ρ hinit, .inl ⟨0, rfl⟩⟩
    refine ⟨_, x.lastValue_succ_of_following ρ ⟨hinit, hrun⟩, ?_⟩
    obtain ⟨m, hm, hnum⟩ := ih (mt ρ.stopped_succ hrun)
    rcases h.target (n + 1) with ⟨t, ht⟩ | ht
    · rw [ht]
      rcases hnum with ⟨q, rfl⟩ | rfl
      · rcases hrate : x.rateLimit a with _ | r
        · have hfree := (x.maxDeltaPerS_limiter ρ (n + 1)).trans hrate
          exact .inl ⟨t, RateLimiter.limited_of_unlimited hfree _ _⟩
        · obtain ⟨r, hr, rfl⟩ := hlimit r hrate
          have hset := (x.maxDeltaPerS_limiter ρ (n + 1)).trans hrate
          exact .inl ⟨_, RateLimiter.limited_fin hr hperiod hset hm⟩
      · exact .inl ⟨t, RateLimiter.limited_of_last_nan hm _ _⟩
    · rw [ht]
      exact .inr (RateLimiter.limited_nan _ _)

/-- A cycle that leaves a NaN in the memory sends the upper end. -/
theorem value_sent_nan {n : ℕ} (hrun : ρ.state (n + 1) ≠ .STOPPED)
    (hm : (x.limiter (ρ.loop (n + 1))).lastValue = some .nan) :
    x.value (ρ.sent n).out = .fin x.hi := by
  obtain ⟨memory, hmem, hout⟩ := x.value_sent ρ hrun
  rw [hm, Option.some.injEq] at hmem
  rw [hout, ← hmem, PyFloat.pyClamp_of_not_lt x.lo_le_hi (PyFloat.not_nan_lt _)]

/-- A NaN as target leaves a NaN in the memory. -/
theorem lastValue_nan {n : ℕ} (hfollow : (ρ.state (n + 1)).Following)
    (ht : x.target (ρ.entered n) = .nan) : (x.limiter (ρ.loop (n + 1))).lastValue = some .nan := by
  rw [x.lastValue_succ_of_following ρ hfollow, ht, RateLimiter.limited_nan]

/-- After a NaN in the memory every target is passed. -/
theorem lastValue_of_last_nan {n : ℕ} (hfollow : (ρ.state (n + 1)).Following)
    (hm : (x.limiter (ρ.loop n)).lastValue = some .nan) :
    (x.limiter (ρ.loop (n + 1))).lastValue = some (x.target (ρ.entered n)) := by
  rw [x.lastValue_succ_of_following ρ hfollow, RateLimiter.limited_of_last_nan hm]

/-- The upper end is no further than the clamp of a memory exactly when that is an extreme. -/
theorem noFurther_clamp_iff (q : ℚ) :
    x.NoFurther (clamp x.lo x.hi q) x.hi ↔ x.Extreme (.fin q) := by
  cases x
  · have hpos : 0 < epsCmdMax := eps.hi_pos
    show |epsCmdMax| ≤ |clamp (-epsCmdMax) epsCmdMax q| ↔ _
    rw [abs_of_pos hpos, le_abs_clamp_iff hpos]
    simp [Extreme]
  · have hlt : accCmdMin < accCmdMax := acc.lo_neg.trans acc.hi_pos
    show accCmdMax ≤ clamp accCmdMin accCmdMax q ↔ _
    rw [le_clamp_iff hlt]
    simp [Extreme]

theorem noFurther_hi : x.NoFurther x.hi x.hi := by
  cases x <;> exact le_rfl

theorem noFurther_iff {n : ℕ} (hnum : x.NumericRequests ρ)
    (hlimit : ∀ r, x.rateLimit a = some r → ∃ q, 0 ≤ q ∧ r = .fin q) (hperiod : 0 < a.period)
    (hnan : x.NanAt ρ (n + 1)) :
    (∃ before after, x.value (ρ.sent n).out = .fin before ∧
        x.value (ρ.sent (n + 1)).out = .fin after ∧ x.NoFurther before after) ↔
      ∃ m, (x.limiter (ρ.loop (n + 1))).lastValue = some m ∧ x.Extreme m := by
  obtain ⟨hactive, hreq⟩ := hnan
  have hfollow : (ρ.state (n + 1 + 1)).Following := by simp [State.Following, hactive]
  have hprev : ρ.state (n + 1) ≠ .STOPPED := mt ρ.stopped_succ hfollow.2
  have htarget : x.target (ρ.entered (n + 1)) = .nan := by
    rw [target_of_active hactive, hreq]
  have hafter := value_sent_nan hfollow.2 (lastValue_nan hfollow htarget)
  obtain ⟨m, hm, ⟨q, rfl⟩ | rfl⟩ := hnum.memory hlimit hperiod hprev
  · simp [value_sent_fin hprev hm, hafter, hm, noFurther_clamp_iff]
  · simp [value_sent_nan hprev hm, hafter, hm, noFurther_hi, Extreme.nan]

/-- Of two consecutive cycles that do not stop, with a limit, the second is within a step of
the first exactly when a NaN on one side only finds the other side within a step of the upper
end. -/
theorem bounded_iff (hrate : x.rateLimit a = some (.fin r)) (hr : 0 ≤ r) (hperiod : 0 < a.period)
    (hnum : x.NumericRequests ρ) {n : ℕ} (hfollow : (ρ.state (n + 1 + 1)).Following) :
    (∃ u v, x.value (ρ.sent n).out = .fin u ∧ x.value (ρ.sent (n + 1)).out = .fin v ∧
        |v - u| ≤ r * a.period) ↔
      ∀ q, ((x.limiter (ρ.loop (n + 1))).lastValue = some .nan ∧
            x.target (ρ.entered (n + 1)) = .fin q ∨
          (x.limiter (ρ.loop (n + 1))).lastValue = some (.fin q) ∧
            x.target (ρ.entered (n + 1)) = .nan) →
        x.hi ≤ clamp x.lo x.hi q + r * a.period := by
  have hstep : 0 ≤ r * a.period := mul_nonneg hr hperiod.le
  have hprev : ρ.state (n + 1) ≠ .STOPPED := mt ρ.stopped_succ hfollow.2
  have hlimit : ∀ r', x.rateLimit a = some r' → ∃ q, 0 ≤ q ∧ r' = .fin q := by
    rintro r' hr'
    exact ⟨r, hr, Option.some.inj (hr'.symm.trans hrate)⟩
  -- The distance of the upper end to the clamp of a rational.
  have hdist : ∀ q, |x.hi - clamp x.lo x.hi q| ≤ r * a.period ↔
      x.hi ≤ clamp x.lo x.hi q + r * a.period := by
    intro q
    rw [abs_of_nonneg (sub_nonneg.2 (clamp_mem x.lo_le_hi q).2), sub_le_iff_le_add']
  obtain ⟨m, hm, ⟨q, rfl⟩ | rfl⟩ := hnum.memory hlimit hperiod hprev
  · have hbefore := value_sent_fin hprev hm
    rcases hnum.target (n + 1) with ⟨t, ht⟩ | ht
    · have hafter := value_sent_fin hfollow.2 (lastValue_move hrate hr hperiod hfollow hm ht)
      have hmove : |clamp x.lo x.hi (moveToward (r * a.period) q t) - clamp x.lo x.hi q| ≤
          r * a.period := (abs_clamp_sub_clamp_le _ _).trans (abs_moveToward_sub_le hstep)
      simpa [hbefore, hafter, hm, ht] using hmove
    · have hafter := value_sent_nan hfollow.2 (lastValue_nan hfollow ht)
      simp [hbefore, hafter, hm, ht, hdist]
  · have hbefore := value_sent_nan hprev hm
    have hpass := lastValue_of_last_nan hfollow hm
    rcases hnum.target (n + 1) with ⟨t, ht⟩ | ht
    · rw [ht] at hpass
      have hafter := value_sent_fin hfollow.2 hpass
      simp [hbefore, hafter, hm, ht, abs_sub_comm _ x.hi, hdist]
    · have hafter := value_sent_nan hfollow.2 (lastValue_nan hfollow ht)
      simp [hbefore, hafter, hm, ht, hstep]

end Axis

open Axis in
/-- A NaN is contained exactly when every NaN is harmless. -/
theorem nan_contained_iff {a : Args} {ρ : GuardRun a} {x : Axis} (hnum : x.NumericRequests ρ)
    (hlimit : ∀ r, x.rateLimit a = some r → ∃ q, 0 ≤ q ∧ r = .fin q) (hperiod : 0 < a.period) :
    x.NanContained ρ ↔ x.NanHarmless ρ := by
  have hnonneg : ∀ {r}, x.rateLimit a = some (.fin r) → 0 ≤ r := by
    intro r hrate
    obtain ⟨q, hq, hqr⟩ := hlimit _ hrate
    cases hqr
    exact hq
  constructor
  · rintro ⟨hfurther, hbound⟩
    refine ⟨fun n hnan => (noFurther_iff hnum hlimit hperiod hnan).1 (hfurther n hnan), ?_⟩
    intro r hrate m n hnan hmn hrun
    exact (bounded_iff hrate (hnonneg hrate) hperiod hnum (hnan.following hmn hrun)).1
      (hbound r hrate m n hnan hmn hrun)
  · rintro ⟨hextreme, hnear⟩
    refine ⟨fun n hnan => (noFurther_iff hnum hlimit hperiod hnan).2 (hextreme n hnan), ?_⟩
    intro r hrate m n hnan hmn hrun
    exact (bounded_iff hrate (hnonneg hrate) hperiod hnum (hnan.following hmn hrun)).2
      (hnear r hrate m n hnan hmn hrun)

/-- A limit of 1 degree per cycle, and an angle of 10 degrees requested in every cycle but
cycle 1, which requests a NaN. -/
def nanRun : GuardRun { epsRateLimit := some (.fin 100) } :=
  .fresh _ GuardRun.monotone_tick fun n => { epsCmd := if n = 1 then .nan else .fin 10 }

theorem nanRun_numericRequests : Axis.eps.NumericRequests nanRun := by
  intro n cmd cmdAge hread
  cases hread
  by_cases hn : n = 1
  · exact .inr (if_pos hn)
  · exact .inl ⟨10, if_neg hn⟩

/-- The NaN sends 500 degrees, and the cycle after it 10 degrees. -/
theorem nan_not_contained :
    Axis.eps.NumericRequests nanRun ∧ Axis.eps.NanAt nanRun 1 ∧
      Axis.eps.value (nanRun.sent 0).out = .fin 10 ∧
      Axis.eps.value (nanRun.sent 1).out = .fin 500 ∧
      Axis.eps.value (nanRun.sent 2).out = .fin 10 ∧ ¬Axis.eps.NanContained nanRun := by
  have hnan : Axis.eps.NanAt nanRun 1 := by
    constructor <;> decide +kernel
  have h0 : Axis.eps.value (nanRun.sent 0).out = .fin 10 := by decide +kernel
  have h1 : Axis.eps.value (nanRun.sent 1).out = .fin 500 := by decide +kernel
  refine ⟨nanRun_numericRequests, hnan, h0, h1, by decide +kernel, fun h => ?_⟩
  obtain ⟨before, after, hbefore, hafter, hle⟩ := h.noFurther 0 hnan
  rw [h0, PyFloat.fin.injEq] at hbefore
  rw [h1, PyFloat.fin.injEq] at hafter
  subst hbefore hafter
  revert hle
  show ¬|(500 : ℚ)| ≤ |10|
  decide +kernel

theorem nan_contained_iff_nanRun :
    Axis.eps.NanContained nanRun ↔ Axis.eps.NanHarmless nanRun := by
  refine nan_contained_iff nanRun_numericRequests ?_ (by decide +kernel)
  rintro r hrate
  cases hrate
  exact ⟨100, by norm_num, rfl⟩

end A1Bsw
