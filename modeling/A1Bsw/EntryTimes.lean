import A1Bsw.GuardLoop

/-!
# Entry times

The loop carries an entry time for HOLDING and one for DEGRADED, and updates
the two side by side. Each is set exactly in its state, to the time of the
first cycle of the stay, so a duration that the state machine compares with a
limit is the length of one uninterrupted stay (`entry_times`).
-/

namespace A1Bsw

namespace GuardRun

variable {a : Args} (ρ : GuardRun a)

/-- After cycle `n` the entry time of a state is that of the first cycle of the stay, and is set
in that state only. The duration that the next cycle passes on is the length of the stay, and
zero outside one. -/
structure MeasuresStay (st : State) (enteredAt : LoopState → Option ℚ)
    (duration : Observation → Option ℚ) (n : ℕ) : Prop where
  isSome_iff : (enteredAt (ρ.loop (n + 1))).isSome ↔ ρ.state (n + 1) = st
  inside : ρ.state (n + 1) = st → ∃ c, Since (fun k => ρ.state k = st) c n ∧
    enteredAt (ρ.loop (n + 1)) = some (ρ.now c) ∧
      duration (ρ.observed (n + 1)) = some (ρ.now (n + 1) - ρ.now c)
  outside : ρ.state (n + 1) ≠ st → duration (ρ.observed (n + 1)) = some 0
  nonneg : ∃ d, duration (ρ.observed (n + 1)) = some d ∧ 0 ≤ d

variable {ρ} {st : State} {enteredAt : LoopState → Option ℚ} {duration : Observation → Option ℚ}

/-- An entry clock measures its stays when the durations are taken from it. -/
theorem MeasuresStay.of_clock
    (clock : EntryClock (fun n => ρ.state n = st) ρ.now fun n => enteredAt (ρ.loop n))
    (hin : ∀ {c n}, Since (fun k => ρ.state k = st) c n →
      duration (ρ.observed (n + 1)) = some (ρ.now (n + 1) - ρ.now c))
    (hout : ∀ {n}, ρ.state n ≠ st → duration (ρ.observed n) = some 0) (n : ℕ) :
    ρ.MeasuresStay st enteredAt duration n where
  isSome_iff := clock.isSome_iff
  inside h := by
    obtain ⟨c, hc⟩ := clock.exists_since h
    exact ⟨c, hc, clock.eq_some hc, hin hc⟩
  outside h := hout h
  nonneg := by
    by_cases h : ρ.state (n + 1) = st
    · obtain ⟨c, hc⟩ := clock.exists_since h
      exact ⟨_, hin hc, sub_nonneg.2 (ρ.now_le (hc.le.trans n.le_succ))⟩
    · exact ⟨0, hout h, le_rfl⟩

end GuardRun

/-- After every cycle the two entry times and the two durations describe the current stays, at
most one of the two is set, and the first cycle passes on two zeros. -/
theorem entry_times {a : Args} (ρ : GuardRun a) :
    (∀ n, ρ.MeasuresStay .HOLDING LoopState.holdingEnteredAt Observation.holdingDuration n ∧
      ρ.MeasuresStay .DEGRADED LoopState.degradedEnteredAt Observation.degradedDuration n ∧
      ¬((ρ.loop (n + 1)).holdingEnteredAt.isSome ∧ (ρ.loop (n + 1)).degradedEnteredAt.isSome)) ∧
    (ρ.observed 0).holdingDuration = some 0 ∧ (ρ.observed 0).degradedDuration = some 0 := by
  refine ⟨fun n => ?_, ρ.holdingDuration_of_ne (by simp [ρ.state_zero]),
    ρ.degradedDuration_of_ne (by simp [ρ.state_zero])⟩
  have hH : ρ.MeasuresStay .HOLDING LoopState.holdingEnteredAt Observation.holdingDuration n :=
    .of_clock ρ.holdingClock ρ.holdingDuration_of_since ρ.holdingDuration_of_ne n
  have hD : ρ.MeasuresStay .DEGRADED LoopState.degradedEnteredAt Observation.degradedDuration n :=
    .of_clock ρ.degradedClock ρ.degradedDuration_of_since ρ.degradedDuration_of_ne n
  refine ⟨hH, hD, ?_⟩
  rintro ⟨hh, hd⟩
  exact absurd ((hH.isSome_iff.1 hh).symm.trans (hD.isSome_iff.1 hd)) (by decide)

end A1Bsw
