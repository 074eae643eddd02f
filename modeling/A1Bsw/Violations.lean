import A1Bsw.Ramp
import A1Bsw.Soak

/-!
# What the clamp reports

`clamp_range` reports a field when it has cut it, and the program logs what was
reported. So the log says which requests were not plausible, if two things
hold : a request that is plausible is never reported, although what is clamped
is not the request but what the limiters and the fallbacks have made of it, and
a request that is not plausible is reported when it is used. Both do
(`violation_log`). For the first, every value between two values of a range is
in the range, so the memory of a limiter never leaves it.
-/

namespace A1Bsw

/-! ## One clamp -/

/-- A rational between two bounds. -/
def PyFloat.Within (lo hi : ℚ) (v : PyFloat) : Prop :=
  ∃ q, v = .fin q ∧ lo ≤ q ∧ q ≤ hi

theorem PyFloat.fin_beq_iff {q : ℚ} {v : PyFloat} : (fin q == v) = true ↔ v = fin q := by
  have hne : fin q ≠ nan := nofun
  exact decide_eq_true_iff.trans ⟨fun h => h.2.symm, fun h => ⟨hne, h.symm⟩⟩

/-- A clamp keeps exactly the floats that are between its bounds. -/
theorem PyFloat.pyClamp_beq_iff {lo hi : ℚ} (h : lo ≤ hi) (v : PyFloat) :
    (pyClamp (fin lo) (fin hi) v == v) = true ↔ v.Within lo hi := by
  obtain ⟨q, hq, hmem⟩ := pyClamp_mem h v
  rw [hq, fin_beq_iff]
  constructor
  · rintro rfl
    exact ⟨q, rfl, hmem⟩
  · rintro ⟨p, rfl, h0, h1⟩
    rw [pyClamp_fin, min_eq_right h1, max_eq_right h0] at hq
    exact hq

theorem pyClamp_epsSpeed_beq_iff (x : ℤ) :
    (pyClamp epsSpeedMin epsSpeedMax x == x) = true ↔ epsSpeedMin ≤ x ∧ x ≤ epsSpeedMax := by
  rw [beq_iff_eq, pyClamp_eq]
  unfold epsSpeedMin epsSpeedMax
  omega

theorem clip_violations_eq_nil_iff {α : Type} [LT α] [DecidableLT α] [BEq α]
    {toFloat : α → PyFloat} {name : String} {v lo hi : α} :
    (clip toFloat name v lo hi).2 = [] ↔ (pyClamp lo hi v == v) = true := by
  simp only [clip, bne]
  by_cases h : (pyClamp lo hi v == v) = true <;> simp [h]

/-- A command is reported exactly if one of its fields is out of range. -/
theorem clampRange_violations_eq_nil_iff (cmd : Command) :
    (clampRange cmd).2 = [] ↔ cmd.InRange := by
  simp only [clampRange, List.append_eq_nil_iff, clip_violations_eq_nil_iff,
    PyFloat.pyClamp_beq_iff epsCmdMin_le_epsCmdMax, PyFloat.pyClamp_beq_iff accCmdMin_le_accCmdMax,
    PyFloat.pyClamp_beq_iff aebDecelMin_le_aebDecelMax, pyClamp_epsSpeed_beq_iff]
  constructor
  · rintro ⟨⟨⟨heps, hacc⟩, hspeed⟩, haeb⟩
    exact ⟨heps, hacc, hspeed, haeb⟩
  · rintro ⟨heps, hacc, hspeed, haeb⟩
    exact ⟨⟨⟨heps, hacc⟩, hspeed⟩, haeb⟩

/-! ## One limiter -/

/-- A limiter whose memory is between two bounds lets nothing else through. -/
theorem RateLimiter.limited_within {l : RateLimiter} {lo hi dt : ℚ} {value : PyFloat}
    (hmemory : ∀ m, l.lastValue = some m → m.Within lo hi) (hvalue : value.Within lo hi)
    (hpos : ∀ r, l.maxDeltaPerS = some r → 0 < dt → ¬r < .fin 0) :
    (l.limited value (.fin dt)).Within lo hi := by
  rcases hr : l.maxDeltaPerS with _ | r
  · rwa [limited_of_unlimited hr]
  rcases hl : l.lastValue with _ | m
  · rwa [limited_of_unset hl]
  rcases le_or_gt dt 0 with hdt | hdt
  · have hpass : l.limited value (.fin dt) = value := by
      simp only [limited, hr, hl, PyFloat.fin_le_fin, hdt, if_true]
    rwa [hpass]
  obtain ⟨r, rfl, hr0⟩ | hnot := fin_or_not_exceeded (hpos r hr hdt) hdt
  · obtain ⟨x, rfl, hx0, hx1⟩ := hmemory m hl
    obtain ⟨t, rfl, ht0, ht1⟩ := hvalue
    have hmove := moveToward_mem_uIcc (x := x) (t := t) (mul_nonneg hr0 hdt.le)
    rw [Set.mem_uIcc] at hmove
    refine ⟨_, limited_fin hr0 hdt hr hl, ?_, ?_⟩
    · rcases hmove with h | h
      · exact hx0.trans h.1
      · exact ht0.trans h.1
    · rcases hmove with h | h
      · exact h.2.trans ht1
      · exact h.2.trans hx1
  · have hpass : l.limited value (.fin dt) = value := by
      simp only [limited, hr, hl, hnot, if_false, ite_self]
    rwa [hpass]

/-! ## The loop -/

namespace GuardRun

variable {a : Args} (ρ : GuardRun a)

/-- Every command that is read is in range. -/
def InRangeRequests : Prop :=
  ∀ {n cmd cmdAge}, (ρ.input n).cmdRead = .ok (some (cmd, cmdAge)) → cmd.InRange

variable {ρ}

/-- What holds of the default command and of every request holds of the last one. -/
theorem lastValidCmd_of_requests {P : Command → Prop} (h0 : P {})
    (h : ∀ {n cmd cmdAge}, (ρ.input n).cmdRead = .ok (some (cmd, cmdAge)) → P cmd) (n : ℕ) :
    P (ρ.sensed n).lastValidCmd := by
  unfold sensed
  induction n with
  | zero =>
    obtain ⟨cmd, cmdAge, hr, hc, -⟩ | ⟨-, hc, -⟩ := (ρ.loop 0).sense_command (ρ.input 0)
    · rw [hc]
      exact h hr
    · rw [hc, ρ.start]
      exact h0
  | succ n ih =>
    obtain ⟨cmd, cmdAge, hr, hc, -⟩ | ⟨-, hc, -⟩ :=
      (ρ.loop (n + 1)).sense_command (ρ.input (n + 1))
    · rw [hc]
      exact h hr
    · rw [hc, ρ.loop_succ]
      exact ih

theorem default_inRange : ({} : Command).InRange :=
  ⟨⟨0, rfl, by decide +kernel⟩, ⟨0, rfl, by decide +kernel⟩, by decide,
    ⟨0, rfl, by decide +kernel⟩⟩

variable (h : ρ.InRangeRequests)

include h

theorem InRangeRequests.lastValidCmd (n : ℕ) : (ρ.sensed n).lastValidCmd.InRange :=
  lastValidCmd_of_requests default_inRange h n

theorem InRangeRequests.target (x : Axis) (n : ℕ) :
    (x.target (ρ.entered n)).Within x.lo x.hi := by
  refine Axis.target_of_requests (P := PyFloat.Within x.lo x.hi)
    ⟨0, rfl, x.lo_neg.le, x.hi_pos.le⟩ (fun hread => ?_) n
  cases x
  · exact (h hread).epsCmd
  · exact (h hread).accCmd

/-- The memory of a limiter stays in its range. -/
theorem InRangeRequests.memory {x : Axis}
    (hpos : ∀ r, x.rateLimit a = some r → 0 < a.period → ¬r < .fin 0) (n : ℕ) :
    ∀ m, (x.limiter (ρ.loop n)).lastValue = some m → m.Within x.lo x.hi := by
  induction n with
  | zero =>
    intro m hm
    rw [ρ.start] at hm
    cases x <;> cases hm
  | succ n ih =>
    intro m hm
    by_cases hinit : ρ.state (n + 1) = .INIT
    · rw [x.lastValue_succ_of_init ρ hinit, Option.some.injEq] at hm
      exact ⟨0, hm.symm, x.lo_neg.le, x.hi_pos.le⟩
    by_cases hstop : ρ.state (n + 1) = .STOPPED
    · rw [ρ.loop_succ, x.limiter_afterSend_of_stopped _ (by rwa [ρ.entered_state]),
        x.limiter_entered] at hm
      exact ih m hm
    · rw [x.lastValue_succ_of_following ρ ⟨hinit, hstop⟩, Option.some.injEq] at hm
      rw [← hm]
      refine RateLimiter.limited_within ih (h.target x n) fun r hr hperiod => ?_
      exact hpos r ((x.maxDeltaPerS_limiter ρ n).symm.trans hr) hperiod

/-- Nothing that the policy makes of requests in range is out of range. -/
theorem InRangeRequests.policy
    (hpos : ∀ x : Axis, ∀ r, x.rateLimit a = some r → 0 < a.period → ¬r < .fin 0) (n : ℕ) :
    ((ρ.entered n).policy a.period).out.InRange := by
  have hlast : (ρ.entered n).lastValidCmd.InRange := h.lastValidCmd n
  have hpass (x : Axis) : ((x.limiter (ρ.entered n)).limited (x.target (ρ.entered n))
      (.fin a.period)).Within x.lo x.hi := by
    rw [x.limiter_entered]
    refine RateLimiter.limited_within (h.memory (hpos x) n) (h.target x n) fun r hr hperiod => ?_
    exact hpos x r ((x.maxDeltaPerS_limiter ρ n).symm.trans hr) hperiod
  by_cases hinit : (ρ.entered n).state = .INIT
  · rw [LoopState.policy, hinit]
    exact default_inRange
  by_cases hstop : (ρ.entered n).state = .STOPPED
  · rw [LoopState.policy, hstop]
    exact { default_inRange with epsSpeed := hlast.epsSpeed }
  · rw [LoopState.policy, commandForState_of_following ⟨hinit, hstop⟩]
    exact { hlast with epsCmd := hpass .eps, accCmd := hpass .acc }

theorem InRangeRequests.violations
    (hpos : ∀ x : Axis, ∀ r, x.rateLimit a = some r → 0 < a.period → ¬r < .fin 0) (n : ℕ) :
    (ρ.sent n).violations = [] := by
  rw [ρ.sent_eq]
  exact (clampRange_violations_eq_nil_iff _).2 (h.policy hpos n)

omit h in
/-- Without limits an ACTIVE cycle reports its request. -/
theorem violations_of_active (hfree : ∀ x : Axis, x.rateLimit a = none) {n : ℕ}
    (hactive : ρ.state (n + 1) = .ACTIVE) :
    (ρ.sent n).violations = (clampRange (ρ.sensed n).lastValidCmd).2 := by
  have hpass (x : Axis) (v : PyFloat) :
      (x.limiter (ρ.entered n)).limited v (.fin a.period) = v := by
    rw [x.limiter_entered]
    exact RateLimiter.limited_of_unlimited ((x.maxDeltaPerS_limiter ρ n).trans (hfree x)) _ _
  have hout : ((ρ.entered n).policy a.period).out = (ρ.sensed n).lastValidCmd := by
    rw [LoopState.policy, ρ.entered_state, hactive]
    have heps := hpass .eps (ρ.entered n).lastValidCmd.epsCmd
    have hacc := hpass .acc (ρ.entered n).lastValidCmd.accCmd
    dsimp only [Axis.limiter] at heps hacc
    simp only [commandForState, RateLimiter.step, heps, hacc]
    rfl
  rw [ρ.sent_eq]
  exact congrArg (fun cmd => (clampRange cmd).2) hout

end GuardRun

/-! ## The log -/

/-- The violations of a log line. -/
def Event.reported : Event → Option (List Violation)
  | .violations vs => some vs
  | _ => none

namespace ProgramRun

variable {o : Options} {P : ProgramRun o} {n : ℕ}

theorem Runs.violated_eq (h : P.Runs n) :
    (P.prog n).violated o (P.pace.now n) (P.reads n) =
      if (P.guard.sent n).violations ≠ [] ∧ ¬o.quiet then
        o.log (.violations (P.guard.sent n).violations) else [] := by
  rw [Prog.violated, h.entered, GuardRun.sent_eq]

/-- A cycle that reports nothing leaves no line. -/
theorem Runs.events_reported (h : P.Runs n) (hnone : (P.guard.sent n).violations = []) :
    (P.events n).filterMap Event.reported = [] := by
  have hnot : ¬((P.guard.sent n).violations ≠ [] ∧ ¬o.quiet) := fun hv => hv.1 hnone
  rw [h.events_eq, h.violated_eq, if_neg hnot]
  split_ifs
  · rw [List.append_nil, Prog.filterMap_snapshots fun _ => rfl]
  · rw [List.append_nil, List.filterMap_append, List.filterMap_append,
      Prog.filterMap_snapshots fun _ => rfl, announced,
      Prog.filterMap_announce (fun _ _ _ => rfl) fun _ => rfl,
      filterMap_sends (fun _ _ => rfl) rfl, List.append_nil, List.append_nil]

variable (P)

/-- The log reports the requests that are not plausible. -/
structure ReportsRequests : Prop where
  /-- Requests in range are never reported, whatever the limiters and the fallbacks make of
  them. -/
  silent : (∀ x : Axis, ∀ r, x.rateLimit o.toArgs = some r → 0 < o.period → ¬r < .fin 0) →
    P.guard.InRangeRequests → ∀ n, (P.prog n).trace.filterMap Event.reported = []
  /-- Without limits, a complete cycle that is ACTIVE on a request out of range logs the fields
  that were cut. -/
  loud : (∀ x : Axis, x.rateLimit o.toArgs = none) → o.quiet = false → ∀ n k, P.Runs n → k < n →
    P.guard.state (k + 1) = .ACTIVE → ¬(P.guard.sensed k).lastValidCmd.InRange →
      (clampRange (P.guard.sensed k).lastValidCmd).2 ≠ [] ∧
      .violations (clampRange (P.guard.sensed k).lastValidCmd).2 ∈ (P.prog n).trace

end ProgramRun

/-- The log has a violation for requests out of range, and for no others. -/
theorem violation_log {o : Options} (P : ProgramRun o) : P.ReportsRequests where
  silent hpos hreq n := by
    have hcycle : ∀ k < (P.prog n).begun, (P.events k).filterMap Event.reported = [] :=
      fun k hk => (P.runs_of_lt_begun hk).events_reported (hreq.violations hpos k)
    rw [P.filterMap_trace hcycle, List.flatMap_eq_nil_iff.2 fun _ _ => rfl]
    rfl
  loud hfree hlog n k hrun hk hactive hout := by
    have hne : (clampRange (P.guard.sensed k).lastValidCmd).2 ≠ [] :=
      mt (clampRange_violations_eq_nil_iff _).1 hout
    refine ⟨hne, ?_⟩
    have hvs := GuardRun.violations_of_active hfree hactive
    obtain ⟨hbefore, -, hfault⟩ := ProgramRun.runs_succ_iff.1 (.of_le hk hrun)
    rw [P.trace_eq, hrun.begun]
    refine List.mem_cons_of_mem _ (List.mem_flatMap.2 ⟨k, List.mem_range.2 hk, ?_⟩)
    rw [hbefore.events_eq, if_neg (not_faulty_iff.1 hfault).1, hbefore.violated_eq, hvs,
      if_pos ⟨hne, by rw [hlog]; exact Bool.false_ne_true⟩, Options.log, hlog]
    exact List.mem_append_right _ (List.mem_append_left _
      (List.mem_append_right _ (List.mem_singleton_self _)))

end A1Bsw
