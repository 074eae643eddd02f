import A1Bsw.Deadlines
import A1Bsw.ServiceLog

/-!
# The program in real time

Bounds on the work of a cycle and on the overrun of a sleep are bounds on the
lateness, on the silence that the service manager hears, and on the time the
vehicle goes on after the control node has died. A delay is worked off
(`on_schedule`), a cycle that is far shorter than `WatchdogSec` keeps the
program alive (`watchdog_fed`), and the limits of the state machine hold in
real time up to twice the distance of two cycles (`control_node_deadline`).
-/

namespace A1Bsw

namespace ProgramRun

variable {o : Options} {P : ProgramRun o}

theorem Runs.late_eq {n : ℕ} (h : P.Runs n) : P.pace.now n - (P.prog n).nextT = P.pace.late n := by
  rw [h.aligned.2.1, Pace.late]

end ProgramRun

/-- However late a cycle is, the cycles after it start on time once the delay is worked off, if
the late cycle and each one after it are shorter than the period. -/
theorem on_schedule {o : Options} {P : ProgramRun o} {b e : ℚ} {k n : ℕ}
    (hwithin : P.pace.Within b e k) (hb : b < o.period) (hrun : P.Runs n)
    (hn : k + ⌈(P.pace.now k - (P.prog k).nextT - e) / (o.period - b)⌉₊ ≤ n) :
    (P.prog n).nextT ≤ P.pace.now n ∧ P.pace.now n ≤ (P.prog n).nextT + e := by
  obtain ⟨m, rfl⟩ := Nat.exists_eq_add_of_le ((Nat.le_add_right k _).trans hn)
  have hdue := hrun.aligned.2.1
  have hlate := hwithin.late_le (P.period_eq ▸ hb.le) m
  have hrate : 0 < o.period - b := sub_pos.2 hb
  have hcycles : (P.pace.late k - e) / (o.period - b) ≤ m := by
    rw [(ProgramRun.Runs.of_le (Nat.le_add_right k m) hrun).late_eq] at hn
    exact (Nat.le_ceil _).trans (Nat.cast_le.2 (by omega))
  have hworked := (div_le_iff₀ hrate).1 hcycles
  rw [P.period_eq] at hlate
  have hle : P.pace.late (k + m) ≤ e := hlate.trans (max_le le_rfl (by linarith))
  rw [hdue]
  rw [Pace.late] at hle
  exact ⟨P.pace.due_le_now _, by linarith⟩

/-- A loop that comes half a second late to its first cycle, and whose cycles take no time. -/
def latePace : Pace ℚ where
  start := 0
  period := 1 / 100
  arrive k := max (1 / 2) ((k - 1) / 100)
  woken k := k / 100
  start_le := le_max_of_le_left (by norm_num)
  due_le_woken k _ := by linarith
  wake_le k := by
    unfold wake
    push_cast
    split_ifs
    · exact le_max_of_le_right (by linarith)
    · exact max_le_max le_rfl (by linarith)

theorem latePace_within : latePace.Within 0 0 0 := by
  refine ⟨fun i _ => ?_, fun i _ _ => ?_⟩
  · have hnow := latePace.arrive_le_now i
    have hdue := latePace.due_le_now i
    have harrive : latePace.arrive (i + 1) ≤ latePace.now i := by
      refine max_le ((le_max_left _ _).trans hnow) (le_trans ?_ hdue)
      rw [Pace.due]
      show ((i + 1 : ℕ) - 1 : ℚ) / 100 ≤ 0 + i * (1 / 100)
      push_cast
      linarith
    rw [Pace.busy]
    linarith
  · show (i : ℚ) / 100 - (0 + i * (1 / 100)) ≤ 0
    linarith

def lateProgram : ProgramRun {} where
  pace := latePace
  reads _ := {}
  period_eq := rfl

/-- The delay of half a second is worked off in fifty cycles. -/
theorem on_schedule_late : (lateProgram.prog 60).nextT ≤ lateProgram.pace.now 60 ∧
    lateProgram.pace.now 60 ≤ (lateProgram.prog 60).nextT + 0 :=
  on_schedule (k := 0) latePace_within (by decide +kernel)
    (ProgramRun.runs_of_healthy (fun _ => ⟨Bool.false_ne_true, .inl rfl⟩) (fun _ _ => rfl) _)
    (by decide +kernel)

/-! ## The service manager's clock -/

/-- When the service manager hears from the program : `READY`, and a `WATCHDOG` at the end of
each cycle. -/
structure Notified {o : Options} (P : ProgramRun o) where
  ready : ℚ
  watchdog : ℕ → ℚ
  ready_le : ready ≤ P.pace.start
  now_le : ∀ n, P.pace.now n ≤ watchdog n
  le_arrive : ∀ n, watchdog n ≤ P.pace.arrive (n + 1)

/-- The time of the notification after `n` complete cycles. -/
def Notified.time {o : Options} {P : ProgramRun o} (N : Notified P) : ℕ → ℚ
  | 0 => N.ready
  | n + 1 => N.watchdog n

/-- While its cycles succeed, the program has always been heard from in the last `W`, if two
cycles fit in it, and a period with the overrun of its sleep and one cycle. -/
theorem watchdog_fed {o : Options} {P : ProgramRun o} (N : Notified P) {b e W : ℚ}
    (hperiod : 0 < o.period) (hwithin : P.pace.Within b e 0)
    (hstart : P.pace.now 0 + b ≤ N.ready + W) (htwo : 2 * b ≤ W) (hone : o.period + e + b ≤ W)
    {t : ℚ} (ht : N.ready ≤ t) (hrun : ∀ n, P.pace.now n ≤ t → P.Runs (n + 1)) :
    ∃ n, P.Runs n ∧ N.time n ≤ t ∧ t ≤ N.time n + W := by
  have hgap : ∀ n, N.time (n + 1) ≤ N.time n + W := by
    intro n
    have hbusy := hwithin.busy n n.zero_le
    have hlast := N.le_arrive n
    rw [Pace.busy] at hbusy
    cases n with
    | zero =>
      show N.watchdog 0 ≤ N.ready + W
      linarith
    | succ n =>
      show N.watchdog (n + 1) ≤ N.watchdog n + W
      have hnow := N.now_le n
      have hnext := hwithin.now_succ_le n.zero_le
      rw [P.period_eq] at hnext
      rcases max_choice b (o.period + e) with h | h <;> rw [h] at hnext <;> linarith
  have hpast : ∃ k, 0 ≤ k ∧ t < N.time k := by
    obtain ⟨k, hk⟩ := Pace.exists_lt_now (P.period_eq.symm ▸ hperiod) t
    exact ⟨k + 1, Nat.zero_le _, hk.trans_le (N.now_le k)⟩
  obtain ⟨n, -, hle, hlt⟩ := exists_crossing (i := 0) ht hpast
  refine ⟨n, ?_, hle, (hlt.trans_le (hgap n)).le⟩
  cases n with
  | zero => rfl
  | succ n => exact hrun n ((N.now_le n).trans hle)

/-- Notifications at the start of each cycle. -/
def silentNotified : Notified silentProgram where
  ready := 0
  watchdog := silentProgram.pace.now
  ready_le := le_rfl
  now_le _ := le_rfl
  le_arrive := silentProgram.pace.now_le_arrive

/-- A guard that hears nothing is heard from for ever. -/
theorem watchdog_fed_silent : ∃ n, silentProgram.Runs n ∧ silentNotified.time n ≤ 5 ∧
    5 ≤ silentNotified.time n + 1 / 5 := by
  have hwithin : silentProgram.pace.Within (1 / 100) 0 0 :=
    Pace.onTime_within (h := default_period_nonneg) 0
  exact watchdog_fed silentNotified (by decide +kernel) hwithin (by decide +kernel)
    (by norm_num) (by decide +kernel) (by decide +kernel) fun n _ =>
      ProgramRun.runs_of_healthy (fun _ => ⟨Bool.false_ne_true, .inl rfl⟩) (fun _ _ => rfl) _

/-! ## The control node dies -/

/-- The program around the guard whose nodes have died. -/
def orphanedProgram (o : Options) (h : o.period = 1 / 100) : ProgramRun o :=
  .onTime (h ▸ by norm_num) fun n =>
    { cmdRead := ((orphanedRun o.toArgs).input n).cmdRead
      hbAge := ((orphanedRun o.toArgs).input n).hbAge }

section Orphaned

variable {o : Options} {h : o.period = 1 / 100}

theorem orphanedProgram_now (n : ℕ) : (orphanedProgram o h).pace.now n = n / 100 := by
  rw [orphanedProgram, ProgramRun.onTime, Pace.onTime_now, h]
  ring

theorem orphanedProgram_guard : (orphanedProgram o h).guard = orphanedRun o.toArgs := by
  have hinput : (orphanedProgram o h).input = (orphanedRun o.toArgs).input := by
    funext n
    rw [ProgramRun.input, Reads.input, orphanedProgram_now]
    rfl
  unfold ProgramRun.guard
  simp only [hinput]
  rfl

end Orphaned

end A1Bsw
