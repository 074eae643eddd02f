import A1Bsw.ServiceLog
import Mathlib.Algebra.BigOperators.Intervals

/-!
# Statistics of the lateness

`run` adds up how late its cycles are, once for all cycles and once for a
window, and a snapshot ends the window. The totals are those of the cycles that
have begun, one more than are counted when an exception has ended the loop
(`total_eq`). The windows follow each other without a gap, and each of them is
the shortest that lasts the interval (`stats_log`).
-/

namespace A1Bsw

namespace ProgramRun

variable {o : Options} (P : ProgramRun o)

/-! ## The lateness of some cycles -/

/-- The lateness of the cycles from `i` on and before `j`. -/
def latenessOf (i j : ℕ) : Lateness :=
  (List.range' i (j - i)).foldl (fun l k => l.add (P.pace.late k)) {}

theorem latenessOf_self (i : ℕ) : P.latenessOf i i = {} := by
  rw [latenessOf, Nat.sub_self, List.range'_zero, List.foldl_nil]

theorem latenessOf_succ {i j : ℕ} (h : i ≤ j) :
    P.latenessOf i (j + 1) = (P.latenessOf i j).add (P.pace.late j) := by
  rw [latenessOf, Nat.succ_sub h, List.range'_1_concat, List.foldl_append, List.foldl_cons,
    List.foldl_nil, Nat.add_sub_of_le h, latenessOf]

/-- No cycle is early, so the sum has no signs to lose. -/
theorem latenessOf_errSum {i j : ℕ} (h : i ≤ j) :
    (P.latenessOf i j).errSum = ∑ k ∈ Finset.Ico i j, P.pace.late k := by
  induction j, h using Nat.le_induction with
  | base => rw [latenessOf_self, Finset.Ico_self, Finset.sum_empty]
  | succ j hij ih =>
    rw [latenessOf_succ P hij, Lateness.add, ih, abs_of_nonneg (P.pace.late_nonneg j),
      Finset.sum_Ico_succ_top hij]

theorem late_le_worst {i j k : ℕ} (hik : i ≤ k) (hkj : k < j) :
    P.pace.late k ≤ (P.latenessOf i j).worst := by
  induction j, hkj using Nat.le_induction with
  | base =>
    rw [latenessOf_succ P hik]
    exact le_max_right _ _
  | succ j hkj ih =>
    rw [latenessOf_succ P (by omega)]
    exact ih.trans (le_max_left _ _)

/-- The worst lateness is that of a cycle. -/
theorem exists_worst {i j : ℕ} (h : i < j) :
    ∃ k, i ≤ k ∧ k < j ∧ (P.latenessOf i j).worst = P.pace.late k := by
  induction j, h using Nat.le_induction with
  | base =>
    refine ⟨i, le_rfl, i.lt_succ_self, ?_⟩
    rw [latenessOf_succ P le_rfl, latenessOf_self]
    exact max_eq_right (P.pace.late_nonneg i)
  | succ j hij ih =>
    obtain ⟨k, hik, hkj, hworst⟩ := ih
    rw [latenessOf_succ P (by omega)]
    rcases max_choice (P.latenessOf i j).worst (P.pace.late j) with hmax | hmax
    · exact ⟨k, hik, by omega, hmax.trans hworst⟩
    · exact ⟨j, by omega, j.lt_succ_self, hmax⟩

/-- The spikes are the cycles later than the threshold. -/
theorem latenessOf_spikes {i j : ℕ} (h : i ≤ j) : (P.latenessOf i j).spikes =
    ((Finset.Ico i j).filter fun k => spikeThreshold < P.pace.late k).card := by
  induction j, h using Nat.le_induction with
  | base => rw [latenessOf_self, Finset.Ico_self, Finset.filter_empty, Finset.card_empty]
  | succ j hij ih =>
    rw [latenessOf_succ P hij, Lateness.add, ih, abs_of_nonneg (P.pace.late_nonneg j),
      ← Finset.insert_Ico_right_eq_Ico_add_one hij, Finset.filter_insert]
    split_ifs with hspike
    · rw [Finset.card_insert_of_notMem]
      simp
    · rfl

/-- A mean is at most the worst lateness. -/
theorem errSum_le {i j : ℕ} (h : i ≤ j) :
    (P.latenessOf i j).errSum ≤ (j - i) * (P.latenessOf i j).worst := by
  rw [latenessOf_errSum P h]
  have hle := Finset.sum_le_card_nsmul (Finset.Ico i j) P.pace.late (P.latenessOf i j).worst
    fun k hk => P.late_le_worst (Finset.mem_Ico.1 hk).1 (Finset.mem_Ico.1 hk).2
  rwa [Nat.card_Ico, nsmul_eq_mul, Nat.cast_sub h] at hle

/-! ## The totals -/

theorem measure_total (p : Prog) (now : ℚ) :
    (p.measure o now).total = p.total.add (now - p.nextT) := by
  unfold Prog.measure
  dsimp only
  split_ifs <;> rfl

/-- The totals are those of the cycles that have begun. -/
theorem total_eq (n : ℕ) : (P.prog n).total = P.latenessOf 0 (P.prog n).begun := by
  induction n with
  | zero => exact (P.latenessOf_self 0).symm
  | succ n ih =>
    rcases P.begun_succ n with ⟨hbegun, -, htotal, -⟩ | ⟨hn, hbegun, -, htotal, -⟩
    · rw [htotal, hbegun, ih]
    · rw [htotal, hbegun, measure_total, ih, hn.begun, hn.aligned.2.1,
        latenessOf_succ P n.zero_le, Pace.late]

/-! ## The windows -/

/-- The snapshot of the cycles from `i` on and before `j`, the first of which follows time
`since`. -/
def snapshotOf (i j : ℕ) (since : ℚ) : Snapshot where
  n := j - i
  elapsed := P.pace.now (j - 1) - since
  mean := (P.latenessOf i j).errSum / (j - i : ℕ) * 1000000
  window := P.latenessOf i j
  totalMean := (P.latenessOf 0 j).errSum / j * 1000000
  total := P.latenessOf 0 j

/-- Snapshots of the cycles before `j`, of which the last was logged at time `since`. Each of
them is logged by the first cycle of its window that sees the interval pass. -/
inductive Reported : List Snapshot → ℕ → ℚ → Prop
  | start : Reported [] 0 P.pace.start
  | snapshot {ss : List Snapshot} {i j : ℕ} {since : ℚ} (h : Reported ss i since) (hij : i ≤ j)
    (hwait : ∀ k, i ≤ k → k < j → P.pace.now k - since < o.statsInterval)
    (hpast : o.statsInterval ≤ P.pace.now j - since) :
    Reported (ss ++ [P.snapshotOf i (j + 1) since]) (j + 1) (P.pace.now j)

end ProgramRun

def Event.loggedSnapshot : Event → Option Snapshot
  | .snapshot s => some s
  | _ => none

namespace ProgramRun

variable {o : Options} {P : ProgramRun o}

/-- Only the statistics log a snapshot. -/
theorem Runs.events_snapshot {n : ℕ} (h : P.Runs n) :
    (P.events n).filterMap Event.loggedSnapshot =
      ((P.prog n).snapshots o (P.pace.now n)).filterMap Event.loggedSnapshot := by
  rw [h.events_eq]
  split_ifs
  · rw [List.append_nil]
  · rw [List.filterMap_append, List.filterMap_append, List.filterMap_append, announced,
      Prog.filterMap_announce (fun _ _ _ => rfl) fun _ => rfl,
      Prog.filterMap_violated fun _ => rfl, filterMap_sends (fun _ _ => rfl) rfl,
      List.append_nil, List.append_nil, List.append_nil]

/-- A cycle ends the window with a snapshot, or goes into it. -/
theorem Runs.measure_window (hinterval : 0 < o.statsInterval) {n i : ℕ} {since : ℚ}
    (h : P.Runs n) (hle : i ≤ n)
    (hwindow : (P.prog n).window = ⟨since, n - i, P.latenessOf i n⟩) :
    o.statsInterval ≤ P.pace.now n - since ∧
      ((P.prog n).measure o (P.pace.now n)).window = { start := P.pace.now n } ∧
      (P.prog n).snapshots o (P.pace.now n) =
        o.log (.snapshot (P.snapshotOf i (n + 1) since)) ∨
    P.pace.now n - since < o.statsInterval ∧
      ((P.prog n).measure o (P.pace.now n)).window =
        ⟨since, n + 1 - i, P.latenessOf i (n + 1)⟩ ∧
      (P.prog n).snapshots o (P.pace.now n) = [] := by
  have htotal := P.total_eq n
  rw [h.begun] at htotal
  have hcount : n - i + 1 = n + 1 - i := by omega
  have hlate : P.pace.now n - (P.prog n).nextT = P.pace.late n := by
    rw [h.aligned.2.1, Pace.late]
  unfold Prog.snapshots Prog.measure
  simp only [hwindow, hinterval, if_true, hlate, htotal, h.aligned.1, hcount,
    ← latenessOf_succ P hle, ← latenessOf_succ P n.zero_le]
  split_ifs with hpast
  · refine .inl ⟨hpast, rfl, ?_⟩
    rw [Prog.emit, List.drop_left, snapshotOf, Nat.add_sub_cancel]
    push_cast
    rfl
  · exact .inr ⟨not_le.1 hpast, rfl, List.drop_length⟩

end ProgramRun

/-- The snapshots of a run cover its cycles without a gap, and the current window has the rest.
-/
theorem stats_log {o : Options} (hinterval : 0 < o.statsInterval) (hlog : o.quiet = false)
    (P : ProgramRun o) (n : ℕ) :
    ∃ i since, P.Reported ((P.prog n).trace.filterMap Event.loggedSnapshot) i since ∧
      i ≤ (P.prog n).begun ∧
      (∀ k, i ≤ k → k < (P.prog n).begun → P.pace.now k - since < o.statsInterval) ∧
      (P.prog n).window = ⟨since, (P.prog n).begun - i, P.latenessOf i (P.prog n).begun⟩ := by
  induction n with
  | zero => exact ⟨0, P.pace.start, .start, le_rfl, fun k _ hk => absurd hk k.not_lt_zero, rfl⟩
  | succ n ih =>
    rcases P.begun_succ n with ⟨hbegun, htrace, -, hwindow⟩ | ⟨hn, hbegun, htrace, -, hwindow⟩
    · rw [hbegun, htrace, hwindow]
      exact ih
    obtain ⟨i, since, hss, hle, hwait, hcurrent⟩ := ih
    rw [hn.begun] at hle hwait hcurrent
    rw [hbegun, htrace, hwindow, List.filterMap_append, hn.events_snapshot]
    rcases hn.measure_window hinterval hle hcurrent with ⟨hpast, hnext, hsnap⟩ |
      ⟨hopen, hnext, hsnap⟩
    · rw [hnext, hsnap, Options.log, hlog]
      refine ⟨n + 1, P.pace.now n, .snapshot hss hle hwait hpast, le_rfl, ?_, ?_⟩
      · exact fun k hnk hk => absurd hk (not_lt.2 hnk)
      · rw [Nat.sub_self, P.latenessOf_self]
    · rw [hnext, hsnap, List.filterMap_nil, List.append_nil]
      refine ⟨i, since, hss, hle.trans n.le_succ, fun k hik hk => ?_, rfl⟩
      rcases Nat.lt_succ_iff_lt_or_eq.1 hk with hlt | rfl
      · exact hwait k hik hlt
      · exact hopen

/-- A guard that logs its lateness every 20 ms. -/
def loggingProgram : ProgramRun { statsInterval := 1 / 50 } :=
  .onTime (by decide +kernel) fun _ => {}

/-- It has logged two windows in seven cycles. -/
theorem stats_log_logging :
    ((loggingProgram.prog 7).trace.filterMap Event.loggedSnapshot).map Snapshot.n = [3, 2, 2] ∧
    ∃ i since, loggingProgram.Reported
      ((loggingProgram.prog 7).trace.filterMap Event.loggedSnapshot) i since ∧
      i ≤ (loggingProgram.prog 7).begun ∧
      (∀ k, i ≤ k → k < (loggingProgram.prog 7).begun →
        loggingProgram.pace.now k - since < 1 / 50) ∧
      (loggingProgram.prog 7).window = ⟨since, (loggingProgram.prog 7).begun - i,
        loggingProgram.latenessOf i (loggingProgram.prog 7).begun⟩ :=
  ⟨by decide +kernel, stats_log (by decide +kernel) rfl loggingProgram 7⟩

/-! ## The last line -/

/-- What the last line of the log says, with times in microseconds. -/
structure FinalLine where
  cycles : ℕ
  mean : ℚ
  worst : ℚ
  spikes : ℕ

/-- The last line of `run`, also after an exception. -/
def Prog.finalLine (p : Prog) : FinalLine where
  cycles := p.cycle
  mean := if p.cycle = 0 then 0 else p.total.errSum / p.cycle * 1000000
  worst := p.total.worst * 1000000
  spikes := p.total.spikes

namespace ProgramRun

variable {o : Options} (P : ProgramRun o)

/-- Each complete cycle has sent one `WATCHDOG`. -/
theorem watchdogs_trace (n : ℕ) : watchdogs (P.prog n).trace = (P.prog n).cycle := by
  have hstatus (l : List State) : (l.map Notification.status).count .watchdog = 0 :=
    List.count_eq_zero.2 fun h => by
      obtain ⟨s, -, hs⟩ := List.mem_map.1 h
      cases hs
  have hcycles (c : ℕ) : ((List.range c).flatMap fun k =>
      (change P.guard.state k).map Notification.status ++ [.watchdog]).count .watchdog = c := by
    induction c with
    | zero => rfl
    | succ c ih =>
      rw [List.range_succ, List.flatMap_append, List.count_append, ih, List.flatMap_singleton,
        List.count_append, hstatus, List.count_singleton_self]
  rw [watchdogs, P.notifications, List.count_append, List.count_append, hcycles]
  have hready : [Notification.ready].count .watchdog = 0 := rfl
  rw [hready]
  split_ifs
  · rw [List.count_nil]
    omega
  · rw [hstatus]
    omega
  · rw [List.count_nil]
    omega

/-- What the last line of a run can be read as. -/
structure Summarizes (p : Prog) (line : FinalLine) : Prop where
  /-- Its cycles are those that the service manager has heard of. -/
  cycles : line.cycles = watchdogs p.trace
  /-- Its mean shares the lateness of all cycles that have begun among the complete ones : after
  an exception one cycle more than it divides by. -/
  mean : line.cycles ≠ 0 →
    line.mean * line.cycles = (∑ k ∈ Finset.range p.begun, P.pace.late k) * 1000000
  begun : p.begun = line.cycles + p.raised.toNat
  /-- Its worst lateness is that of a cycle, and no cycle was later. -/
  late_le : ∀ k < p.begun, P.pace.late k * 1000000 ≤ line.worst
  worst : 0 < p.begun → ∃ k < p.begun, line.worst = P.pace.late k * 1000000
  /-- Its spikes are the cycles that were later than the threshold. -/
  spikes : line.spikes =
    ((Finset.range p.begun).filter fun k => spikeThreshold < P.pace.late k).card
  /-- If no exception has ended the loop, the mean is at most the worst lateness. -/
  mean_le : p.raised = false → line.cycles ≠ 0 → line.mean ≤ line.worst

end ProgramRun

/-- The last line summarizes the run, however the loop ended. -/
theorem final_line {o : Options} (P : ProgramRun o) (n : ℕ) :
    P.Summarizes (P.prog n) (P.prog n).finalLine := by
  have htotal := P.total_eq n
  have hsum : (P.prog n).total.errSum = ∑ k ∈ Finset.range (P.prog n).begun, P.pace.late k := by
    rw [htotal, P.latenessOf_errSum (Nat.zero_le _), Nat.Ico_zero_eq_range]
  have hmean (hpos : (P.prog n).cycle ≠ 0) : (P.prog n).finalLine.mean * (P.prog n).cycle =
      (P.prog n).total.errSum * 1000000 := by
    have hne : ((P.prog n).cycle : ℚ) ≠ 0 := Nat.cast_ne_zero.2 hpos
    rw [Prog.finalLine, if_neg hpos]
    field_simp
  refine ⟨(P.watchdogs_trace n).symm, fun hpos => hsum ▸ hmean hpos, rfl, ?_, ?_, ?_, ?_⟩
  · intro k hk
    rw [Prog.finalLine, htotal]
    exact mul_le_mul_of_nonneg_right (P.late_le_worst k.zero_le hk) (by norm_num)
  · intro hpos
    obtain ⟨k, -, hk, hworst⟩ := P.exists_worst hpos
    exact ⟨k, hk, by rw [Prog.finalLine, htotal, hworst]⟩
  · rw [Prog.finalLine, htotal, P.latenessOf_spikes (Nat.zero_le _), Nat.Ico_zero_eq_range]
  · intro hraised hpos
    have hbegun : (P.prog n).begun = (P.prog n).cycle := by
      rw [Prog.begun, hraised]
      rfl
    have hle := P.errSum_le (Nat.zero_le (P.prog n).begun)
    have hcycles : (0 : ℚ) < (P.prog n).cycle := Nat.cast_pos.2 (Nat.pos_of_ne_zero hpos)
    have heq := hmean hpos
    have hworst : (P.prog n).finalLine.worst = (P.prog n).total.worst * 1000000 := rfl
    rw [← htotal, hbegun, Nat.cast_zero, sub_zero] at hle
    refine le_of_mul_le_mul_right ?_ hcycles
    rw [heq, hworst]
    linarith

end A1Bsw
