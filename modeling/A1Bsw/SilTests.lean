import A1Bsw.Schedule
import A1Bsw.ControlFrames

/-!
# The tests that kill a node

P-1 kills the control node, P-2 the perception node. Both record the frames of
the guard, read its log, and decide. A test is worth something if it passes for
a guard that works : whatever the timing of the kill, the reads and the
scheduler, as long as the cycles are not too far apart and the recorder loses
nothing, the fallback is in the log when the observation ends, and the flags,
the counters and the intervals are as the verdict wants them (`p1_passes`,
`p2_passes`).
-/

namespace A1Bsw

/-! ## The recorder and its checks -/

/-- A frame that the recorder keeps, with the time it was received. -/
structure RecordedFrame where
  t : ℚ
  arbitrationId : ℕ
  data : Bytes

/-- `FrameRecorder.run_for` keeps the control frames that decode. Both messages have eight bytes,
and `decode_message` raises if there are fewer. -/
def record (rx : List RecordedFrame) : List RecordedFrame :=
  rx.filter fun f => (f.arbitrationId = 0x156 ∨ f.arbitrationId = 0x157) ∧ 8 ≤ f.data.length

/-- `check_alive_cnt_continuous`. -/
def checkAliveCntContinuous (frames : List RecordedFrame) :
    Bool × List ((ℚ × ℕ) × (ℚ × ℕ)) :=
  let seq := (frames.filter (·.arbitrationId = 0x156)).map fun f =>
    (f.t, EAIT_Control_01.Aliv_Cnt.raw f.data)
  let gaps := seq.consecutivePairs.filter fun p => p.2.2 ≠ (p.1.2 + 1) % 256
  (gaps.length = 0, gaps)

/-- `inter_frame_gaps`. -/
def interFrameGaps (frames : List RecordedFrame) : List ℚ :=
  let ts := (frames.filter (·.arbitrationId = 0x156)).map RecordedFrame.t
  ts.consecutivePairs.map fun p => p.2 - p.1

/-- `max(gaps) if gaps else 0.0`. -/
def maxGap : List ℚ → ℚ
  | [] => 0
  | gap :: gaps => gaps.foldl max gap

/-- A log line of a transition from ACTIVE to HOLDING. -/
def Event.activeToHolding : Event → Bool
  | .transition old new _ => old = .ACTIVE ∧ new = .HOLDING
  | _ => false

/-- A log line that names DEGRADED. -/
def Event.namesDegraded : Event → Bool
  | .transition old new _ => old = .DEGRADED ∨ new = .DEGRADED
  | _ => false

/-- A frame that `active_seen` looks for. -/
def RecordedFrame.activeSeen (f : RecordedFrame) : Bool :=
  f.arbitrationId = 0x156 ∧ EAIT_Control_01.ACC_En.decode f.data = 1

/-- The verdict of P-1. It fails before the kill if nothing recorded until then is ACTIVE. -/
def p1Passed (log : List Event) (before after : List RecordedFrame) : Bool :=
  if before.any RecordedFrame.activeSeen then
    log.any Event.activeToHolding && (checkAliveCntContinuous (before ++ after)).1
  else false

/-- The verdict of P-2. The test divides by the number of gaps before and after the kill. -/
def p2Passed (period : ℚ) (log : List Event) (before after : List RecordedFrame)
    (noNewBugs : Bool) : Option Bool :=
  let beforeGaps := interFrameGaps before
  let afterGaps := interFrameGaps after
  if beforeGaps = [] ∨ afterGaps = [] then none
  else
    let periodOk : Bool := maxGap beforeGaps < period * 3 ∧ maxGap afterGaps < period * 3
    some ((checkAliveCntContinuous (before ++ after)).1 && periodOk && noNewBugs &&
      log.any Event.namesDegraded)

/-! ## Neighbours in a list -/

section Chain

variable {α : Type*} {R : α → α → Prop}

theorem forall_consecutivePairs_iff {l : List α} :
    (∀ p ∈ l.consecutivePairs, R p.1 p.2) ↔ l.IsChain R := by
  induction l with
  | nil => simp
  | cons a l ih =>
    cases l with
    | nil => exact iff_of_true (fun _ h => absurd h List.not_mem_nil) (.singleton a)
    | cons b l =>
      rw [List.isChain_cons_cons, ← ih]
      exact List.forall_mem_cons

end Chain

theorem maxGap_lt {gaps : List ℚ} {limit : ℚ} (hpos : 0 < limit) (h : ∀ gap ∈ gaps, gap < limit) :
    maxGap gaps < limit := by
  cases gaps with
  | nil => exact hpos
  | cons gap gaps =>
    rw [maxGap]
    induction gaps generalizing gap with
    | nil => exact h gap (List.mem_singleton_self gap)
    | cons next gaps ih =>
      refine ih (max gap next) fun x hx => ?_
      rcases List.mem_cons.1 hx with rfl | hx
      · exact max_lt (h gap (by simp)) (h next (by simp))
      · exact h x (by simp [hx])

namespace GuardRun

variable {a : Args} (ρ : GuardRun a)

/-- What follows an ACTIVE cycle. -/
theorem succ_of_active (hS : 0 < a.stoppedAfter) (hP : 0 < a.perceptionLostStoppedAfter) {n : ℕ}
    (h : ρ.state n = .ACTIVE) (hmoving : ¬(ρ.observed n).vehicleNearStop a.toThresholds) :
    ρ.state (n + 1) =
      if ρ.Reliable n then .ACTIVE
      else if (ρ.observed n).cmdStale a.toThresholds then .HOLDING else .DEGRADED := by
  have hstate : ρ.state (n + 1) = ρ.stateAtSpeed n (ρ.observed n).vehicleSpeedKph :=
    ρ.state_succ n
  rw [hstate, ρ.stateAtSpeed_eq hS hP h, if_neg (c := nearStop _ _) hmoving]

variable {ρ}

/-- A stay in ACTIVE that can only end in one state, and has ended, has ended in it. -/
theorem exists_left_active {st : State} {i m : ℕ} (hactive : ρ.state i = .ACTIVE) (him : i ≤ m)
    (hnext : ∀ k, i ≤ k → k ≤ m → ρ.state k = .ACTIVE →
      ρ.state (k + 1) = .ACTIVE ∨ ρ.state (k + 1) = st)
    (hleft : ρ.state (m + 1) ≠ .ACTIVE) :
    ∃ k, i ≤ k ∧ k ≤ m ∧ ρ.state k = .ACTIVE ∧ ρ.state (k + 1) = st := by
  by_contra hnone
  have hstay : ∀ k, i ≤ k → k ≤ m + 1 → ρ.state k = .ACTIVE := by
    intro k hk
    induction k, hk using Nat.le_induction with
    | base => exact fun _ => hactive
    | succ k hk ih =>
      intro hkm
      have hstate := ih (by omega)
      exact (hnext k hk (by omega) hstate).resolve_right fun h =>
        hnone ⟨k, hk, by omega, hstate, h⟩
  exact hleft (hstay (m + 1) (by omega) le_rfl)

/-- If every command enables the acceleration, every ACTIVE cycle does. -/
theorem OneClock.accEn_of_active {writes : Set CommandWrite} {beats : Set ℤ}
    (h : ρ.OneClock writes beats) (hacc : ∀ w ∈ writes, w.cmd.accEn = true) {n : ℕ}
    (hactive : ρ.state (n + 1) = .ACTIVE) :
    EAIT_Control_01.ACC_En.decode (ρ.sent n).frame156 = 1 := by
  have hfollowing : (ρ.state (n + 1)).Following := by
    rw [hactive]
    decide
  rw [ρ.state_succ, nextState_eq_ACTIVE_iff] at hactive
  obtain ⟨m, -, cmdAge, -, hread⟩ := ρ.exists_fresh_read hactive.2.1
  obtain ⟨w, hw, -, -, hcmd, -⟩ := h.command hread
  have hout : (ρ.sent n).out.accEn = (ρ.sensed n).lastValidCmd.accEn := by
    rw [ρ.sent_of_following hfollowing]
    rfl
  obtain ⟨_, _, -, -, h01⟩ := ρ.control01 n
  rw [h01.accEn, hout, hcmd, Command.stored_eq, hacc w hw]
  rfl

/-- The control frames of a cycle have eight bytes. -/
theorem length_frames (ρ : GuardRun a) (n : ℕ) :
    (ρ.sent n).frame156.length = 8 ∧ (ρ.sent n).frame157.length = 8 := by
  obtain ⟨_, _, -, -, -, h01⟩ := (ρ.entered n).control01_sending a.period
  obtain ⟨_, _, -, -, -, -, h02⟩ := (ρ.entered n).control02_sending a.period
  rw [sent_eq]
  exact ⟨h01.length, h02.length⟩

end GuardRun

namespace ProgramRun

variable {o : Options} {P : ProgramRun o} {n : ℕ}

/-- A run that goes on has logged the transitions of its cycles. -/
theorem mem_trace_of_announced (h : P.Runs n) {k : ℕ} (hk : k < n) {e : Event}
    (he : e ∈ P.announced k) : e ∈ (P.prog n).trace := by
  have hrun : P.Runs (k + 1) := Runs.of_le hk h
  obtain ⟨hbefore, -, hfault⟩ := runs_succ_iff.1 hrun
  rw [P.trace_eq, h.begun]
  refine List.mem_cons_of_mem _ (List.mem_flatMap.2 ⟨k, List.mem_range.2 hk, ?_⟩)
  rw [hbefore.events_eq, if_neg (not_faulty_iff.1 hfault).1]
  exact List.mem_append_right _ (List.mem_append_left _ (List.mem_append_left _ he))

/-- The transition of a cycle is in the log. -/
theorem logged_transition (hlog : o.quiet = false) (h : P.Runs n) {k : ℕ} (hk : k < n)
    (hne : P.guard.state (k + 1) ≠ P.guard.state k) :
    .transition (P.guard.state k) (P.guard.state (k + 1)) (P.guard.observed k) ∈
      (P.prog n).trace := by
  refine mem_trace_of_announced h hk ?_
  rw [announced, Prog.announce, if_pos hne, Options.log, hlog]
  exact List.mem_cons_self

variable (P)

/-- The control frames of the first `n` cycles, as they are received. -/
def received (t156 t157 : ℕ → ℚ) (n : ℕ) : List RecordedFrame :=
  (List.range n).flatMap fun k =>
    [⟨t156 k, 0x156, (P.guard.sent k).frame156⟩, ⟨t157 k, 0x157, (P.guard.sent k).frame157⟩]

theorem received_filter (t156 t157 : ℕ → ℚ) (n : ℕ) :
    (P.received t156 t157 n).filter (·.arbitrationId = 0x156) =
      (List.range n).map fun k => ⟨t156 k, 0x156, (P.guard.sent k).frame156⟩ := by
  rw [received, List.filter_flatMap, List.map_eq_flatMap]
  rfl

variable {P} {t156 t157 : ℕ → ℚ} {frames : List RecordedFrame}

/-- What is recorded without a gap has its counters in order. -/
theorem checkAliveCntContinuous_of_infix (h : frames <:+: P.received t156 t157 n) :
    (checkAliveCntContinuous frames).1 = true := by
  have hpart := h.filter (·.arbitrationId = 0x156)
  rw [received_filter] at hpart
  have hchain : ((frames.filter (·.arbitrationId = 0x156)).map fun f =>
      (f.t, EAIT_Control_01.Aliv_Cnt.raw f.data)).IsChain fun p q => q.2 = (p.2 + 1) % 256 := by
    refine List.IsChain.infix ?_ (hpart.map _)
    rw [List.map_map, List.isChain_map]
    refine (List.isChain_range _ _).2 fun k _ => ?_
    have hcount (k : ℕ) : EAIT_Control_01.Aliv_Cnt.raw (P.guard.sent k).frame156 = k % 256 := by
      exact_mod_cast P.guard.alivCnt_frame156 k
    show EAIT_Control_01.Aliv_Cnt.raw (P.guard.sent (k + 1)).frame156 =
      (EAIT_Control_01.Aliv_Cnt.raw (P.guard.sent k).frame156 + 1) % 256
    rw [hcount, hcount, Nat.mod_add_mod]
  have hgaps := forall_consecutivePairs_iff.2 hchain
  rw [checkAliveCntContinuous, decide_eq_true_iff, List.length_eq_zero_iff,
    List.filter_eq_nil_iff]
  simpa using fun a b c d hmem => hgaps _ hmem

/-- Its intervals are those of neighbouring cycles. -/
theorem interFrameGaps_lt {limit : ℚ} (h : frames <:+: P.received t156 t157 n)
    (hgap : ∀ k, t156 (k + 1) - t156 k < limit) : ∀ gap ∈ interFrameGaps frames, gap < limit := by
  have hpart := h.filter (·.arbitrationId = 0x156)
  rw [received_filter] at hpart
  have hchain : ((frames.filter (·.arbitrationId = 0x156)).map RecordedFrame.t).IsChain
      fun p q => q - p < limit := by
    refine List.IsChain.infix ?_ (hpart.map _)
    rw [List.map_map, List.isChain_map]
    exact (List.isChain_range _ _).2 fun k _ => hgap k
  intro gap hmem
  obtain ⟨p, hp, rfl⟩ := List.mem_map.1 hmem
  exact forall_consecutivePairs_iff.2 hchain p hp

theorem record_received : record (P.received t156 t157 n) = P.received t156 t157 n := by
  refine List.filter_eq_self.2 fun f hf => ?_
  obtain ⟨k, -, hf⟩ := List.mem_flatMap.1 hf
  obtain ⟨h156, h157⟩ := P.guard.length_frames k
  rcases List.mem_cons.1 hf with rfl | hf
  · exact decide_eq_true ⟨.inl rfl, h156.ge⟩
  · rw [List.mem_singleton.1 hf]
    exact decide_eq_true ⟨.inr rfl, h157.ge⟩

variable (P)

/-- A test that kills a node : cycle `i` starts in ACTIVE, the guard has to notice at time
`deadline`, and the observation goes on for `window` after it. -/
structure KillTest (i n : ℕ) (deadline window : ℚ) : Prop where
  log : o.quiet = false
  runs : P.Runs n
  active : P.guard.state i = .ACTIVE
  before : P.pace.now i ≤ deadline
  gap : ∀ k, i ≤ k → P.pace.now (k + 1) ≤ P.pace.now k + window
  ends : deadline + window < P.pace.now n
  moving : ∀ k, i ≤ k → k < n → ¬(P.guard.observed k).vehicleNearStop o.toThresholds

variable {P}

/-- A stay in ACTIVE that the deadline ends, and that ends in one state, has done so when the
observation ends. -/
theorem KillTest.logged {i : ℕ} {deadline window : ℚ} (h : P.KillTest i n deadline window)
    (st : State) (hst : st ≠ .ACTIVE)
    (hnext : ∀ k, i ≤ k → k < n → P.guard.state k = .ACTIVE →
      P.guard.state (k + 1) = .ACTIVE ∨ P.guard.state (k + 1) = st)
    (hleft : ∀ k, deadline < P.pace.now k → P.guard.state (k + 1) ≠ .ACTIVE) :
    ∃ obs, .transition .ACTIVE st obs ∈ (P.prog n).trace := by
  have hin : i ≤ n := by
    by_contra hlt
    have hmono := P.pace.now_mono (not_le.1 hlt).le
    have hwindow := P.pace.now_mono i.le_succ
    linarith [h.gap i le_rfl, h.before, h.ends]
  have hpast : deadline < P.pace.now n := by
    linarith [h.gap i le_rfl, P.pace.now_mono i.le_succ, h.ends]
  obtain ⟨j, hij, hj, hlate⟩ := exists_crossing h.before ⟨n, hin, hpast⟩
  have hjn : j + 1 < n := by
    by_contra hle
    have hmono := P.pace.now_mono (not_lt.1 hle)
    linarith [h.gap j hij, h.ends]
  obtain ⟨k, hik, hkj, hactive, hstate⟩ := GuardRun.exists_left_active (m := j + 1) h.active
    (by omega) (fun k hik hkj => hnext k hik (by omega)) (hleft (j + 1) hlate)
  have hlogged := logged_transition h.log h.runs (k := k) (by omega)
    (by rw [hstate, hactive]; exact hst)
  rw [hactive, hstate] at hlogged
  exact ⟨_, hlogged⟩

end ProgramRun

/-! ## The verdicts -/

open ProgramRun Seqlock in
/-- P-1 passes for every guard that was recorded in ACTIVE, on commands that enable the
acceleration, and whose cycles are at most three periods apart, while perception is there and the
vehicle is not known to stand. -/
theorem p1_passes {o : Options} {P : ProgramRun o} (hS : 0 < o.stoppedAfter)
    (hP : 0 < o.perceptionLostStoppedAfter) {χ : Run CommandChannel.layout}
    {η : Run HeartbeatChannel.layout} (h : P.guard.ReadsChannels χ η) {T : ℚ}
    (hdead : ∀ k, ∀ w ∈ (χ.state k).done, seconds w.timestampNs ≤ T)
    (hacc : ∀ k, ∀ w ∈ (χ.state k).done, w.cmd.accEn = true) {i n : ℕ}
    (htest : P.KillTest i n (T + o.watchdogT) (3 * o.period))
    (hperceives : ∀ k, i ≤ k → k < n → ¬(P.guard.observed k).perceptionLost o.toThresholds)
    {t156 t157 : ℕ → ℚ} {before after : List RecordedFrame}
    (hrec : record before ++ record after <:+: P.received t156 t157 n) {j : ℕ}
    (hactive : P.guard.state (j + 1) = .ACTIVE)
    (hseen : ⟨t156 j, 0x156, (P.guard.sent j).frame156⟩ ∈ before) :
    p1Passed (P.prog n).trace (record before) (record after) = true := by
  have hany : (record before).any RecordedFrame.activeSeen = true := by
    have haccEn := h.oneClock.accEn_of_active (fun w ⟨m, hm⟩ => hacc m w hm) hactive
    have hlength := (P.guard.length_frames j).1.ge
    exact List.any_eq_true.2 ⟨_, List.mem_filter.2 ⟨hseen, decide_eq_true ⟨.inl rfl, hlength⟩⟩,
      decide_eq_true ⟨rfl, haccEn⟩⟩
  have hstale : ∀ k, T + o.watchdogT < P.pace.now k →
      (P.guard.observed k).cmdStale o.toThresholds := fun k hk =>
    h.oneClock.cmdStale (fun w ⟨m, hm⟩ => hdead m w hm) hk
  obtain ⟨obs, hobs⟩ := htest.logged .HOLDING (by decide) (fun k hik hkn hactive => by
      rw [P.guard.succ_of_active hS hP hactive (htest.moving k hik hkn)]
      by_cases hc : (P.guard.observed k).cmdStale o.toThresholds
      · exact .inr (by rw [if_neg fun hr => hr.1 hc, if_pos hc])
      · exact .inl (if_pos ⟨hc, hperceives k hik hkn⟩))
    fun k hk hactive => by
      rw [P.guard.state_succ, nextState_eq_ACTIVE_iff] at hactive
      exact hactive.2.1 (hstale k hk)
  rw [p1Passed, if_pos hany, checkAliveCntContinuous_of_infix hrec, Bool.and_true]
  exact List.any_eq_true.2 ⟨_, hobs, rfl⟩

/-- The frames of the orphaned program in P-1 and in P-2, received at once. -/
def orphanedFrames (o : Options) (h : o.period = 1 / 100) (n : ℕ) : List RecordedFrame :=
  (orphanedProgram o h).received (fun k => k / 100) (fun k => k / 100) n

theorem p1_passes_orphaned :
    p1Passed ((orphanedProgram {} rfl).prog 9).trace
      (record ((orphanedFrames {} rfl 9).take 2)) (record ((orphanedFrames {} rfl 9).drop 2)) =
        true := by
  have hpart : record ((orphanedFrames {} rfl 9).take 2) ++
      record ((orphanedFrames {} rfl 9).drop 2) <:+: orphanedFrames {} rfl 9 := by
    rw [record, record, ← List.filter_append, List.take_append_drop, orphanedFrames, ← record,
      ProgramRun.record_received]
  refine p1_passes (T := 0) (i := 1) (j := 0) (by decide +kernel) (by decide +kernel)
    (orphanedProgram_guard ▸ orphanedRun_readsChannels _) (fun k w hw => ?_) (fun k w hw => ?_)
    ?_ ?_ hpart (by decide +kernel) (List.mem_cons_self ..)
  · rw [oneWrite_timestamp hw]
    norm_num [seconds]
  · rw [oneWrite_done hw]
  · refine ⟨rfl, ?_, by decide +kernel, by decide +kernel, ?_, by decide +kernel, ?_⟩
    · exact ProgramRun.runs_of_healthy (fun _ => ⟨Bool.false_ne_true, .inl rfl⟩) (fun _ _ => rfl) _
    · intro k _
      rw [orphanedProgram_now, orphanedProgram_now]
      push_cast
      norm_num
      linarith
    · decide +kernel
  · decide +kernel

open ProgramRun Seqlock in
/-- P-2 passes for every guard that was ACTIVE and whose frames are received less than three
periods apart, while the commands stay fresh and the vehicle is not known to stand. -/
theorem p2_passes {o : Options} {P : ProgramRun o} (hS : 0 < o.stoppedAfter)
    (hP : 0 < o.perceptionLostStoppedAfter) {χ : Run CommandChannel.layout}
    {η : Run HeartbeatChannel.layout} (h : P.guard.ReadsChannels χ η) {T : ℚ}
    (hdead : ∀ k, ∀ t ∈ (η.state k).done, seconds t ≤ T) {i n : ℕ}
    (htest : P.KillTest i n (T + o.perceptionTimeout) (1 / 2))
    (hfresh : ∀ k, i ≤ k → k < n → ¬(P.guard.observed k).cmdStale o.toThresholds)
    {t156 t157 : ℕ → ℚ} {g d : ℚ} (hgap : ∀ k, P.pace.now (k + 1) ≤ P.pace.now k + g)
    (hdelay : ∀ k, P.pace.now k ≤ t156 k ∧ t156 k ≤ P.pace.now k + d)
    (hperiod : g + d < o.period * 3) {before after : List RecordedFrame}
    (hrec : before ++ after <:+: P.received t156 t157 n) (hbefore : interFrameGaps before ≠ [])
    (hafter : interFrameGaps after ≠ []) :
    p2Passed o.period (P.prog n).trace before after true = some true := by
  have hlost : ∀ k, T + o.perceptionTimeout < P.pace.now k →
      (P.guard.observed k).perceptionLost o.toThresholds := fun k hk =>
    h.oneClock.perceptionLost (fun t ⟨m, hm⟩ => hdead m t hm) hk
  obtain ⟨obs, hobs⟩ := htest.logged .DEGRADED (by decide) (fun k hik hkn hactive => by
      rw [P.guard.succ_of_active hS hP hactive (htest.moving k hik hkn)]
      have hc := hfresh k hik hkn
      by_cases hp : (P.guard.observed k).perceptionLost o.toThresholds
      · exact .inr (by rw [if_neg fun hr => hr.2 hp, if_neg hc])
      · exact .inl (if_pos ⟨hc, hp⟩))
    fun k hk hactive => by
      rw [P.guard.state_succ, nextState_eq_ACTIVE_iff] at hactive
      exact hactive.2.2 (hlost k hk)
  have hpos : 0 < o.period * 3 := by
    have hmono := P.pace.now_mono (Nat.le_succ 0)
    linarith [hgap 0, (hdelay 0).1, (hdelay 0).2]
  have hinterval : ∀ k, t156 (k + 1) - t156 k < o.period * 3 := fun k => by
    linarith [hgap k, (hdelay k).1, (hdelay (k + 1)).2]
  have hmax₁ := maxGap_lt hpos (interFrameGaps_lt ((List.prefix_append _ _).isInfix.trans hrec)
    hinterval)
  have hmax₂ := maxGap_lt hpos (interFrameGaps_lt ((List.suffix_append _ _).isInfix.trans hrec)
    hinterval)
  have hlogged : (P.prog n).trace.any Event.namesDegraded = true :=
    List.any_eq_true.2 ⟨_, hobs, rfl⟩
  rw [p2Passed, if_neg (not_or.2 ⟨hbefore, hafter⟩), checkAliveCntContinuous_of_infix hrec,
    hlogged, decide_eq_true ⟨hmax₁, hmax₂⟩]
  rfl

/-- Commands stay fresh for ten seconds, heartbeats for 50 ms. -/
def patientOptions : Options where
  watchdogT := 10
  perceptionTimeout := 1 / 20

theorem patientOptions_period : patientOptions.period = 1 / 100 :=
  rfl

theorem p2_passes_orphaned :
    p2Passed patientOptions.period
      ((orphanedProgram patientOptions patientOptions_period).prog 56).trace
      ((orphanedFrames patientOptions patientOptions_period 56).take 4)
      ((orphanedFrames patientOptions patientOptions_period 56).drop 4) true = some true := by
  have hrec : (orphanedFrames patientOptions patientOptions_period 56).take 4 ++
      (orphanedFrames patientOptions patientOptions_period 56).drop 4 <:+:
        (orphanedProgram patientOptions patientOptions_period).received (fun k => k / 100)
          (fun k => k / 100) 56 := by
    rw [List.take_append_drop]
    exact List.infix_refl _
  have hnow : ∀ k : ℕ, (orphanedProgram patientOptions patientOptions_period).pace.now (k + 1) ≤
      (orphanedProgram patientOptions patientOptions_period).pace.now k + 1 / 100 := by
    intro k
    rw [orphanedProgram_now, orphanedProgram_now]
    push_cast
    linarith
  have htest : (orphanedProgram patientOptions patientOptions_period).KillTest 1 56
      (0 + patientOptions.perceptionTimeout) (1 / 2) := by
    refine ⟨rfl, ?_, by decide +kernel, by decide +kernel, ?_, by decide +kernel, ?_⟩
    · exact ProgramRun.runs_of_healthy (fun _ => ⟨Bool.false_ne_true, .inl rfl⟩) (fun _ _ => rfl) _
    · exact fun k _ => (hnow k).trans (by linarith)
    · decide +kernel
  refine p2_passes (by decide +kernel) (by decide +kernel)
    (orphanedProgram_guard ▸ orphanedRun_readsChannels _) (fun k t ht => ?_) htest
    (by decide +kernel) hnow (fun k => ?_) (d := 0) (by decide +kernel) hrec (by decide +kernel)
    (by decide +kernel)
  · rw [oneBeat_timestamp ht]
    norm_num [seconds]
  · rw [orphanedProgram_now]
    exact ⟨le_rfl, by linarith⟩

end A1Bsw
