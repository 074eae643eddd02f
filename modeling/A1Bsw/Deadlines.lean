import A1Bsw.Freshness
import A1Bsw.Gating
import A1Bsw.Ramp
import A1Bsw.UntrustedDriving

/-!
# When a node falls silent

The control node or the perception node can die at any instant, in the middle
of a write as well. A node that completes nothing after a time `T` leaves the
loop with reads that are no fresher than `T`, so the loop notices after the
timeout of that node and stops the vehicle after the limit of the state it
falls back to.

A silent control node always stops the vehicle (`control_node_death`). A
silent perception node stops it while the commands stay fresh
(`perception_death`) : each late command restarts the clock of the stay.
-/

namespace A1Bsw

namespace GuardRun

variable {a : Args} (ρ : GuardRun a)

/-! ## Stays that reach their limit -/

/-- A stretch in one state that has reached the limit of its stays ends in STOPPED. -/
theorem stopped_of_stay {st : State} (hst : st ≠ .INIT) {limit : ℚ}
    (hlt : ∀ {c n}, Since (fun k => ρ.state k = st) c n → ρ.now n - ρ.now c < limit) {m n : ℕ}
    (hmn : m ≤ n)
    (hstay : ∀ k, m ≤ k → k ≤ n → ρ.state (k + 1) = st ∨ ρ.state (k + 1) = .STOPPED)
    (hlong : limit ≤ ρ.now n - ρ.now m) : ρ.state (n + 1) = .STOPPED := by
  by_contra hrun
  have hin : ∀ k, m ≤ k → k ≤ n → ρ.state (k + 1) = st := fun k h1 h2 =>
    (hstay k h1 h2).resolve_right fun h => hrun (ρ.stopped_of_le (Nat.succ_le_succ h2) h)
  obtain ⟨c, hc⟩ : ∃ c, Since (fun k => ρ.state k = st) c n :=
    Since.exists_of_holds (by rw [ρ.state_zero]; exact hst.symm) (hin n hmn le_rfl)
  have hshort := hlt hc
  have hnow := ρ.now_le (hc.le_of_during hin)
  linarith

/-! ## What a silent node leaves to read -/

variable {ρ} {writes : Set CommandWrite} {beats : Set ℤ} {T : ℚ}

/-- Writes up to `T` are stale once the watchdog time after `T` is over. -/
theorem OneClock.cmdStale (h : ρ.OneClock writes beats)
    (hdead : ∀ w ∈ writes, seconds w.timestampNs ≤ T) {n : ℕ} (hn : T + a.watchdogT < ρ.now n) :
    (ρ.observed n).cmdStale a.toThresholds := by
  by_contra hfresh
  obtain ⟨m, -, cmdAge, hage, hread⟩ := ρ.exists_fresh_read hfresh
  obtain ⟨w, hw, -, hle⟩ := h.command_le hread
  have hT := hdead w hw
  linarith

/-- Beats up to `T` are too old once the perception timeout after `T` is over. -/
theorem OneClock.perceptionLost (h : ρ.OneClock writes beats)
    (hdead : ∀ t ∈ beats, seconds t ≤ T) {n : ℕ} (hn : T + a.perceptionTimeout < ρ.now n) :
    (ρ.observed n).perceptionLost a.toThresholds := by
  by_contra hfresh
  obtain ⟨m, -, hbAge, hage, hread⟩ := ρ.exists_fresh_beat hfresh
  obtain ⟨t, ht, hle⟩ := h.heartbeat_le hread
  have hT := hdead t ht
  linarith

/-! ## The next state after a silence -/

theorem succ_of_cmdStale {n : ℕ} (h : (ρ.observed n).cmdStale a.toThresholds) :
    ρ.state (n + 1) = .INIT ∨ ρ.state (n + 1) = .HOLDING ∨ ρ.state (n + 1) = .STOPPED := by
  rcases hs : ρ.state (n + 1) with _ | _ | _ | _ | _
  · exact .inl rfl
  · rw [ρ.state_succ, nextState_eq_ACTIVE_iff] at hs
    exact absurd h hs.2.1
  · exact .inr (.inl rfl)
  · rw [ρ.state_succ, nextState_eq_DEGRADED_iff] at hs
    exact absurd h hs.2.1
  · exact .inr (.inr rfl)

theorem init_succ_of_cmdStale {n : ℕ} (h : (ρ.observed n).cmdStale a.toThresholds)
    (hinit : ρ.state n = .INIT) : ρ.state (n + 1) = .INIT := by
  rw [ρ.state_succ, nextState_eq_INIT_iff]
  exact ⟨hinit, h⟩

theorem succ_of_perceptionLost {n : ℕ} (h : (ρ.observed n).perceptionLost a.toThresholds)
    (hfresh : ¬(ρ.observed n).cmdStale a.toThresholds) :
    ρ.state (n + 1) = .DEGRADED ∨ ρ.state (n + 1) = .STOPPED := by
  rcases hs : ρ.state (n + 1) with _ | _ | _ | _ | _
  · rw [ρ.state_succ, nextState_eq_INIT_iff] at hs
    exact absurd hs.2 hfresh
  · rw [ρ.state_succ, nextState_eq_ACTIVE_iff] at hs
    exact absurd h hs.2.2
  · rw [ρ.state_succ, nextState_eq_HOLDING_iff] at hs
    exact absurd hs.2.2.1 hfresh
  · exact .inl rfl
  · exact .inr rfl

/-- A cycle that follows no trusted command moves the acceleration toward zero. -/
theorem accCmd_toward_zero (hpos : ∀ r, a.accRateLimit = some r → 0 < a.period → ¬r < .fin 0)
    {n : ℕ} (h : ρ.state (n + 1 + 1) = .HOLDING ∨ ρ.state (n + 1 + 1) = .DEGRADED ∨
      ρ.state (n + 1 + 1) = .STOPPED) :
    ∃ u v, (ρ.sent n).out.accCmd = .fin u ∧ (ρ.sent (n + 1)).out.accCmd = .fin v ∧
      v ∈ Set.uIcc u 0 := by
  rcases h with h | h | h
  · exact ρ.accCmd_step hpos (.inl h)
  · exact ρ.accCmd_step hpos (.inr h)
  · have hin := clampRange_inRange (ρ.entered n |>.policy a.period).out
    rw [← LoopState.sending_out, ← sent_eq] at hin
    obtain ⟨u, hu, -⟩ := hin.accCmd
    refine ⟨u, 0, hu, ?_, Set.right_mem_uIcc⟩
    rw [ρ.sent_of_stopped h]
    rfl

/-! ## The fields of the two results -/

/-- A guard that is still waiting when every command is stale waits for ever. -/
theorem init_of_cmdStale {m n : ℕ} (hmn : m ≤ n) (hinit : ρ.state m = .INIT)
    (hstale : ∀ k, m ≤ k → (ρ.observed k).cmdStale a.toThresholds) : ρ.state n = .INIT := by
  induction n, hmn using Nat.le_induction with
  | base => exact hinit
  | succ k hk ih => exact init_succ_of_cmdStale (hstale k hk) ih

/-- Stale commands stop every other guard after the limit of HOLDING. -/
theorem stopped_of_cmdStale (hS : 0 < a.stoppedAfter) {m n : ℕ} (hmn : m ≤ n)
    (hstale : ∀ k, m ≤ k → (ρ.observed k).cmdStale a.toThresholds)
    (hleft : ρ.state (m + 1) ≠ .INIT) (hlong : a.stoppedAfter ≤ ρ.now n - ρ.now m) :
    ρ.state (n + 1) = .STOPPED := by
  refine ρ.stopped_of_stay (by decide) (ρ.holding_lt hS) hmn (fun k hk _ => ?_) hlong
  refine (succ_of_cmdStale (hstale k hk)).resolve_left fun hinit => ?_
  exact hleft (ρ.init_of_le (Nat.succ_le_succ hk) hinit)

/-- A lost perception stops the vehicle after the limit of DEGRADED while the commands are
fresh. -/
theorem stopped_of_perceptionLost (hP : 0 < a.perceptionLostStoppedAfter) {m n : ℕ} (hmn : m ≤ n)
    (hlost : ∀ k, m ≤ k → (ρ.observed k).perceptionLost a.toThresholds)
    (hfresh : ∀ k, m ≤ k → k ≤ n → ¬(ρ.observed k).cmdStale a.toThresholds)
    (hlong : a.perceptionLostStoppedAfter ≤ ρ.now n - ρ.now m) : ρ.state (n + 1) = .STOPPED := by
  refine ρ.stopped_of_stay (by decide) (ρ.degraded_lt hP) hmn (fun k hk hkn => ?_) hlong
  exact succ_of_perceptionLost (hlost k hk) (hfresh k hk hkn)

variable (ρ)

/-- What the loop does when no command is written after `T`. -/
structure ControlNodeSilent (T : ℚ) : Prop where
  /-- After the watchdog time no state trusts a command. -/
  untrusted : ∀ n, T + a.watchdogT < ρ.now n →
    ρ.state (n + 1) = .INIT ∨ ρ.state (n + 1) = .HOLDING ∨ ρ.state (n + 1) = .STOPPED
  /-- A guard that is still waiting then waits for ever, and sends the safe command. -/
  waits : ∀ m n, m ≤ n → T + a.watchdogT < ρ.now m → ρ.state m = .INIT →
    ρ.state (n + 1) = .INIT ∧ (ρ.sent n).out = {}
  /-- Every other guard moves the acceleration toward zero from the first such cycle on. -/
  brakes : (∀ r, a.accRateLimit = some r → 0 < a.period → ¬r < .fin 0) →
    ∀ n, T + a.watchdogT < ρ.now (n + 1) → ρ.state (n + 1) ≠ .INIT →
      ∃ u v, (ρ.sent n).out.accCmd = .fin u ∧ (ρ.sent (n + 1)).out.accCmd = .fin v ∧
        v ∈ Set.uIcc u 0
  /-- It is stopped for ever once HOLDING has reached its limit. -/
  stops : ∀ m n, m ≤ n → T + a.watchdogT < ρ.now m → ρ.state (m + 1) ≠ .INIT →
    a.stoppedAfter ≤ ρ.now n - ρ.now m → ρ.state (n + 1) = .STOPPED ∧ ρ.SendsNothing n

/-- What the loop does when no heartbeat is sent after `T`. -/
structure PerceptionSilent (T : ℚ) : Prop where
  /-- After the timeout no cycle is ACTIVE. -/
  untrusted : ∀ n, T + a.perceptionTimeout < ρ.now n → ρ.state (n + 1) ≠ .ACTIVE
  /-- Cycles with fresh commands move the acceleration toward zero. -/
  brakes : (∀ r, a.accRateLimit = some r → 0 < a.period → ¬r < .fin 0) →
    ∀ n, T + a.perceptionTimeout < ρ.now (n + 1) →
      ¬(ρ.observed (n + 1)).cmdStale a.toThresholds →
      ∃ u v, (ρ.sent n).out.accCmd = .fin u ∧ (ρ.sent (n + 1)).out.accCmd = .fin v ∧
        v ∈ Set.uIcc u 0
  /-- They stop the vehicle once DEGRADED has reached its limit. -/
  stops : ∀ m n, m ≤ n → T + a.perceptionTimeout < ρ.now m →
    (∀ k, m ≤ k → k ≤ n → ¬(ρ.observed k).cmdStale a.toThresholds) →
    a.perceptionLostStoppedAfter ≤ ρ.now n - ρ.now m →
      ρ.state (n + 1) = .STOPPED ∧ ρ.SendsNothing n

end GuardRun

/-! ## A guard whose nodes have died -/

/-- One write at time zero, read once, and nothing afterwards. -/
def oneWrite : Seqlock.Run CommandChannel.layout :=
  .schedule _ (fun _ => default) fun n =>
    ((.beginWrite ⟨{ accEn := true }, 0⟩ :: List.replicate 14 .write ++
      .beginRead 1000 :: List.replicate 12 .read)[n]?).getD .wait

/-- One beat at time zero, read once, and nothing afterwards. -/
def oneBeat : Seqlock.Run HeartbeatChannel.layout :=
  .schedule _ (fun _ => default) fun n =>
    ((.beginWrite 0 :: List.replicate 5 .write ++
      .beginRead 1000 :: List.replicate 3 .read)[n]?).getD .wait

/-- A guard that reads both of them in every cycle. -/
def orphanedRun (a : Args) : GuardRun a :=
  .ofInputs a (fun n =>
    { now := n / 100
      cmdRead := .ok (some (({ accEn := true } : Command).stored, ageS (n * 10 ^ 7) 0))
      hbAge := .ok (some (ageS (n * 10 ^ 7) 0)) }) GuardRun.monotone_tick

theorem oneWrite_le (k : ℕ) : (oneWrite.state k).begun ≤ (oneWrite.state 28).begun ∧
    (oneWrite.state k).done <+: (oneWrite.state 28).done := by
  refine Seqlock.Run.schedule_le _ _ _ (fun k hk => ?_) k
  rw [List.getElem?_eq_none (by simpa using hk)]
  rfl

theorem oneBeat_le (k : ℕ) : (oneBeat.state k).begun ≤ (oneBeat.state 10).begun ∧
    (oneBeat.state k).done <+: (oneBeat.state 10).done := by
  refine Seqlock.Run.schedule_le _ _ _ (fun k hk => ?_) k
  rw [List.getElem?_eq_none (by simpa using hk)]
  rfl

theorem oneWrite_done {k : ℕ} {w : CommandWrite} (h : w ∈ (oneWrite.state k).done) :
    w = ⟨{ accEn := true }, 0⟩ := by
  have hdone : (oneWrite.state 28).done = [⟨{ accEn := true }, 0⟩] := by rfl
  exact List.mem_singleton.1 (hdone ▸ (oneWrite_le k).2.subset h)

theorem oneWrite_timestamp {k : ℕ} {w : CommandWrite} (h : w ∈ (oneWrite.state k).done) :
    w.timestampNs = 0 := by
  rw [oneWrite_done h]

theorem oneBeat_timestamp {k : ℕ} {t : ℤ} (h : t ∈ (oneBeat.state k).done) : t = 0 := by
  have hdone : ∀ t ∈ (oneBeat.state 10).done, t = 0 := by decide +kernel
  exact hdone t ((oneBeat_le k).2.subset h)

theorem orphanedRun_now_le (a : Args) (n : ℕ) : (orphanedRun a).now n ≤ seconds (n * 10 ^ 7) := by
  show (n : ℚ) / 100 ≤ ((n * 10 ^ 7 : ℤ) : ℚ) / 10 ^ 9
  push_cast
  linarith

theorem orphanedRun_readsChannels (a : Args) :
    (orphanedRun a).ReadsChannels oneWrite oneBeat := by
  refine ⟨fun n => ⟨27, _, orphanedRun_now_le a n, 1000, _, rfl, rfl⟩,
    fun n => ⟨9, _, orphanedRun_now_le a n, 1000, _, rfl, rfl⟩,
    fun k => (oneWrite_le k).1.trans_lt (by decide +kernel),
    fun k => (oneBeat_le k).1.trans_lt (by decide +kernel), fun k w hw => ?_, fun k t ht => ?_⟩
  · rw [oneWrite_timestamp hw]
    norm_num
  · rw [oneBeat_timestamp ht]
    norm_num

/-! ## The two deaths -/

open GuardRun Seqlock in
/-- A control node that completes no write after `T` is noticed after the watchdog time, and the
vehicle is stopped after the limit of HOLDING. -/
theorem control_node_death {a : Args} (hS : 0 < a.stoppedAfter) {ρ : GuardRun a}
    {χ : Run CommandChannel.layout} {η : Run HeartbeatChannel.layout} (h : ρ.ReadsChannels χ η)
    {T : ℚ} (hdead : ∀ k, ∀ w ∈ (χ.state k).done, seconds w.timestampNs ≤ T) :
    ρ.ControlNodeSilent T := by
  have hwrites : ∀ w ∈ {w | ∃ k, w ∈ (χ.state k).done}, seconds w.timestampNs ≤ T :=
    fun w ⟨k, hk⟩ => hdead k w hk
  have hstale : ∀ {n}, T + a.watchdogT < ρ.now n → (ρ.observed n).cmdStale a.toThresholds :=
    fun hn => h.oneClock.cmdStale hwrites hn
  have hlater : ∀ {m}, T + a.watchdogT < ρ.now m → ∀ k, m ≤ k →
      (ρ.observed k).cmdStale a.toThresholds :=
    fun hm k hk => hstale (hm.trans_le (ρ.now_le hk))
  refine ⟨fun n hn => succ_of_cmdStale (hstale hn), ?_, ?_, ?_⟩
  · intro m n hmn hm hinit
    have hwait := init_of_cmdStale (hmn.trans n.le_succ) hinit (hlater hm)
    exact ⟨hwait, ρ.sent_of_init hwait⟩
  · intro hpos n hn hne
    refine accCmd_toward_zero hpos ?_
    rcases succ_of_cmdStale (hstale hn) with hs | hs | hs
    · exact absurd (ρ.init_of_succ hs) hne
    · exact .inl hs
    · exact .inr (.inr hs)
  · intro m n hmn hm hne hlong
    have hstop := stopped_of_cmdStale hS hmn (hlater hm) hne hlong
    exact ⟨hstop, ρ.sendsNothing_of_stopped hstop⟩

theorem control_node_death_orphaned : (orphanedRun {}).state 1 = .ACTIVE ∧
    (orphanedRun {}).ControlNodeSilent 0 := by
  refine ⟨by decide +kernel, control_node_death (by decide +kernel) (orphanedRun_readsChannels {})
    fun k w hw => ?_⟩
  rw [oneWrite_timestamp hw]
  norm_num [seconds]

open GuardRun Seqlock in
/-- A perception node that completes no beat after `T` is noticed after its timeout, and the
vehicle is stopped after the limit of DEGRADED while the commands stay fresh. -/
theorem perception_death {a : Args} (hP : 0 < a.perceptionLostStoppedAfter) {ρ : GuardRun a}
    {χ : Run CommandChannel.layout} {η : Run HeartbeatChannel.layout} (h : ρ.ReadsChannels χ η)
    {T : ℚ} (hdead : ∀ k, ∀ t ∈ (η.state k).done, seconds t ≤ T) : ρ.PerceptionSilent T := by
  have hbeats : ∀ t ∈ {t | ∃ k, t ∈ (η.state k).done}, seconds t ≤ T :=
    fun t ⟨k, hk⟩ => hdead k t hk
  have hlost : ∀ {n}, T + a.perceptionTimeout < ρ.now n →
      (ρ.observed n).perceptionLost a.toThresholds :=
    fun hn => h.oneClock.perceptionLost hbeats hn
  refine ⟨?_, ?_, ?_⟩
  · intro n hn hactive
    rw [ρ.state_succ, nextState_eq_ACTIVE_iff] at hactive
    exact hactive.2.2 (hlost hn)
  · intro hpos n hn hfresh
    exact accCmd_toward_zero hpos (.inr (succ_of_perceptionLost (hlost hn) hfresh))
  · intro m n hmn hm hfresh hlong
    have hstop := stopped_of_perceptionLost hP hmn
      (fun k hk => hlost (hm.trans_le (ρ.now_le hk))) hfresh hlong
    exact ⟨hstop, ρ.sendsNothing_of_stopped hstop⟩

theorem perception_death_orphaned : (orphanedRun {}).PerceptionSilent 0 := by
  refine perception_death (by decide +kernel) (orphanedRun_readsChannels {}) fun k t ht => ?_
  rw [oneBeat_timestamp ht]
  norm_num [seconds]

end A1Bsw
