import A1Bsw.GuardLoop

/-!
# ACTIVE means fresh

The loop reconstructs the time of the last command from the time of the
cycle and an age that is measured later, so the reconstructed time is never
later than the true one, and failed reads leave it (`active_is_fresh`).

`OneClock` is what the loop is told : each successful read gives the content
of some write and its age at a clock value that is not before the cycle. The
two seqlock channels tell it that (`ReadsChannels.oneClock`).
-/

namespace A1Bsw

/-- Seconds of a clock value in nanoseconds. -/
def seconds (ns : ℤ) : ℚ :=
  ns / 10 ^ 9

theorem ageS_eq (nowNs tsNs : ℤ) : ageS nowNs tsNs = seconds nowNs - seconds tsNs := by
  unfold ageS seconds
  ring

/-- A stored clock value is not later than the clock value. -/
theorem seconds_cInt64_le {ns : ℤ} (h : -2 ^ 63 ≤ ns) : seconds (cInt64 ns) ≤ seconds ns := by
  unfold seconds
  have hle : (cInt64 ns : ℚ) ≤ ns := Int.cast_le.2 (cInt64_le h)
  linarith

namespace GuardRun

variable {a : Args} (ρ : GuardRun a)

/-- The reads of a run return writes of `writes` and beats of `beats`, their ages measured
after the time of the cycle on the clock the writers stored. Its values are signed 64-bit
integers. -/
structure OneClock (writes : Set CommandWrite) (beats : Set ℤ) : Prop where
  command : ∀ {n cmd cmdAge}, (ρ.input n).cmdRead = .ok (some (cmd, cmdAge)) →
    ∃ w ∈ writes, ∃ nowNs, ρ.now n ≤ seconds nowNs ∧ cmd = w.cmd.stored ∧
      cmdAge = ageS nowNs w.storedNs
  heartbeat : ∀ {n hbAge}, (ρ.input n).hbAge = .ok (some hbAge) →
    ∃ timestampNs ∈ beats, ∃ nowNs, ρ.now n ≤ seconds nowNs ∧
      hbAge = ageS nowNs (cInt64 timestampNs)
  writes_fit : ∀ w ∈ writes, -2 ^ 63 ≤ w.timestampNs
  beats_fit : ∀ timestampNs ∈ beats, -2 ^ 63 ≤ timestampNs

/-- What a run remembers is not fresher than it is, and in ACTIVE it is fresh. -/
structure ActiveIsFresh (writes : Set CommandWrite) (beats : Set ℤ) : Prop where
  lastCmdMono_le : ∀ {n mono}, (ρ.sensed n).lastCmdMono = some mono →
    ∃ w ∈ writes, (ρ.sensed n).lastValidCmd = w.cmd.stored ∧ mono ≤ seconds w.timestampNs
  lastHbMono_le : ∀ {n mono}, (ρ.sensed n).lastHbMono = some mono →
    ∃ timestampNs ∈ beats, mono ≤ seconds timestampNs
  command : ∀ {n}, ρ.state (n + 1) = .ACTIVE →
    ∃ w ∈ writes, (ρ.sensed n).lastValidCmd = w.cmd.stored ∧
      ρ.now n - a.watchdogT ≤ seconds w.timestampNs
  heartbeat : ∀ {n}, ρ.state (n + 1) = .ACTIVE →
    ∃ timestampNs ∈ beats, ρ.now n - a.perceptionTimeout ≤ seconds timestampNs

variable {ρ} {writes : Set CommandWrite} {beats : Set ℤ}

/-- The time a read stands for is not later than the write it returned. -/
theorem OneClock.command_le (h : ρ.OneClock writes beats) {n : ℕ} {cmd : Command} {cmdAge : ℚ}
    (hread : (ρ.input n).cmdRead = .ok (some (cmd, cmdAge))) :
    ∃ w ∈ writes, cmd = w.cmd.stored ∧ ρ.now n - cmdAge ≤ seconds w.timestampNs := by
  obtain ⟨w, hw, nowNs, hnow, rfl, rfl⟩ := h.command hread
  have hstored := seconds_cInt64_le (h.writes_fit w hw)
  refine ⟨w, hw, rfl, ?_⟩
  rw [ageS_eq, CommandWrite.storedNs]
  linarith

/-- The time a heartbeat stands for is not later than the beat. -/
theorem OneClock.heartbeat_le (h : ρ.OneClock writes beats) {n : ℕ} {hbAge : ℚ}
    (hread : (ρ.input n).hbAge = .ok (some hbAge)) :
    ∃ timestampNs ∈ beats, ρ.now n - hbAge ≤ seconds timestampNs := by
  obtain ⟨timestampNs, hb, nowNs, hnow, rfl⟩ := h.heartbeat hread
  have hstored := seconds_cInt64_le (h.beats_fit timestampNs hb)
  refine ⟨timestampNs, hb, ?_⟩
  rw [ageS_eq]
  linarith

end GuardRun

open GuardRun in
/-- On one clock every ACTIVE cycle follows a recent command and saw a recent heartbeat,
through any number of failed reads. -/
theorem active_is_fresh {a : Args} {ρ : GuardRun a} {writes : Set CommandWrite} {beats : Set ℤ}
    (h : ρ.OneClock writes beats) : ρ.ActiveIsFresh writes beats where
  lastCmdMono_le hmono := by
    obtain ⟨m, -, cmdAge, rfl, hread⟩ := ρ.exists_read hmono
    obtain ⟨w, hw, hcmd, hle⟩ := h.command_le hread
    exact ⟨w, hw, hcmd, hle⟩
  lastHbMono_le hmono := by
    obtain ⟨m, -, hbAge, rfl, hread⟩ := ρ.exists_beat hmono
    exact h.heartbeat_le hread
  command hactive := by
    rw [ρ.state_succ, nextState_eq_ACTIVE_iff] at hactive
    obtain ⟨m, -, cmdAge, hage, hread⟩ := ρ.exists_fresh_read hactive.2.1
    obtain ⟨w, hw, hcmd, hle⟩ := h.command_le hread
    exact ⟨w, hw, hcmd, by linarith⟩
  heartbeat hactive := by
    rw [ρ.state_succ, nextState_eq_ACTIVE_iff] at hactive
    obtain ⟨m, -, hbAge, hage, hread⟩ := ρ.exists_fresh_beat hactive.2.2
    obtain ⟨timestampNs, hb, hle⟩ := h.heartbeat_le hread
    exact ⟨timestampNs, hb, by linarith⟩

/-- One write and one beat at time zero, read 5 ms later, and torn or empty reads from then on. -/
def tornRun : GuardRun {} :=
  .ofInputs {} (fun n =>
    { now := n / 100
      cmdRead := if n = 0 then .ok (some ({}, 1 / 200)) else CommandChannel.result 1000 0 .torn
      hbAge := .ok (if n = 0 then some (1 / 200) else none) }) GuardRun.monotone_tick

theorem active_is_fresh_torn : tornRun.ActiveIsFresh {⟨{}, 0⟩} {0} := by
  have hstored : ({} : Command) = ({} : Command).stored := by decide +kernel
  have hnow : tornRun.now 0 ≤ seconds 5000000 := by decide +kernel
  have hage : (1 / 200 : ℚ) = ageS 5000000 (cInt64 0) := by decide +kernel
  refine active_is_fresh ⟨?_, ?_, by simp, by simp⟩
  · intro n cmd cmdAge hread
    rcases n with _ | n
    · cases hread
      exact ⟨_, rfl, 5000000, hnow, hstored, hage⟩
    · cases hread
  · intro n hbAge hread
    rcases n with _ | n
    · cases hread
      exact ⟨0, rfl, 5000000, hnow, hage⟩
    · cases hread

/-! ## The channels -/

namespace GuardRun

variable {a : Args} (ρ : GuardRun a)

open Seqlock in
/-- The reads of the run are reads of two seqlock channels, whose clock values are not before
the time of the cycle. -/
structure ReadsChannels (χ : Run CommandChannel.layout) (η : Run HeartbeatChannel.layout) :
    Prop where
  command : ∀ n, ∃ k nowNs, ρ.now n ≤ seconds nowNs ∧
    Returns CommandChannel.result χ k nowNs (ρ.input n).cmdRead
  heartbeat : ∀ n, ∃ k nowNs, ρ.now n ≤ seconds nowNs ∧
    Returns HeartbeatChannel.result η k nowNs (ρ.input n).hbAge
  writes_begun : ∀ k, (χ.state k).begun < 2 ^ 62
  beats_begun : ∀ k, (η.state k).begun < 2 ^ 62
  writes_fit : ∀ k, ∀ w ∈ (χ.state k).done, -2 ^ 63 ≤ w.timestampNs
  beats_fit : ∀ k, ∀ timestampNs ∈ (η.state k).done, -2 ^ 63 ≤ timestampNs

variable {ρ}

open Seqlock in
/-- Reading the channels tells the loop about completed writes and beats. -/
theorem ReadsChannels.oneClock {χ : Run CommandChannel.layout} {η : Run HeartbeatChannel.layout}
    (h : ρ.ReadsChannels χ η) :
    ρ.OneClock {w | ∃ k, w ∈ (χ.state k).done} {t | ∃ k, t ∈ (η.state k).done} where
  command {n cmd cmdAge} hread := by
    obtain ⟨k, nowNs, hnow, hret⟩ := h.command n
    rw [hread] at hret
    obtain ⟨w, hw, heq⟩ :=
      (CommandChannel.readsCompletedWrites χ).last_completed (h.writes_begun k) hret
    rw [Prod.mk.injEq] at heq
    exact ⟨w, ⟨k, List.mem_of_getLast? hw⟩, nowNs, hnow, heq.1, heq.2⟩
  heartbeat {n hbAge} hread := by
    obtain ⟨k, nowNs, hnow, hret⟩ := h.heartbeat n
    rw [hread] at hret
    obtain ⟨t, ht, heq⟩ :=
      (HeartbeatChannel.readsCompletedWrites η).last_completed (h.beats_begun k) hret
    exact ⟨t, ⟨k, List.mem_of_getLast? ht⟩, nowNs, hnow, heq⟩
  writes_fit := fun w ⟨k, hk⟩ => h.writes_fit k w hk
  beats_fit := fun t ⟨k, hk⟩ => h.beats_fit k t hk

end GuardRun

end A1Bsw
