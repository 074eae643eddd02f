import Mathlib.Data.Rat.Defs
import Mathlib.Algebra.Order.Ring.Rat
import Mathlib.Tactic.Linarith

/-!
# The guard's state machine

`nextState` is the transition function of `state_machine.py`. An age of
`none` was never received and counts as infinite. A duration or a speed of
`none` is unknown, and no condition on it holds.

One lemma for each result says exactly when a transition has it, in terms of
the staleness of the command, the presence of perception and the timer test.
-/

namespace A1Bsw

/-- The states of the guard. -/
inductive State where
  | INIT
  | ACTIVE
  | HOLDING
  | DEGRADED
  | STOPPED
  deriving DecidableEq

/-- `DEFAULT_WATCHDOG_T_S`. -/
def defaultWatchdogT : ℚ := 1 / 20

/-- `DEFAULT_STOPPED_AFTER_S`. -/
def defaultStoppedAfter : ℚ := 2

/-- `DEFAULT_PERCEPTION_TIMEOUT_S`. -/
def defaultPerceptionTimeout : ℚ := 1 / 2

/-- `DEFAULT_PERCEPTION_LOST_STOPPED_AFTER_S`. -/
def defaultPerceptionLostStoppedAfter : ℚ := 2

/-- `DEFAULT_STOP_SPEED_KPH`. -/
def defaultStopSpeedKph : ℚ := 3

/-- `x is None or x > limit`. -/
def staleAge (age : Option ℚ) (limit : ℚ) : Bool :=
  match age with
  | none => true
  | some x => limit < x

/-- `x is not None and x <= limit`. -/
def nearStop (speed : Option ℚ) (limit : ℚ) : Bool :=
  match speed with
  | none => false
  | some v => v ≤ limit

/-- `d is not None and (d >= limit or near)`. -/
def dueStop (duration : Option ℚ) (limit : ℚ) (near : Bool) : Bool :=
  match duration with
  | none => false
  | some d => limit ≤ d || near

/-- The thresholds of `next_state`. -/
structure Thresholds where
  watchdogT : ℚ := defaultWatchdogT
  stoppedAfter : ℚ := defaultStoppedAfter
  perceptionTimeout : ℚ := defaultPerceptionTimeout
  perceptionLostStoppedAfter : ℚ := defaultPerceptionLostStoppedAfter
  stopSpeedKph : ℚ := defaultStopSpeedKph

/-- The observations of `next_state`. -/
structure Observation where
  cmdAge : Option ℚ
  holdingDuration : Option ℚ
  perceptionAge : Option ℚ
  degradedDuration : Option ℚ := none
  vehicleSpeedKph : Option ℚ := none

namespace Observation

variable (θ : Thresholds) (o : Observation)

/-- `perception_lost`. -/
def perceptionLost : Bool :=
  staleAge o.perceptionAge θ.perceptionTimeout

/-- `cmd_stale`. -/
def cmdStale : Bool :=
  staleAge o.cmdAge θ.watchdogT

/-- `vehicle_near_stop`. -/
def vehicleNearStop : Bool :=
  nearStop o.vehicleSpeedKph θ.stopSpeedKph

end Observation

open State in
/-- `next_state`. -/
def nextState (θ : Thresholds) (current : State) (o : Observation) : State :=
  if current = INIT then
    if o.cmdStale θ then INIT
    else if o.perceptionLost θ then DEGRADED else ACTIVE
  else if current = STOPPED then STOPPED
  else if ¬o.cmdStale θ then
    if ¬o.perceptionLost θ then ACTIVE
    else if dueStop o.degradedDuration θ.perceptionLostStoppedAfter (o.vehicleNearStop θ) then
      STOPPED
    else DEGRADED
  else if dueStop o.holdingDuration θ.stoppedAfter (o.vehicleNearStop θ) then STOPPED
  else HOLDING

/-! ## When each state results -/

variable {θ : Thresholds} {current : State} {o : Observation}

theorem nextState_eq_INIT_iff :
    nextState θ current o = .INIT ↔ current = .INIT ∧ o.cmdStale θ := by
  unfold nextState
  split_ifs <;> simp_all

/-- From every state that is not latched, a fresh command and live perception give ACTIVE. -/
theorem nextState_eq_ACTIVE_iff :
    nextState θ current o = .ACTIVE ↔
      current ≠ .STOPPED ∧ ¬o.cmdStale θ ∧ ¬o.perceptionLost θ := by
  unfold nextState
  split_ifs <;> simp_all

theorem nextState_eq_HOLDING_iff :
    nextState θ current o = .HOLDING ↔
      current ≠ .INIT ∧ current ≠ .STOPPED ∧ o.cmdStale θ ∧
        ¬dueStop o.holdingDuration θ.stoppedAfter (o.vehicleNearStop θ) := by
  unfold nextState
  split_ifs <;> simp_all

theorem nextState_eq_DEGRADED_iff :
    nextState θ current o = .DEGRADED ↔
      current ≠ .STOPPED ∧ ¬o.cmdStale θ ∧ o.perceptionLost θ ∧
        (current = .INIT ∨
          ¬dueStop o.degradedDuration θ.perceptionLostStoppedAfter (o.vehicleNearStop θ)) := by
  unfold nextState
  split_ifs <;> simp_all

/-- STOPPED is latched, and no transition leads from INIT to it. -/
theorem nextState_eq_STOPPED_iff :
    nextState θ current o = .STOPPED ↔
      current = .STOPPED ∨ current ≠ .INIT ∧
        (o.cmdStale θ ∧ dueStop o.holdingDuration θ.stoppedAfter (o.vehicleNearStop θ) ∨
          ¬o.cmdStale θ ∧ o.perceptionLost θ ∧
            dueStop o.degradedDuration θ.perceptionLostStoppedAfter (o.vehicleNearStop θ)) := by
  unfold nextState
  split_ifs <;> simp_all

end A1Bsw
