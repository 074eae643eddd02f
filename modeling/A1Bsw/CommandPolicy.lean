import A1Bsw.Plausibility
import A1Bsw.StateMachine

/-!
# What each state sends

`commandForState` is `command_for_state` of `command_policy.py`. It calls the
limiters of the steering angle and of the acceleration, so it returns them
with the command. A state that follows a target sends it limited : the
requests in ACTIVE, the frozen angle and a zero acceleration in HOLDING and in
DEGRADED (`commandForState_of_following`).
-/

namespace A1Bsw

/-- What `command_for_state` returns, and the limiters it leaves. -/
structure Policy where
  out : Command
  epsLimiter : RateLimiter
  accLimiter : RateLimiter

/-- `command_for_state`. Its last line raises for no member of `State`. -/
def commandForState (state : State) (lastValidCmd : Command) (heldEpsCmd : PyFloat)
    (epsLimiter accLimiter : RateLimiter) (dt : PyFloat) : Policy :=
  match state with
  | .INIT =>
    { out := {}
      epsLimiter := epsLimiter.reset (some (.fin 0))
      accLimiter := accLimiter.reset (some (.fin 0)) }
  | .ACTIVE =>
    let eps := epsLimiter.step lastValidCmd.epsCmd dt
    let acc := accLimiter.step lastValidCmd.accCmd dt
    { out := { lastValidCmd with epsCmd := eps.1, accCmd := acc.1 }
      epsLimiter := eps.2
      accLimiter := acc.2 }
  | .HOLDING | .DEGRADED =>
    let eps := epsLimiter.step heldEpsCmd dt
    let acc := accLimiter.step (.fin 0) dt
    { out := { lastValidCmd with epsCmd := eps.1, accCmd := acc.1 }
      epsLimiter := eps.2
      accLimiter := acc.2 }
  | .STOPPED =>
    { out := { epsEn := false, accEn := false, aebEn := lastValidCmd.aebEn,
               epsSpeed := lastValidCmd.epsSpeed }
      epsLimiter := epsLimiter
      accLimiter := accLimiter }

/-- The states in which the limiters follow a target. -/
def State.Following (state : State) : Prop :=
  state ≠ .INIT ∧ state ≠ .STOPPED

instance : DecidablePred State.Following := fun _ => inferInstanceAs (Decidable (_ ∧ _))

/-- The states that follow a frozen angle and a zero acceleration. -/
def State.Fallback (state : State) : Prop :=
  state = .HOLDING ∨ state = .DEGRADED

instance : DecidablePred State.Fallback := fun _ => inferInstanceAs (Decidable (_ ∨ _))

theorem State.Fallback.following {state : State} (h : state.Fallback) : state.Following := by
  rcases h with rfl | rfl <;> simp [State.Following]

/-- The angle a state follows. -/
def State.epsTarget (state : State) (lastValidCmd : Command) (heldEpsCmd : PyFloat) : PyFloat :=
  if state = .ACTIVE then lastValidCmd.epsCmd else heldEpsCmd

/-- The acceleration a state follows. -/
def State.accTarget (state : State) (lastValidCmd : Command) : PyFloat :=
  if state = .ACTIVE then lastValidCmd.accCmd else .fin 0

/-- A following state sends the limited targets in the last valid command. -/
theorem commandForState_of_following {state : State} (h : state.Following)
    (lastValidCmd : Command) (heldEpsCmd : PyFloat) (epsLimiter accLimiter : RateLimiter)
    (dt : PyFloat) :
    commandForState state lastValidCmd heldEpsCmd epsLimiter accLimiter dt =
      { out := { lastValidCmd with
          epsCmd := epsLimiter.limited (state.epsTarget lastValidCmd heldEpsCmd) dt
          accCmd := accLimiter.limited (state.accTarget lastValidCmd) dt }
        epsLimiter := (epsLimiter.step (state.epsTarget lastValidCmd heldEpsCmd) dt).2
        accLimiter := (accLimiter.step (state.accTarget lastValidCmd) dt).2 } := by
  obtain ⟨h1, h2⟩ := h
  cases state <;> first | contradiction | rfl

end A1Bsw
