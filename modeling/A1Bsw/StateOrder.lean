import A1Bsw.StateMachine

/-!
# Worse observations and safer states

The states in the order ACTIVE, DEGRADED, HOLDING, STOPPED, and observations
in the order of their ages and durations. `nextState` is monotone between the
two orders, but for one case : a stale command outranks lost perception, so a
stop that is due for lost perception is postponed by the whole HOLDING time
when the command becomes stale too (`Observation.Postpones`).
-/

namespace A1Bsw

/-! ## The two orders -/

/-- The states by how far they are from following the planner. No transition of a started guard
leads to INIT. -/
def State.severity : State → ℕ
  | INIT => 0
  | ACTIVE => 1
  | DEGRADED => 2
  | HOLDING => 3
  | STOPPED => 4

/-- The order of ages, in which `none` is infinite. -/
def AgeLe : Option ℚ → Option ℚ → Prop
  | _, none => True
  | none, some _ => False
  | some x, some y => x ≤ y

theorem staleAge_mono {x y : Option ℚ} {limit : ℚ} (h : AgeLe x y) (hx : staleAge x limit) :
    staleAge y limit := by
  rcases y with _ | y
  · rfl
  rcases x with _ | x
  · exact h.elim
  · exact decide_eq_true ((of_decide_eq_true hx).trans_le h)

theorem dueStop_some {d limit : ℚ} {near : Bool} :
    dueStop (some d) limit near ↔ limit ≤ d ∨ near := by
  rw [dueStop, Bool.or_eq_true_iff, decide_eq_true_iff]

theorem dueStop_mono {d₁ d₂ limit : ℚ} {near : Bool} (h : d₁ ≤ d₂)
    (hd : dueStop (some d₁) limit near) : dueStop (some d₂) limit near := by
  rw [dueStop_some] at hd ⊢
  exact hd.imp_left fun hlimit => hlimit.trans h

namespace Observation

/-- The second observation is at least as bad : ages and durations at least as large, at the
same speed. -/
structure WorsensTo (o₁ o₂ : Observation) : Prop where
  cmdAge : AgeLe o₁.cmdAge o₂.cmdAge
  perceptionAge : AgeLe o₁.perceptionAge o₂.perceptionAge
  holdingDuration : ∃ d₁ d₂, o₁.holdingDuration = some d₁ ∧ o₂.holdingDuration = some d₂ ∧ d₁ ≤ d₂
  degradedDuration :
    ∃ d₁ d₂, o₁.degradedDuration = some d₁ ∧ o₂.degradedDuration = some d₂ ∧ d₁ ≤ d₂
  vehicleSpeedKph : o₁.vehicleSpeedKph = o₂.vehicleSpeedKph

/-- A stop is due in the first observation for lost perception, and in the second the command
is stale and no stop is due for that. -/
def Postpones (θ : Thresholds) (o₁ o₂ : Observation) : Prop :=
  ¬o₁.cmdStale θ ∧ o₁.perceptionLost θ ∧
    dueStop o₁.degradedDuration θ.perceptionLostStoppedAfter (o₁.vehicleNearStop θ) ∧
      o₂.cmdStale θ ∧ ¬dueStop o₂.holdingDuration θ.stoppedAfter (o₂.vehicleNearStop θ)

namespace WorsensTo

variable {θ : Thresholds} {o₁ o₂ : Observation}

theorem cmdStale (h : o₁.WorsensTo o₂) : o₁.cmdStale θ → o₂.cmdStale θ :=
  staleAge_mono h.cmdAge

theorem perceptionLost (h : o₁.WorsensTo o₂) : o₁.perceptionLost θ → o₂.perceptionLost θ :=
  staleAge_mono h.perceptionAge

theorem vehicleNearStop (h : o₁.WorsensTo o₂) : o₁.vehicleNearStop θ = o₂.vehicleNearStop θ := by
  rw [Observation.vehicleNearStop, h.vehicleSpeedKph, Observation.vehicleNearStop]

theorem holdingDue (h : o₁.WorsensTo o₂)
    (hd : dueStop o₁.holdingDuration θ.stoppedAfter (o₁.vehicleNearStop θ)) :
    dueStop o₂.holdingDuration θ.stoppedAfter (o₂.vehicleNearStop θ) := by
  obtain ⟨d₁, d₂, h1, h2, hle⟩ := h.holdingDuration
  rw [h1, h.vehicleNearStop] at hd
  rw [h2]
  exact dueStop_mono hle hd

theorem degradedDue (h : o₁.WorsensTo o₂)
    (hd : dueStop o₁.degradedDuration θ.perceptionLostStoppedAfter (o₁.vehicleNearStop θ)) :
    dueStop o₂.degradedDuration θ.perceptionLostStoppedAfter (o₂.vehicleNearStop θ) := by
  obtain ⟨d₁, d₂, h1, h2, hle⟩ := h.degradedDuration
  rw [h1, h.vehicleNearStop] at hd
  rw [h2]
  exact dueStop_mono hle hd

end WorsensTo

end Observation

/-! ## How safe the next state is at least -/

section Least

variable {θ : Thresholds} {current : State} {o : Observation}

theorem severity_nextState_pos (hc : current ≠ .INIT) : 1 ≤ (nextState θ current o).severity := by
  rcases hn : nextState θ current o
  case INIT => exact absurd (nextState_eq_INIT_iff.1 hn).1 hc
  all_goals decide

theorem two_le_severity_nextState (hc : current ≠ .INIT) (h : o.perceptionLost θ) :
    2 ≤ (nextState θ current o).severity := by
  rcases hn : nextState θ current o
  case INIT => exact absurd (nextState_eq_INIT_iff.1 hn).1 hc
  case ACTIVE => exact absurd h (nextState_eq_ACTIVE_iff.1 hn).2.2
  all_goals decide

theorem three_le_severity_nextState (hc : current ≠ .INIT) (h : o.cmdStale θ) :
    3 ≤ (nextState θ current o).severity := by
  rcases hn : nextState θ current o
  case INIT => exact absurd (nextState_eq_INIT_iff.1 hn).1 hc
  case ACTIVE => exact absurd h (nextState_eq_ACTIVE_iff.1 hn).2.1
  case DEGRADED => exact absurd h (nextState_eq_DEGRADED_iff.1 hn).2.1
  all_goals decide

end Least

/-! ## Monotonicity -/

section Monotone

variable {θ : Thresholds} {current : State} {o₁ o₂ : Observation}

/-- A stop stays a stop, unless it is postponed. -/
theorem nextState_stopped_of_worsensTo (h : o₁.WorsensTo o₂)
    (hn : nextState θ current o₁ = .STOPPED) (hp : current = .STOPPED ∨ ¬o₁.Postpones θ o₂) :
    nextState θ current o₂ = .STOPPED := by
  rw [nextState_eq_STOPPED_iff] at hn ⊢
  obtain hc | ⟨hc, ⟨hstale, hdue⟩ | ⟨hfresh, hlost, hdue⟩⟩ := hn
  · exact .inl hc
  · exact .inr ⟨hc, .inl ⟨h.cmdStale hstale, h.holdingDue hdue⟩⟩
  rcases hp with hc | hp
  · exact .inl hc
  refine .inr ⟨hc, ?_⟩
  by_cases hstale : o₂.cmdStale θ
  · refine .inl ⟨hstale, ?_⟩
    by_contra hnot
    exact hp ⟨hfresh, hlost, hdue, hstale, hnot⟩
  · exact .inr ⟨hstale, h.perceptionLost hlost, h.degradedDue hdue⟩

/-- Worse observations lead to a state at least as safe exactly when no due stop is postponed. -/
theorem severity_nextState_le_iff (h : o₁.WorsensTo o₂) (hc : current ≠ .INIT) :
    (nextState θ current o₁).severity ≤ (nextState θ current o₂).severity ↔
      current = .STOPPED ∨ ¬o₁.Postpones θ o₂ := by
  constructor
  · rintro hle
    by_contra hnot
    obtain ⟨hns, hp⟩ := not_or.1 hnot
    obtain ⟨hfresh, hlost, hdue, hstale, hnotDue⟩ := not_not.1 hp
    have h1 : nextState θ current o₁ = .STOPPED :=
      nextState_eq_STOPPED_iff.2 (.inr ⟨hc, .inr ⟨hfresh, hlost, hdue⟩⟩)
    have h2 : nextState θ current o₂ = .HOLDING :=
      nextState_eq_HOLDING_iff.2 ⟨hc, hns, hstale, hnotDue⟩
    rw [h1, h2] at hle
    exact absurd hle (by decide)
  · intro hp
    rcases hn : nextState θ current o₁
    case INIT => exact Nat.zero_le _
    case ACTIVE => exact severity_nextState_pos hc
    case HOLDING =>
      exact three_le_severity_nextState hc (h.cmdStale (nextState_eq_HOLDING_iff.1 hn).2.2.1)
    case DEGRADED =>
      exact two_le_severity_nextState hc (h.perceptionLost (nextState_eq_DEGRADED_iff.1 hn).2.2.1)
    case STOPPED => rw [nextState_stopped_of_worsensTo h hn hp]

/-- Another second in DEGRADED, now without any heartbeat. -/
theorem severity_nextState_le_iff_degraded :
    (nextState {} .DEGRADED ⟨some 0, some 0, some 3, some 2, none⟩).severity ≤
        (nextState {} .DEGRADED ⟨some 0, some 0, none, some 3, none⟩).severity ↔
      State.DEGRADED = .STOPPED ∨
        ¬Observation.Postpones {} ⟨some 0, some 0, some 3, some 2, none⟩
          ⟨some 0, some 0, none, some 3, none⟩ :=
  severity_nextState_le_iff
    { cmdAge := le_refl (0 : ℚ)
      perceptionAge := trivial
      holdingDuration := ⟨0, 0, rfl, rfl, le_rfl⟩
      degradedDuration := ⟨2, 3, rfl, rfl, by decide +kernel⟩
      vehicleSpeedKph := rfl } (by decide)

/-- After two seconds without perception the guard stops. With a stale command as well it begins
to hold. -/
theorem stale_command_postpones_stop :
    ∃ o₁ o₂ : Observation, o₁.WorsensTo o₂ ∧ nextState {} .DEGRADED o₁ = .STOPPED ∧
      nextState {} .DEGRADED o₂ = .HOLDING ∧
      ¬(nextState {} .DEGRADED o₁).severity ≤ (nextState {} .DEGRADED o₂).severity :=
  ⟨⟨some 0, some 0, some 3, some 2, none⟩, ⟨some 1, some 0, some 3, some 2, none⟩,
    { cmdAge := zero_le_one (α := ℚ)
      perceptionAge := le_refl (3 : ℚ)
      holdingDuration := ⟨0, 0, rfl, rfl, le_rfl⟩
      degradedDuration := ⟨2, 2, rfl, rfl, le_rfl⟩
      vehicleSpeedKph := rfl }, by decide +kernel, by decide +kernel, by decide +kernel⟩

end Monotone

end A1Bsw
