import A1Bsw.GuardLoop
import A1Bsw.Supervisor

/-!
# The guard as a supervisor

The loop keeps its state in an enumeration and two entry times that are set
side by side. Together they are the mode of a supervisor with two faults : a
stale command, on which it coasts in HOLDING, and lost perception, on which it
coasts in DEGRADED. Every run of the loop is a run of the supervisor, and every
run of the supervisor over some sightings is one of the loop over some inputs
(`guard_is_supervisor`).

So the states of a run are decided by what its cycles read. What a cycle sees
is decided by the last command, the last heartbeat and the last speed that were
read up to then (`Last`), and `states_from_reads` says when each state results.
-/

namespace A1Bsw

/-! ## Modes -/

/-- Why the guard falls back. -/
inductive Cause where
  | command
  | perception
  deriving DecidableEq

/-- The state in which the guard coasts on a cause. -/
def Cause.state : Cause → State
  | command => .HOLDING
  | perception => .DEGRADED

/-- How long the guard coasts on a cause. -/
def Thresholds.limit (θ : Thresholds) : Cause → ℚ
  | .command => θ.stoppedAfter
  | .perception => θ.perceptionLostStoppedAfter

/-- The three conditions of `next_state`. -/
structure View where
  cmdStale : Bool
  perceptionLost : Bool
  vehicleNearStop : Bool

/-- What the supervisor sees of them. A stale command hides the perception. -/
def View.sighting (v : View) : Sighting Cause where
  awake := !v.cmdStale
  fault := if v.cmdStale then some .command else if v.perceptionLost then some .perception else none
  atRest := v.vehicleNearStop

theorem View.awake_sighting (v : View) : v.sighting.awake ↔ ¬v.cmdStale := by
  simp [sighting]

theorem View.fault_sighting (v : View) (c : Cause) : v.sighting.fault = some c ↔
    match c with
    | .command => v.cmdStale
    | .perception => ¬v.cmdStale ∧ v.perceptionLost := by
  rcases v with ⟨_ | _, _ | _, _⟩ <;> cases c <;> simp [sighting]

/-- The conditions of an observation. -/
def Observation.view (θ : Thresholds) (o : Observation) : View :=
  ⟨o.cmdStale θ, o.perceptionLost θ, o.vehicleNearStop θ⟩

namespace Mode

/-- The state of a mode. -/
def state : Mode Cause ℚ → State
  | idle => .INIT
  | driving => .ACTIVE
  | coasting c _ => c.state
  | stopped => .STOPPED

/-- The entry time of a mode that coasts on the cause. -/
def enteredAt (c : Cause) : Mode Cause ℚ → Option ℚ
  | coasting c' since => if c' = c then some since else none
  | _ => none

theorem state_eq_stopped_iff {m : Mode Cause ℚ} : m.state = .STOPPED ↔ m = .stopped := by
  rcases m with _ | _ | ⟨_ | _, _⟩ | _ <;> simp [state, Cause.state]

theorem state_eq_idle_iff {m : Mode Cause ℚ} : m.state = .INIT ↔ m = .idle := by
  rcases m with _ | _ | ⟨_ | _, _⟩ | _ <;> simp [state, Cause.state]

/-- The entry time is set exactly in the state of the cause. -/
theorem state_eq_iff {m : Mode Cause ℚ} {c : Cause} :
    m.state = c.state ↔ (m.enteredAt c).isSome := by
  rcases m with _ | _ | ⟨_ | _, _⟩ | _ <;> cases c <;> simp [state, enteredAt, Cause.state]

end Mode

/-- The loop variables stand for a mode. -/
structure LoopState.Represents (s : LoopState) (m : Mode Cause ℚ) : Prop where
  state : s.state = m.state
  holding : s.holdingEnteredAt = m.enteredAt .command
  degraded : s.degradedEnteredAt = m.enteredAt .perception

/-- `next_state` is the step of the supervisor. -/
theorem nextState_eq_next {θ : Thresholds} {m : Mode Cause ℚ} {o : Observation} {now : ℚ}
    (hh : o.holdingDuration = some (now - m.sinceOf .command now))
    (hd : o.degradedDuration = some (now - m.sinceOf .perception now)) :
    nextState θ m.state o = (m.next θ.limit now (o.view θ).sighting).state := by
  unfold nextState
  rw [hh, hd]
  simp only [dueStop, Observation.view]
  generalize o.cmdStale θ = stale
  generalize o.perceptionLost θ = lost
  generalize o.vehicleNearStop θ = near
  rcases m with _ | _ | ⟨_ | _, t⟩ | _ <;> cases stale <;> cases lost <;>
    simp [Mode.state, Cause.state, Mode.next, View.sighting, Thresholds.limit, Mode.sinceOf] <;>
    split_ifs <;> rfl

/-- The entry time of a cause is an entry clock for its state. -/
theorem Mode.enteredAt_next (limit : Cause → ℚ) (m : Mode Cause ℚ) (now : ℚ) (v : Sighting Cause)
    (c : Cause) : (m.next limit now v).enteredAt c = entryClock (m.state = c.state)
      ((m.next limit now v).state = c.state) now (m.enteredAt c) := by
  simp only [entryClock, state_eq_iff]
  by_cases his : ((m.next limit now v).enteredAt c).isSome
  swap
  · rw [if_neg fun h => his h.1, if_pos his, Option.not_isSome_iff_eq_none.1 his]
  rcases hn : m.next limit now v with _ | _ | ⟨c', t⟩ | _ <;> rw [hn] at his
  case coasting =>
    obtain rfl : c' = c := by
      by_contra hne
      simp [enteredAt, hne] at his
    have hentered : ∀ t, (coasting c' t).enteredAt c' = some t := fun t => if_pos rfl
    rw [hentered]
    obtain ⟨-, ⟨rfl, -, rfl⟩ | ⟨-, ht, -⟩⟩ := next_eq_coasting hn
    · rfl
    rcases m with _ | _ | ⟨c, t'⟩ | _
    case coasting =>
      by_cases hc : c = c'
      · subst hc
        rw [sinceOf, if_pos rfl] at ht
        simp [hentered, ht]
      · rw [sinceOf, if_neg hc] at ht
        simp [enteredAt, hc, ht]
    all_goals simp [enteredAt, ht, sinceOf]
  all_goals cases his

/-- A transition of the loop is a step of the supervisor. -/
theorem LoopState.Represents.decide {a : Args} {s : LoopState} {m : Mode Cause ℚ}
    (h : s.Represents m) (now : ℚ) : (s.decide a now).Represents
      (m.next a.limit now ((s.observe now).view a.toThresholds).sighting) := by
  obtain ⟨hstate, hholding, hdegraded⟩ := h
  have hobs : (s.observe now).holdingDuration = some (now - m.sinceOf .command now) ∧
      (s.observe now).degradedDuration = some (now - m.sinceOf .perception now) := by
    simp only [observe, hholding, hdegraded]
    rcases m with _ | _ | ⟨_ | _, t⟩ | _ <;> simp [Mode.enteredAt, Mode.sinceOf]
  have hnext := nextState_eq_next (θ := a.toThresholds) hobs.1 hobs.2
  rw [← hstate] at hnext
  refine ⟨hnext, ?_, ?_⟩
  · rw [Mode.enteredAt_next, ← hholding, ← hstate, ← hnext]
    rfl
  · rw [Mode.enteredAt_next, ← hdegraded, ← hstate, ← hnext]
    rfl

namespace GuardRun

variable {a : Args} (ρ : GuardRun a)

/-- What the supervisor sees in a cycle. -/
def sighting (n : ℕ) : Sighting Cause :=
  ((ρ.observed n).view a.toThresholds).sighting

/-- The mode before a cycle. -/
def mode : ℕ → Mode Cause ℚ :=
  supervise a.limit ρ.now ρ.sighting

/-- The loop variables before a cycle stand for its mode. -/
theorem represents (n : ℕ) : (ρ.loop n).Represents (ρ.mode n) := by
  induction n with
  | zero =>
    rw [ρ.start]
    exact ⟨rfl, rfl, rfl⟩
  | succ n ih =>
    have hsensed : (ρ.sensed n).Represents (ρ.mode n) :=
      ⟨(LoopState.sense_state _ _).trans ih.state,
        (LoopState.sense_holdingEnteredAt _ _).trans ih.holding,
        (LoopState.sense_degradedEnteredAt _ _).trans ih.degraded⟩
    obtain ⟨hstate, hholding, hdegraded⟩ := hsensed.decide (ρ.now n)
    rw [ρ.loop_succ]
    exact ⟨hstate, hholding, hdegraded⟩

theorem state_eq_mode (n : ℕ) : ρ.state n = (ρ.mode n).state :=
  (ρ.represents n).state

section OfViews

variable (a) {now : ℕ → ℚ} (now_mono : Monotone now) (view : ℕ → View)

/-- A run whose reads are on the side of their limits that the views ask for. -/
def ofViews : GuardRun a :=
  .ofInputs a (fun n =>
    { now := now n
      cmdRead := .ok (some ({}, if (view n).cmdStale then a.watchdogT + 1 else a.watchdogT))
      hbAge := .ok (some (if (view n).perceptionLost then a.perceptionTimeout + 1
        else a.perceptionTimeout))
      rx := [⟨frameIdInfoAcc, [0, 0, if (view n).vehicleNearStop then 0 else 255]⟩] }) now_mono

theorem decodeVsKph_ofViews (near : Bool) :
    decodeVsKph [0, 0, if near then 0 else 255] = if near then 0 else 255 := by
  cases near <;> decide +kernel

/-- The cycles of the run have these views. -/
theorem view_ofViews (h0 : 0 ≤ a.stopSpeedKph) (h255 : a.stopSpeedKph < 255) (n : ℕ) :
    ((ofViews a now_mono view).observed n).view a.toThresholds = view n := by
  have hcmd : ((ofViews a now_mono view).observed n).cmdAge = some (now n - (now n -
      if (view n).cmdStale then a.watchdogT + 1 else a.watchdogT)) := rfl
  have hhb : ((ofViews a now_mono view).observed n).perceptionAge = some (now n - (now n -
      if (view n).perceptionLost then a.perceptionTimeout + 1 else a.perceptionTimeout)) := rfl
  have hvs : ((ofViews a now_mono view).observed n).vehicleSpeedKph =
      if now n - now n ≤ vsMaxAge then
        some (decodeVsKph [0, 0, if (view n).vehicleNearStop then 0 else 255])
      else none := rfl
  have hage : (0 : ℚ) ≤ vsMaxAge := by decide +kernel
  rw [sub_self, if_pos hage, decodeVsKph_ofViews] at hvs
  rcases hv : view n with ⟨stale, lost, near⟩
  rw [hv] at hcmd hhb hvs
  simp only [Observation.view, Observation.cmdStale, Observation.perceptionLost,
    Observation.vehicleNearStop, hcmd, hhb, hvs, staleAge, nearStop, sub_sub_cancel]
  cases stale <;> cases lost <;> cases near <;> simp [h0, h255]

end OfViews

end GuardRun

/-- Every run of the loop is a run of the supervisor over what its cycles see, and every run of
the supervisor over some views is one of the loop. -/
theorem guard_is_supervisor {a : Args} (h0 : 0 ≤ a.stopSpeedKph) (h255 : a.stopSpeedKph < 255) :
    (∀ ρ : GuardRun a, ∀ n,
      (ρ.loop n).Represents (supervise a.limit ρ.now ρ.sighting n)) ∧
    ∀ now : ℕ → ℚ, Monotone now → ∀ view : ℕ → View, ∃ ρ : GuardRun a, ρ.now = now ∧ ∀ n,
      (ρ.loop n).Represents (supervise a.limit now (fun k => (view k).sighting) n) := by
  refine ⟨fun ρ n => ρ.represents n, fun now now_mono view =>
    ⟨.ofViews a now_mono view, rfl, fun n => ?_⟩⟩
  have hsight : (GuardRun.ofViews a now_mono view).sighting = fun k => (view k).sighting := by
    ext k
    rw [GuardRun.sighting, GuardRun.view_ofViews a now_mono view h0 h255]
  have hrep := (GuardRun.ofViews a now_mono view).represents n
  rw [GuardRun.mode, hsight] at hrep
  exact hrep

theorem guard_is_supervisor_default :
    (∀ ρ : GuardRun {}, ∀ n,
      (ρ.loop n).Represents (supervise ({} : Args).limit ρ.now ρ.sighting n)) ∧
    ∀ now : ℕ → ℚ, Monotone now → ∀ view : ℕ → View, ∃ ρ : GuardRun {}, ρ.now = now ∧ ∀ n,
      (ρ.loop n).Represents (supervise ({} : Args).limit now (fun k => (view k).sighting) n) :=
  guard_is_supervisor (by decide +kernel) (by decide +kernel)

/-! ## What the cycles read -/

namespace GuardRun

variable {a : Args} (ρ : GuardRun a)

/-- The command a cycle reads, with its time. -/
def newCommand (n : ℕ) : Option (Command × ℚ) :=
  match (ρ.input n).cmdRead with
  | .ok (some (cmd, cmdAge)) => some (cmd, ρ.now n - cmdAge)
  | _ => none

/-- The time of the heartbeat a cycle reads. -/
def newBeat (n : ℕ) : Option ℚ :=
  match (ρ.input n).hbAge with
  | .ok (some hbAge) => some (ρ.now n - hbAge)
  | _ => none

/-- The last speed among the frames a cycle takes, with the time of the cycle. -/
def newSpeed (n : ℕ) : Option (ℚ × ℚ) :=
  (((ρ.input n).rx.take vsDrainMaxPerCycle).filter
    (·.arbitrationId = frameIdInfoAcc)).getLast?.map fun msg => (decodeVsKph msg.data, ρ.now n)

theorem command_eq_lastOf (n : ℕ) :
    (ρ.sensed n).lastCmdMono.map (Prod.mk (ρ.sensed n).lastValidCmd) = lastOf ρ.newCommand n := by
  have hstep : ∀ k, (ρ.sensed k).lastCmdMono.map (Prod.mk (ρ.sensed k).lastValidCmd) =
      (ρ.newCommand k).or
        ((ρ.loop k).lastCmdMono.map (Prod.mk (ρ.loop k).lastValidCmd)) := by
    intro k
    obtain ⟨cmd, cmdAge, hr, hc, hm⟩ | ⟨hr, hc, hm⟩ := (ρ.loop k).sense_command (ρ.input k)
    · rw [sensed, hc, hm, newCommand, hr]
      rfl
    · have hnone : ρ.newCommand k = none := by
        unfold newCommand
        split
        · exact absurd ‹_› (hr _)
        · rfl
      rw [sensed, hc, hm, hnone, Option.none_or]
  induction n with
  | zero => rw [hstep, ρ.start, lastOf]; exact Option.or_none
  | succ n ih => rw [hstep, lastOf, ← ih, ρ.loop_succ]; rfl

theorem heartbeat_eq_lastOf (n : ℕ) : (ρ.sensed n).lastHbMono = lastOf ρ.newBeat n := by
  have hstep : ∀ k, (ρ.sensed k).lastHbMono = (ρ.newBeat k).or (ρ.loop k).lastHbMono := by
    intro k
    obtain ⟨hbAge, hr, hm⟩ | ⟨hr, hm⟩ := (ρ.loop k).sense_heartbeat (ρ.input k)
    · rw [sensed, hm, newBeat, hr]
      rfl
    · have hnone : ρ.newBeat k = none := by
        unfold newBeat
        split
        · exact absurd ‹_› (hr _)
        · rfl
      rw [sensed, hm, hnone, Option.none_or]
  induction n with
  | zero => rw [hstep, ρ.start, lastOf]; exact Option.or_none
  | succ n ih => rw [hstep, lastOf, ← ih, ρ.loop_succ]; rfl

theorem speed_eq_lastOf (n : ℕ) : (ρ.sensed n).lastVsKph = (lastOf ρ.newSpeed n).map Prod.fst ∧
    (ρ.sensed n).lastVsMono = (lastOf ρ.newSpeed n).map Prod.snd := by
  have hstep : ∀ k, (∃ v, ρ.newSpeed k = some (v, ρ.now k) ∧ (ρ.sensed k).lastVsKph = some v ∧
      (ρ.sensed k).lastVsMono = some (ρ.now k)) ∨
      ρ.newSpeed k = none ∧ (ρ.sensed k).lastVsKph = (ρ.loop k).lastVsKph ∧
        (ρ.sensed k).lastVsMono = (ρ.loop k).lastVsMono := by
    intro k
    obtain ⟨before, msg, after, hrx, hid, hafter, hkph, hmono⟩ | ⟨hother, hkph, hmono⟩ :=
      (ρ.loop k).sense_speed (ρ.input k)
    · refine .inl ⟨decodeVsKph msg.data, ?_, hkph, hmono⟩
      have hnil : after.filter (·.arbitrationId = frameIdInfoAcc) = [] := by
        simpa [List.filter_eq_nil_iff] using hafter
      simp [newSpeed, hrx, hid, hnil]
    · refine .inr ⟨?_, hkph, hmono⟩
      have hnil : ((ρ.input k).rx.take vsDrainMaxPerCycle).filter
          (·.arbitrationId = frameIdInfoAcc) = [] := by
        simpa [List.filter_eq_nil_iff] using hother
      simp [newSpeed, hnil]
  induction n with
  | zero =>
    obtain ⟨v, hnew, hkph, hmono⟩ | ⟨hnew, hkph, hmono⟩ := hstep 0
    · simp [lastOf, hnew, hkph, hmono]
    · rw [hkph, hmono, lastOf, hnew, ρ.start]
      exact ⟨rfl, rfl⟩
  | succ n ih =>
    obtain ⟨v, hnew, hkph, hmono⟩ | ⟨hnew, hkph, hmono⟩ := hstep (n + 1)
    · simp [lastOf, hnew, hkph, hmono]
    · rw [hkph, hmono, lastOf, hnew, Option.none_or, ρ.loop_succ]
      exact ih

/-! ### What a cycle knows -/

/-- The last command that was read is fresh. -/
def Trusts (n : ℕ) : Prop :=
  ∃ cmd mono, Last ρ.newCommand n (cmd, mono) ∧ ρ.now n - mono ≤ a.watchdogT

/-- The last heartbeat that was read is recent. -/
def Perceives (n : ℕ) : Prop :=
  ∃ mono, Last ρ.newBeat n mono ∧ ρ.now n - mono ≤ a.perceptionTimeout

/-- The last speed that was read is recent and under the stop speed. -/
def NearStop (n : ℕ) : Prop :=
  ∃ kph mono, Last ρ.newSpeed n (kph, mono) ∧ ρ.now n - mono ≤ vsMaxAge ∧ kph ≤ a.stopSpeedKph

/-- The cause fails. Without a trusted command perception does not matter. -/
def Fails : Cause → ℕ → Prop
  | .command, n => ¬ρ.Trusts n
  | .perception, n => ρ.Trusts n ∧ ¬ρ.Perceives n

theorem cmdStale_iff (n : ℕ) : (ρ.observed n).cmdStale a.toThresholds ↔ ¬ρ.Trusts n := by
  have hlast := ρ.command_eq_lastOf n
  simp only [Trusts, ← lastOf_eq_some_iff, ← hlast, Observation.cmdStale, observed,
    LoopState.observe]
  rcases (ρ.sensed n).lastCmdMono with _ | mono <;> simp [staleAge, -tsub_le_iff_right]

theorem perceptionLost_iff (n : ℕ) :
    (ρ.observed n).perceptionLost a.toThresholds ↔ ¬ρ.Perceives n := by
  have hlast := ρ.heartbeat_eq_lastOf n
  simp only [Perceives, ← lastOf_eq_some_iff, ← hlast, Observation.perceptionLost, observed,
    LoopState.observe]
  rcases (ρ.sensed n).lastHbMono with _ | mono <;> simp [staleAge, -tsub_le_iff_right]

theorem vehicleNearStop_iff (n : ℕ) :
    (ρ.observed n).vehicleNearStop a.toThresholds ↔ ρ.NearStop n := by
  obtain ⟨hkph, hmono⟩ := ρ.speed_eq_lastOf n
  simp only [NearStop, ← lastOf_eq_some_iff, Observation.vehicleNearStop, observed,
    LoopState.observe, LoopState.vehicleSpeedKph, hkph, hmono]
  rcases lastOf ρ.newSpeed n with _ | ⟨kph, mono⟩
  · simp [nearStop]
  · by_cases hage : ρ.now n - mono ≤ vsMaxAge <;> simp [nearStop, hage, -tsub_le_iff_right]

theorem awake_iff {n : ℕ} : (ρ.sighting n).awake ↔ ρ.Trusts n := by
  rw [sighting, View.awake_sighting]
  exact (not_congr (ρ.cmdStale_iff n)).trans not_not

theorem fault_iff {n : ℕ} {c : Cause} : (ρ.sighting n).fault = some c ↔ ρ.Fails c n := by
  rw [sighting, View.fault_sighting]
  cases c
  · exact ρ.cmdStale_iff n
  · exact and_congr ((not_congr (ρ.cmdStale_iff n)).trans not_not) (ρ.perceptionLost_iff n)

theorem faultSince_iff {c : Cause} {d n : ℕ} : FaultSince ρ.sighting c d n ↔
    d ≤ n ∧ (∃ j ≤ d, ρ.Trusts j) ∧ ∀ k, d ≤ k → k ≤ n → ρ.Fails c k := by
  simp only [← awake_iff, ← fault_iff]
  exact ⟨fun h => ⟨h.le, h.awake, h.fault⟩, fun ⟨h1, h2, h3⟩ => ⟨h1, h2, h3⟩⟩

/-! ### The states -/

/-- What the last cycle knew, by the state it led to. -/
theorem known_of_state (n : ℕ) :
    match ρ.state (n + 1) with
    | .INIT | .HOLDING => ¬ρ.Trusts n
    | .ACTIVE => ρ.Trusts n ∧ ρ.Perceives n
    | .DEGRADED => ρ.Trusts n ∧ ¬ρ.Perceives n
    | .STOPPED => True := by
  have htrust : ¬(ρ.observed n).cmdStale a.toThresholds ↔ ρ.Trusts n :=
    (not_congr (ρ.cmdStale_iff n)).trans not_not
  have hperceive : ¬(ρ.observed n).perceptionLost a.toThresholds ↔ ρ.Perceives n :=
    (not_congr (ρ.perceptionLost_iff n)).trans not_not
  rcases hs : ρ.state (n + 1) with _ | _ | _ | _ | _ <;> rw [ρ.state_succ] at hs
  · rw [nextState_eq_INIT_iff] at hs
    exact (ρ.cmdStale_iff n).1 hs.2
  · rw [nextState_eq_ACTIVE_iff] at hs
    exact ⟨htrust.1 hs.2.1, hperceive.1 hs.2.2⟩
  · rw [nextState_eq_HOLDING_iff] at hs
    exact (ρ.cmdStale_iff n).1 hs.2.2.1
  · rw [nextState_eq_DEGRADED_iff] at hs
    exact ⟨htrust.1 hs.2.1, (ρ.perceptionLost_iff n).1 hs.2.2.1⟩
  · trivial

/-- The state before cycle `n` follows from what the earlier cycles read. -/
structure DecidedByReads (n : ℕ) : Prop where
  /-- The guard waits until it first trusts a command. -/
  init : ρ.state n = .INIT ↔ ∀ k < n, ¬ρ.Trusts k
  /-- It is stopped once a cause failed near a stop, or failed without interruption for its
  limit, after the guard first trusted a command. -/
  stopped : ρ.state n = .STOPPED ↔ ∃ m < n, ∃ c, ρ.Fails c m ∧
    ((∃ j < m, ρ.Trusts j) ∧ ρ.NearStop m ∨
      ∃ d ≤ m, (∃ j ≤ d, ρ.Trusts j) ∧ (∀ k, d ≤ k → k ≤ m → ρ.Fails c k) ∧
        a.limit c ≤ ρ.now m - ρ.now d)
  /-- Otherwise the last cycle alone decides. -/
  active : ∀ m, n = m + 1 → (ρ.state n = .ACTIVE ↔
    ρ.state n ≠ .STOPPED ∧ ρ.Trusts m ∧ ρ.Perceives m)
  fallback : ∀ m, n = m + 1 → ∀ c : Cause, (ρ.state n = c.state ↔
    ρ.state n ≠ .STOPPED ∧ ρ.state n ≠ .INIT ∧ ρ.Fails c m)

end GuardRun

/-- With positive limits the reads decide the states. -/
theorem states_from_reads {a : Args} (hS : 0 < a.stoppedAfter)
    (hP : 0 < a.perceptionLostStoppedAfter) (ρ : GuardRun a) (n : ℕ) : ρ.DecidedByReads n where
  init := by
    rw [ρ.state_eq_mode, Mode.state_eq_idle_iff, GuardRun.mode, supervise_eq_idle_iff]
    simp only [ρ.awake_iff]
  stopped := by
    have hpos : ∀ c, 0 < a.limit c := by
      intro c
      cases c
      · exact hS
      · exact hP
    have hstop : supervise a.limit ρ.now ρ.sighting n = .stopped ↔ _ :=
      supervise_eq_stopped_iff hpos ρ.now_mono
    rw [ρ.state_eq_mode, Mode.state_eq_stopped_iff, GuardRun.mode, hstop]
    simp only [ρ.fault_iff, ρ.awake_iff, ρ.faultSince_iff, and_assoc]
    have hrest : ∀ m, (ρ.sighting m).atRest ↔ ρ.NearStop m := ρ.vehicleNearStop_iff
    simp only [hrest]
    rfl
  active m hm := by
    subst hm
    have hknown := ρ.known_of_state m
    rcases hs : ρ.state (m + 1) with _ | _ | _ | _ | _ <;> simp_all
  fallback m hm c := by
    subst hm
    have hknown := ρ.known_of_state m
    rcases hs : ρ.state (m + 1) with _ | _ | _ | _ | _ <;> cases c <;>
      simp_all [Cause.state, GuardRun.Fails]

/-- Perception comes and goes every other cycle. -/
theorem states_from_reads_flicker : (GuardRun.ofViews {} GuardRun.monotone_tick fun n =>
    ⟨false, n % 2 = 0, false⟩).DecidedByReads 7 :=
  states_from_reads (by decide +kernel) (by decide +kernel) _ 7

end A1Bsw
