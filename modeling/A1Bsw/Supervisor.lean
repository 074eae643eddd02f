import Mathlib.Algebra.Order.Group.Defs
import Mathlib.Algebra.Order.Sub.Basic
import Mathlib.Order.Monotone.Basic
import Mathlib.Tactic.Cases

/-!
# A supervisor with timed fallbacks

A supervisor watches something that can fail in several ways. It is idle until
it first sees the thing awake, drives while there is no fault, coasts on a
fault, and stops for good once a fault has lasted its limit or is seen at
rest. A mode carries the time it was entered where it needs one, so a
supervisor that coasts on two faults, or that coasts on none and still has a
clock, cannot be built.

`supervise` is the supervisor over a sequence of sightings. It is stopped
exactly when, after the first awake sighting, some fault was seen at rest or
without interruption for its limit (`supervise_eq_stopped_iff`).
-/

set_option linter.unusedSectionVars false

namespace A1Bsw

variable {κ T : Type*}

/-- What a supervisor does, with the fault it coasts on and the time since when. -/
inductive Mode (κ T : Type*) where
  | idle
  | driving
  | coasting (fault : κ) (since : T)
  | stopped
  deriving DecidableEq

/-- What a supervisor sees in one step. -/
structure Sighting (κ : Type*) where
  awake : Bool
  fault : Option κ
  atRest : Bool
  deriving DecidableEq

variable [DecidableEq κ]

namespace Mode

/-- The time since which the mode coasts on a fault, the present one if it does not. -/
def sinceOf (m : Mode κ T) (c : κ) (now : T) : T :=
  match m with
  | coasting c' since => if c' = c then since else now
  | _ => now

theorem sinceOf_cases (m : Mode κ T) (c : κ) (now : T) :
    m.sinceOf c now = now ∨ m = coasting c (m.sinceOf c now) := by
  cases m with
  | coasting c' since =>
    by_cases h : c' = c
    · exact .inr (by simp [sinceOf, h])
    · exact .inl (by simp [sinceOf, h])
  | _ => exact .inl rfl

variable [Sub T] [LE T] [DecidableLE T]

/-- One step of the supervisor. -/
def next (limit : κ → T) (m : Mode κ T) (now : T) (v : Sighting κ) : Mode κ T :=
  match m with
  | stopped => stopped
  | idle => if v.awake then v.fault.elim driving (coasting · now) else idle
  | driving | coasting _ _ =>
    v.fault.elim driving fun c =>
      if limit c ≤ now - m.sinceOf c now ∨ v.atRest then stopped
      else coasting c (m.sinceOf c now)

variable {limit : κ → T} {m : Mode κ T} {now : T} {v : Sighting κ}

theorem next_eq_idle_iff : m.next limit now v = idle ↔ m = idle ∧ ¬v.awake := by
  cases m with
  | idle => cases ha : v.awake <;> cases hf : v.fault <;> simp [next, ha, hf]
  | stopped => simp [next]
  | driving | coasting _ _ =>
    cases hf : v.fault with
    | none => simp [next, hf]
    | some c =>
      simp only [next, hf, Option.elim]
      split_ifs <;> simp

/-- A supervisor that is neither idle nor stopped drives without a fault. -/
theorem next_of_no_fault (hidle : m ≠ idle) (hstop : m ≠ stopped) (hf : v.fault = none) :
    m.next limit now v = driving := by
  cases m <;> simp_all [next]

/-- With a fault it coasts on it, or stops. -/
theorem next_of_fault (hidle : m ≠ idle) (hstop : m ≠ stopped) {c : κ} (hf : v.fault = some c) :
    m.next limit now v =
      if limit c ≤ now - m.sinceOf c now ∨ v.atRest then stopped
      else coasting c (m.sinceOf c now) := by
  cases m <;> simp_all [next]

theorem next_of_awake (ha : v.awake) :
    (idle : Mode κ T).next limit now v = v.fault.elim driving (coasting · now) :=
  if_pos ha

/-- A mode that coasts after a step has just woken up or has not reached the limit. -/
theorem next_eq_coasting {c : κ} {t : T} (h : m.next limit now v = coasting c t) :
    v.fault = some c ∧ (m = idle ∧ v.awake ∧ t = now ∨
      m ≠ idle ∧ t = m.sinceOf c now ∧ ¬limit c ≤ now - t) := by
  by_cases hidle : m = idle
  · subst hidle
    cases ha : v.awake <;> cases hf : v.fault <;> simp [next, ha, hf] at h
    exact ⟨congrArg some h.1, .inl ⟨rfl, rfl, h.2.symm⟩⟩
  by_cases hstop : m = stopped
  · simp [next, hstop] at h
  cases hf : v.fault with
  | none => simp [next_of_no_fault hidle hstop hf] at h
  | some c' =>
    rw [next_of_fault hidle hstop hf] at h
    split_ifs at h with hdue
    cases h
    exact ⟨rfl, .inr ⟨hidle, rfl, fun hle => hdue (.inl hle)⟩⟩

end Mode

/-- The supervisor over a sequence of sightings. -/
def supervise [Sub T] [LE T] [DecidableLE T] (limit : κ → T) (now : ℕ → T)
    (sight : ℕ → Sighting κ) : ℕ → Mode κ T
  | 0 => .idle
  | n + 1 => (supervise limit now sight n).next limit (now n) (sight n)

section Runs

variable [AddCommGroup T] [LinearOrder T] [IsOrderedAddMonoid T] {limit : κ → T} {now : ℕ → T}
  {sight : ℕ → Sighting κ}

/-- The supervisor is idle until the first awake sighting. -/
theorem supervise_eq_idle_iff {n : ℕ} :
    supervise limit now sight n = .idle ↔ ∀ k < n, ¬(sight k).awake := by
  induction n with
  | zero => simp [supervise]
  | succ n ih => rw [supervise, Mode.next_eq_idle_iff, ih, Nat.forall_lt_succ_right]

theorem supervise_stopped_of_le {m n : ℕ} (hmn : m ≤ n)
    (h : supervise limit now sight m = .stopped) : supervise limit now sight n = .stopped := by
  induction n, hmn using Nat.le_induction with
  | base => exact h
  | succ n _ ih => rw [supervise, ih, Mode.next]

variable (sight) in
/-- The fault `c` was seen in every step from `d` to `n`, and something was awake by `d`. -/
structure FaultSince (c : κ) (d n : ℕ) : Prop where
  le : d ≤ n
  awake : ∃ j ≤ d, (sight j).awake
  fault : ∀ k, d ≤ k → k ≤ n → (sight k).fault = some c

theorem FaultSince.single {c : κ} {n : ℕ} (ha : ∃ j ≤ n, (sight j).awake)
    (hf : (sight n).fault = some c) : FaultSince sight c n n where
  le := le_rfl
  awake := ha
  fault k h1 h2 := by rwa [le_antisymm h2 h1]

theorem FaultSince.extend {c : κ} {d n : ℕ} (h : FaultSince sight c d n)
    (hf : (sight (n + 1)).fault = some c) : FaultSince sight c d (n + 1) where
  le := h.le.trans n.le_succ
  awake := h.awake
  fault k h1 h2 := by
    rcases Nat.le_succ_iff.1 h2 with h2 | rfl
    · exact h.fault k h1 h2
    · exact hf

/-- A supervisor that is not idle has seen something awake. -/
theorem exists_awake {n : ℕ} (h : supervise limit now sight n ≠ .idle) :
    ∃ j < n, (sight j).awake := by
  by_contra hnone
  exact h (supervise_eq_idle_iff.2 fun k hk ha => hnone ⟨k, hk, ha⟩)

/-- The time a supervisor measures a fault from is that of a step since which it was seen. -/
theorem exists_faultSince {n : ℕ} {c : κ} (hne : supervise limit now sight n ≠ .idle)
    (hf : (sight n).fault = some c) :
    ∃ d, FaultSince sight c d n ∧ (supervise limit now sight n).sinceOf c (now n) = now d := by
  induction n with
  | zero => exact absurd rfl hne
  | succ n ih =>
    obtain ⟨j, hj, ha⟩ := exists_awake hne
    rcases Mode.sinceOf_cases (supervise limit now sight (n + 1)) c (now (n + 1)) with heq | hm
    · exact ⟨n + 1, .single ⟨j, hj.le, ha⟩ hf, heq⟩
    -- The mode already coasts on the fault, from the last step or from before it.
    obtain ⟨hf', ⟨-, ha', ht⟩ | ⟨hne', ht, -⟩⟩ := Mode.next_eq_coasting hm
    · exact ⟨n, (FaultSince.single ⟨n, le_rfl, ha'⟩ hf').extend hf, ht⟩
    · obtain ⟨d, hd, heq⟩ := ih hne' hf'
      exact ⟨d, hd.extend hf, ht.trans heq⟩

/-- A fault that does not stop a supervisor is coasted on. -/
theorem supervise_succ_of_fault {n : ℕ} {c : κ} (hne : supervise limit now sight n ≠ .idle)
    (hf : (sight n).fault = some c) (hrun : supervise limit now sight (n + 1) ≠ .stopped) :
    supervise limit now sight (n + 1) =
      .coasting c ((supervise limit now sight n).sinceOf c (now n)) := by
  have hrun' : supervise limit now sight n ≠ .stopped :=
    fun h => hrun (supervise_stopped_of_le n.le_succ h)
  have hnext : supervise limit now sight (n + 1) = _ := Mode.next_of_fault hne hrun' hf
  rw [hnext] at hrun ⊢
  exact if_neg fun hdue => hrun (if_pos hdue)

/-- While a fault lasts, a supervisor that has not stopped coasts on it since it was first seen,
or since longer. -/
theorem FaultSince.coasting (hnow : Monotone now) {c : κ} {d n : ℕ} (h : FaultSince sight c d n)
    (hrun : supervise limit now sight (n + 1) ≠ .stopped) :
    ∃ t ≤ now d, supervise limit now sight (n + 1) = .coasting c t := by
  obtain ⟨hle, ⟨j, hj, ha⟩, hfault⟩ := h
  induction n, hle using Nat.le_induction with
  | base =>
    have hf := hfault d le_rfl le_rfl
    by_cases hidle : supervise limit now sight d = .idle
    · rcases hj.eq_or_lt with rfl | hlt
      · exact ⟨now j, le_rfl, by rw [supervise, hidle, Mode.next_of_awake ha, hf]; rfl⟩
      · exact absurd ha (supervise_eq_idle_iff.1 hidle j hlt)
    · obtain ⟨e, he, heq⟩ := exists_faultSince hidle hf
      exact ⟨_, heq.trans_le (hnow he.le), supervise_succ_of_fault hidle hf hrun⟩
  | succ n hle ih =>
    obtain ⟨t, ht, hm⟩ := ih (fun h => hrun (supervise_stopped_of_le n.succ.le_succ h))
      fun k h1 h2 => hfault k h1 (h2.trans n.le_succ)
    have hne : supervise limit now sight (n + 1) ≠ .idle := by simp [hm]
    rw [supervise_succ_of_fault hne (hfault (n + 1) (hle.trans n.le_succ) le_rfl) hrun, hm,
      Mode.sinceOf, if_pos rfl]
    exact ⟨t, ht, rfl⟩

/-- A supervisor is stopped exactly when, after it was awake, a fault was seen at rest, or
without interruption for its limit. -/
theorem supervise_eq_stopped_iff (hpos : ∀ c, 0 < limit c) (hnow : Monotone now) {n : ℕ} :
    supervise limit now sight n = .stopped ↔ ∃ m < n, ∃ c, (sight m).fault = some c ∧
      ((∃ j < m, (sight j).awake) ∧ (sight m).atRest ∨
        ∃ d, FaultSince sight c d m ∧ limit c ≤ now m - now d) := by
  constructor
  · intro h
    induction n with
    | zero => cases h
    | succ n ih =>
      by_cases hstop : supervise limit now sight n = .stopped
      · obtain ⟨m, hm, hrest⟩ := ih hstop
        exact ⟨m, hm.trans n.lt_succ_self, hrest⟩
      have hne : supervise limit now sight n ≠ .idle := by
        intro hidle
        rw [supervise, hidle] at h
        cases ha : (sight n).awake <;> cases hf : (sight n).fault <;> simp [Mode.next, ha, hf] at h
      rcases hf : (sight n).fault with _ | c
      · rw [supervise, Mode.next_of_no_fault hne hstop hf] at h
        cases h
      rw [supervise, Mode.next_of_fault hne hstop hf] at h
      refine ⟨n, n.lt_succ_self, c, hf, ?_⟩
      split_ifs at h with hdue
      rcases hdue with hle | hrest
      · obtain ⟨d, hd, heq⟩ := exists_faultSince hne hf
        exact .inr ⟨d, hd, heq ▸ hle⟩
      · exact .inl ⟨exists_awake hne, hrest⟩
  · rintro ⟨m, hmn, c, hf, hcase⟩
    refine supervise_stopped_of_le hmn ?_
    by_contra hrun
    rcases hcase with ⟨⟨j, hj, ha⟩, hrest⟩ | ⟨d, hd, hle⟩
    · have hne : supervise limit now sight m ≠ .idle :=
        fun hidle => supervise_eq_idle_iff.1 hidle j hj ha
      have hstop : supervise limit now sight m ≠ .stopped :=
        fun h => hrun (supervise_stopped_of_le m.le_succ h)
      exact hrun ((Mode.next_of_fault hne hstop hf).trans (if_pos (.inr hrest)))
    · obtain ⟨t, ht, hm⟩ := hd.coasting hnow hrun
      obtain ⟨-, ⟨-, -, rfl⟩ | ⟨-, -, hlt⟩⟩ := Mode.next_eq_coasting hm
      · exact (hpos c).not_ge (hle.trans (sub_nonpos.2 ht))
      · exact hlt (hle.trans (sub_le_sub_left ht _))

end Runs

end A1Bsw
