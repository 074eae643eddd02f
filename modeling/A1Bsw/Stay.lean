import Mathlib.Data.ENat.Basic
import Mathlib.Algebra.Group.Basic
import Mathlib.Order.Monotone.Basic

/-!
# Uninterrupted stays and entry clocks

A run visits a state before and after every cycle : cycle `n` leads from the
`n`-th state to the next one. `Since q c n` says that cycle `c` entered the
condition `q` and that it held after every cycle from `c` to `n`, so `c` is
the first cycle of the uninterrupted stay in `q` that cycle `n` belongs to.
A condition that never comes back holds exactly before some cycle, or for
ever (`exists_cut`). One that is only established or carried over was
established at some cycle (`exists_origin`). A value that is kept until the
next one comes is the last that came (`lastOf_eq_some_iff`).

`entryClock` is the update of an entry timestamp : set on entry, cleared
outside, kept otherwise. Over a run it holds the time of the first cycle of
the current stay, and nothing outside one (`EntryClock.eq_some`,
`EntryClock.eq_none`).
-/

namespace A1Bsw

variable {T : Type*}

/-! ## Stays -/

/-- Cycle `c` entered `q`, and `q` held after each cycle from `c` to `n`. -/
structure Since (q : ℕ → Prop) (c n : ℕ) : Prop where
  le : c ≤ n
  before : ¬q c
  during : ∀ k, c ≤ k → k ≤ n → q (k + 1)

namespace Since

variable {q : ℕ → Prop} {c n : ℕ}

theorem single (h : ¬q n) (h' : q (n + 1)) : Since q n n where
  le := le_rfl
  before := h
  during _ h1 h2 := le_antisymm h1 h2 ▸ h'

theorem extend (h : Since q c n) (h' : q (n + 1 + 1)) : Since q c (n + 1) where
  le := h.le.trans n.le_succ
  before := h.before
  during k h1 h2 := by
    rcases Nat.le_succ_iff.1 h2 with h2 | rfl
    · exact h.during k h1 h2
    · exact h'

/-- A condition that fails at the start and holds after cycle `n` was entered. -/
theorem exists_of_holds (h0 : ¬q 0) : ∀ {n : ℕ}, q (n + 1) → ∃ c, Since q c n
  | 0, h => ⟨0, .single h0 h⟩
  | n + 1, h => by
    by_cases hn : q (n + 1)
    · obtain ⟨c, hc⟩ := exists_of_holds h0 hn
      exact ⟨c, hc.extend h⟩
    · exact ⟨n + 1, .single hn h⟩

/-- The stay reaches back at least as far as any stretch on which `q` holds. -/
theorem le_of_during (h : Since q c n) {j : ℕ}
    (hj : ∀ k, j ≤ k → k ≤ n → q (k + 1)) : c ≤ j := by
  by_contra hlt
  obtain ⟨d, rfl⟩ := Nat.exists_eq_add_of_lt (not_le.1 hlt)
  exact h.before (hj (j + d) (Nat.le_add_right _ _) ((Nat.le_succ _).trans h.le))

/-- The part of a stay up to an earlier cycle. -/
theorem restrict (h : Since q c n) {m : ℕ} (hcm : c ≤ m) (hmn : m ≤ n) : Since q c m where
  le := hcm
  before := h.before
  during k h1 h2 := h.during k h1 (h2.trans hmn)

/-- A condition that can only persist while its stay is shorter than a limit. -/
theorem elapsed_lt [AddGroup T] [LT T] {now : ℕ → T} {limit : T} (hpos : 0 < limit)
    (hstep : ∀ {c m}, Since q c m → q (m + 1 + 1) → now (m + 1) - now c < limit)
    (h : Since q c n) : now n - now c < limit := by
  rcases h.le.eq_or_lt with rfl | hlt
  · rwa [sub_self]
  obtain ⟨m, rfl⟩ := Nat.exists_eq_succ_of_ne_zero (Nat.ne_zero_of_lt hlt)
  exact hstep (h.restrict (Nat.lt_succ_iff.1 hlt) m.le_succ) (h.during _ h.le le_rfl)

/-- The part of a stay in `p` before the last entry into `q`, when every entry into `q` inside
a stay in `p` comes within a limit. -/
theorem elapsed_before [AddGroup T] [LE T] {p : ℕ → Prop} {now : ℕ → T} {limit : T}
    (hqp : ∀ {k}, q k → p k) (hpos : 0 ≤ limit)
    (hentry : ∀ {m}, Since p c m → ¬q (m + 1) → q (m + 1 + 1) → now (m + 1) - now c ≤ limit)
    {d : ℕ} (hc : Since p c n) (hd : Since q d n) : now d - now c ≤ limit := by
  have hcd : c ≤ d := hc.le_of_during fun k h1 h2 => hqp (hd.during k h1 h2)
  rcases hcd.eq_or_lt with rfl | hlt
  · rwa [sub_self]
  obtain ⟨m, rfl⟩ := Nat.exists_eq_succ_of_ne_zero (Nat.ne_zero_of_lt hlt)
  exact hentry (hc.restrict (Nat.lt_succ_iff.1 hlt) (m.le_succ.trans hd.le)) hd.before
    (hd.during _ le_rfl hd.le)

end Since

/-! ## Initial stretches -/

/-- A condition that never comes back holds on an initial stretch. -/
theorem exists_cut {p : ℕ → Prop} (h : ∀ n, p (n + 1) → p n) :
    ∃ i : ℕ∞, ∀ n : ℕ, p n ↔ (n : ℕ∞) < i := by
  classical
  by_cases hp : ∃ n, ¬p n
  · refine ⟨(Nat.find hp : ℕ), fun n => ?_⟩
    rw [ENat.natCast_lt_natCast]
    constructor
    · intro hn
      by_contra hle
      exact Nat.find_spec hp (Nat.decreasingInduction (fun k _ => h k) hn (not_lt.1 hle))
    · intro hn
      exact not_not.1 (Nat.find_min hp hn)
  · refine ⟨⊤, fun n => ?_⟩
    simp [not_not.1 (not_exists.1 hp n)]

/-- A condition that each cycle establishes or carries over was established at some cycle. -/
theorem exists_origin {p origin : ℕ → Prop} (h0 : p 0 → origin 0)
    (hstep : ∀ n, p (n + 1) → origin (n + 1) ∨ p n) {n : ℕ} (h : p n) : ∃ m ≤ n, origin m := by
  induction n with
  | zero => exact ⟨0, le_rfl, h0 h⟩
  | succ n ih =>
    rcases hstep n h with hn | hn
    · exact ⟨n + 1, le_rfl, hn⟩
    · obtain ⟨m, hle, hm⟩ := ih hn
      exact ⟨m, hle.trans n.le_succ, hm⟩

/-! ## Values that are kept -/

section LastOf

variable {β : Type*} (new : ℕ → Option β)

/-- The value after cycle `n` of a variable that keeps what it has until something new comes. -/
def lastOf : ℕ → Option β
  | 0 => new 0
  | n + 1 => (new (n + 1)).or (lastOf n)

/-- `b` came in some cycle up to `n`, and nothing new since. -/
def Last (n : ℕ) (b : β) : Prop :=
  ∃ m ≤ n, new m = some b ∧ ∀ k, m < k → k ≤ n → new k = none

variable {new}

theorem lastOf_eq_some_iff {n : ℕ} {b : β} : lastOf new n = some b ↔ Last new n b := by
  induction n with
  | zero =>
    constructor
    · intro h
      exact ⟨0, le_rfl, h, fun k h1 h2 => absurd h2 h1.not_ge⟩
    · rintro ⟨m, hm, h, -⟩
      rwa [Nat.le_zero.1 hm] at h
  | succ n ih =>
    rw [lastOf, Option.or_eq_some_iff, ih]
    constructor
    · rintro (h | ⟨hnone, m, hm, h, hlater⟩)
      · exact ⟨n + 1, le_rfl, h, fun k h1 h2 => absurd h2 h1.not_ge⟩
      · refine ⟨m, hm.trans n.le_succ, h, fun k h1 h2 => ?_⟩
        rcases Nat.le_succ_iff.1 h2 with h2 | rfl
        · exact hlater k h1 h2
        · exact hnone
    · rintro ⟨m, hm, h, hlater⟩
      rcases Nat.le_succ_iff.1 hm with hm | rfl
      · exact .inr ⟨hlater (n + 1) (Nat.lt_succ_of_le hm) le_rfl, m, hm, h,
          fun k h1 h2 => hlater k h1 (h2.trans n.le_succ)⟩
      · exact .inl h

end LastOf

/-! ## Entry clocks -/

/-- Update of an entry timestamp : the time of the cycle on entry, nothing outside. -/
def entryClock (was is : Prop) [Decidable was] [Decidable is] (now : T) (old : Option T) :
    Option T :=
  if is ∧ ¬was then some now else if ¬is then none else old

/-- A run of an entry timestamp for the condition `q`. -/
structure EntryClock (q : ℕ → Prop) [DecidablePred q] (now : ℕ → T) (clock : ℕ → Option T) :
    Prop where
  start : ¬q 0
  unset : clock 0 = none
  next : ∀ n, clock (n + 1) = entryClock (q n) (q (n + 1)) (now n) (clock n)

namespace EntryClock

variable {q : ℕ → Prop} [DecidablePred q] {now : ℕ → T} {clock : ℕ → Option T}

/-- Outside `q` the timestamp is not set. -/
theorem eq_none (e : EntryClock q now clock) : ∀ {n : ℕ}, ¬q n → clock n = none
  | 0, _ => e.unset
  | n + 1, h => by rw [e.next, entryClock, if_neg fun h' => h h'.1, if_pos h]

/-- Inside a stay the timestamp is the time of its first cycle. -/
theorem eq_some (e : EntryClock q now clock) {c n : ℕ} (h : Since q c n) :
    clock (n + 1) = some (now c) := by
  obtain ⟨d, rfl⟩ := Nat.exists_eq_add_of_le h.le
  induction d with
  | zero => rw [Nat.add_zero, e.next, entryClock, if_pos ⟨h.during c le_rfl h.le, h.before⟩]
  | succ d ih =>
    have hprev : q (c + d + 1) := h.during (c + d) (Nat.le_add_right _ _) (Nat.le_succ _)
    have hlast : q (c + (d + 1) + 1) := h.during _ h.le le_rfl
    rw [e.next, entryClock, if_neg fun h' => h'.2 hprev, if_neg (not_not.2 hlast)]
    exact ih (h.restrict (Nat.le_add_right _ _) (Nat.le_succ _))

theorem exists_since (e : EntryClock q now clock) {n : ℕ} (h : q (n + 1)) : ∃ c, Since q c n :=
  Since.exists_of_holds e.start h

/-- The timestamp is set exactly inside `q`. -/
theorem isSome_iff (e : EntryClock q now clock) {n : ℕ} : (clock n).isSome ↔ q n := by
  refine ⟨fun h => ?_, fun h => ?_⟩
  · by_contra hn
    rw [e.eq_none hn] at h
    cases h
  · rcases n with _ | n
    · exact absurd h e.start
    · obtain ⟨c, hc⟩ := e.exists_since h
      rw [e.eq_some hc, Option.isSome_some]

end EntryClock

end A1Bsw
