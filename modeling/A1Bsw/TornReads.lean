import A1Bsw.SeqlockProgress
import A1Bsw.Protocol

/-!
# Reads that give up

`CommandChannel.read` and `HeartbeatChannel.age` try at most `max_retries`
times and raise `TornReadError` after the last one. Neither can keep the guard
waiting : a call returns after a number of loads fixed by its tries. Neither
gives up while writers are few : all but a few of the tries of a call that
raises started under an unfinished write, which is a writer killed within a
write or one that never pauses.
-/

namespace A1Bsw

open Seqlock

section Readers

variable {J ι : Type*} {V : ι → Type*} [DecidableEq ι] [∀ i, Inhabited (V i)] {L : Layout J ι V}
  {α : Type*} (result : ℕ → ℤ → ReadResult V → Except TornReadError (Option α))

/-- How the calls of a reader end. `width` bounds the loads of one try. -/
structure EndsReads (ρ : Run L) (width : ℕ) : Prop where
  /-- A call that has not returned made at most `width` loads for each of its tries. -/
  loads_le : ∀ {maxRetries n m : ℕ}, ρ.Reading maxRetries n m →
    ρ.loads n m ≤ maxRetries * width
  /-- A call that raises had a write begun for each of its tries, but for one write under way
  and for the tries that started under an unfinished write. -/
  le_of_error : ∀ {maxRetries n m : ℕ} {nowNs : ℤ} {e : TornReadError},
    ρ.Reading maxRetries n m → (ρ.state (m + 1)).begun < 2 ^ 62 →
    Returns result ρ m nowNs (.error e) →
      maxRetries ≤ ρ.writesBegun n m + 1 + ρ.oddLoads n m
  /-- A call whose tries outnumber the writes begun and the tries that start under an
  unfinished write returns what it read. -/
  exists_ok : ∀ {maxRetries n m : ℕ} {r : ReadResult V}, ρ.Reading maxRetries n m →
    (ρ.state (m + 1)).begun < 2 ^ 62 → (ρ.state (m + 1)).returned = some r →
    ρ.writesBegun n m + 1 + ρ.oddLoads n m < maxRetries →
      ∀ k nowNs, ∃ out, result k nowNs r = .ok out

variable {result}

/-- A seqlock that reports an error for a torn read only. -/
theorem endsReads (ρ : Run L)
    (herror : ∀ {k t r e}, result k t r = .error e → r = .torn) :
    EndsReads result ρ (L.loads.length + 2) := by
  refine ⟨fun h => h.loads_le, ?_, ?_⟩
  · rintro maxRetries n m nowNs e hread hb ⟨k, r, hret, hres⟩
    rw [herror hres] at hret
    exact hread.le_of_torn hb hret
  · intro maxRetries n m r hread hb hret hlt k nowNs
    rcases hres : result k nowNs r with e | out
    · rw [herror hres] at hret
      exact absurd (hread.le_of_torn hb hret) (by omega)
    · exact ⟨out, rfl⟩

end Readers

/-- The calls of both readers end : a try of `read` makes at most 12 loads and one of `age` at
most 3, and both raise only when writers met every try. -/
theorem channels_end_reads (χ : Run CommandChannel.layout) (η : Run HeartbeatChannel.layout) :
    EndsReads CommandChannel.result χ 12 ∧ EndsReads HeartbeatChannel.result η 3 := by
  refine ⟨endsReads χ ?_, endsReads η ?_⟩
  · intro k t r e h
    cases r with
    | torn => rfl
    | neverWritten => simp [CommandChannel.result] at h
    | value p => simp [CommandChannel.result] at h
  · intro k t r e h
    cases r with
    | torn => rfl
    | neverWritten => simp [HeartbeatChannel.result] at h
    | value p => simp [HeartbeatChannel.result] at h

end A1Bsw
