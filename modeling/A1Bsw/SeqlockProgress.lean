import Mathlib.Data.Nat.Count
import A1Bsw.Seqlock

/-!
# How a read of a seqlock ends

A read that retries at most `maxRetries` times is bounded twice. It returns
after a number of its own loads that depends on the fields only, whatever the
writer does (`loads_le`) : each load lowers `ReaderPc.cost`. And it gives up
only when every try met a writer : a try whose first load saw an odd word, or
a try during which a writer made the even word odd (`le_of_torn`). A writer
makes the word odd once for each write begun.
-/

set_option linter.unusedSectionVars false

namespace A1Bsw

namespace Seqlock

/-- The number of steps from `n` up to `m` at which `p` holds. -/
def tally (p : ℕ → Prop) [DecidablePred p] (n m : ℕ) : ℕ :=
  Nat.count p m - Nat.count p n

section Tally

variable (p : ℕ → Prop) [DecidablePred p] {n m : ℕ}

@[simp] theorem tally_self : tally p n n = 0 :=
  Nat.sub_self _

theorem tally_succ (h : n ≤ m) : tally p n (m + 1) = tally p n m + if p m then 1 else 0 := by
  have hmono := Nat.count_monotone p h
  rw [tally, tally, Nat.count_succ]
  omega

end Tally

variable {J ι : Type*} {V : ι → Type*} [DecidableEq ι] [∀ i, Inhabited (V i)]

/-- A write that has begun and not yet made the word odd. -/
def WriterPc.pending : WriterPc J ι → ℕ
  | .testSeq _ | .loadSeq _ _ | .enter _ _ => 1
  | .idle | .store _ _ _ => 0

/-- A bound on the loads a read still makes, when a try makes at most `width` of them. -/
def ReaderPc.cost (width : ℕ) : ReaderPc V → ℕ
  | .idle => 0
  | .loadSeq left => left * width + 1
  | .copy left _ _ rest => left * width + 1 + (rest.length + 1)

variable {L : Layout J ι V}

theorem WriterPc.pending_le (pc : WriterPc J ι) : pc.pending ≤ 1 := by
  cases pc <;> simp [pending]

theorem ReaderPc.cost_pos {width : ℕ} {pc : ReaderPc V} (h : pc ≠ .idle) : 0 < pc.cost width := by
  cases pc with
  | idle => exact absurd rfl h
  | loadSeq left => exact Nat.succ_pos _
  | copy left seq1 got rest => exact Nat.succ_pos _

/-- A load lowers the cost. -/
theorem cost_stepRead {s s' : St J V} (hs : stepRead L s = some s') :
    s'.reader.cost (L.loads.length + 2) < s.reader.cost (L.loads.length + 2) := by
  unfold stepRead at hs
  cases hpc : s.reader with
  | idle => simp [hpc] at hs
  | loadSeq left =>
    cases left with
    | zero =>
      simp only [hpc, Option.some.injEq] at hs
      subst hs
      exact Nat.succ_pos _
    | succ left =>
      simp only [hpc, Option.some.injEq] at hs
      subst hs
      split_ifs
      · exact Nat.succ_pos _
      · simp only [St.readAt, ReaderPc.cost]
        rw [Nat.succ_mul]
        omega
      · simp only [St.readAt, ReaderPc.cost]
        rw [Nat.succ_mul]
        omega
  | copy left seq1 got rest =>
    cases rest with
    | cons i rest =>
      simp only [hpc, Option.some.injEq] at hs
      subst hs
      simp [St.readAt, ReaderPc.cost]
    | nil =>
      simp only [hpc, Option.some.injEq] at hs
      subst hs
      split_ifs
      · exact Nat.succ_pos _
      · simp [St.readAt, ReaderPc.cost]

/-- Only loads move the reader once a read is under way. -/
theorem reader_of_ne_read {s s' : St J V} {a : Act J} (hs : step L s a = some s')
    (ha : a ≠ .read) (hpc : s.reader ≠ .idle) : s'.reader = s.reader := by
  cases a with
  | beginWrite j =>
    obtain ⟨-, rfl⟩ := step_beginWrite hs
    rfl
  | write =>
    simp only [step, stepWrite] at hs
    split at hs <;> cases hs <;> rfl
  | beginRead maxRetries => exact absurd (step_beginRead hs).1 hpc
  | read => exact absurd rfl ha
  | kill =>
    cases hs
    rfl
  | wait =>
    cases hs
    rfl

/-- Only a read with no try left gives up. -/
theorem reader_of_torn {s s' : St J V} {a : Act J} (hs : step L s a = some s')
    (hret : s'.returned = some .torn) : s.reader = .loadSeq 0 := by
  cases a with
  | read =>
    simp only [step, stepRead] at hs
    cases hpc : s.reader with
    | idle => simp [hpc] at hs
    | loadSeq left =>
      cases left with
      | zero => rfl
      | succ left =>
        simp only [hpc, Option.some.injEq] at hs
        subst hs
        split_ifs at hret <;> simp [St.respond, St.readAt] at hret
    | copy left seq1 got rest =>
      cases rest with
      | cons i rest =>
        simp only [hpc, Option.some.injEq] at hs
        subst hs
        simp [St.readAt] at hret
      | nil =>
        simp only [hpc, Option.some.injEq] at hs
        subst hs
        split_ifs at hret <;> simp [St.respond, St.readAt] at hret
  | beginWrite j =>
    rw [(step_beginWrite hs).2] at hret
    simp [St.writeAt] at hret
  | write =>
    simp only [step, stepWrite] at hs
    split at hs <;> cases hs <;> simp [St.writeAt] at hret
  | beginRead maxRetries =>
    rw [(step_beginRead hs).2] at hret
    simp [St.readAt] at hret
  | kill =>
    cases hs
    simp [St.writeAt] at hret
  | wait =>
    cases hs
    simp at hret

/-! ## Making the word odd -/

/-- The step from `s` to `s'` makes an even word odd. -/
def Opens (s s' : St J V) : Prop :=
  s.seg.seq % 2 = 0 ∧ s'.seg.seq % 2 = 1

instance (s s' : St J V) : Decidable (Opens s s') :=
  inferInstanceAs (Decidable (_ ∧ _))

/-- A step that changes an even word makes it odd, and only one of a pending write does. -/
theorem opens_or {s s' : St J V} {a : Act J} (h : Inv L s) (hb : s'.begun < 2 ^ 62)
    (hs : step L s a = some s') :
    (s'.seg.seq = s.seg.seq ∨ s.seg.seq % 2 = 1 ∨ Opens s s') ∧
      (if Opens s s' then 1 else 0) + s'.writer.pending + s.begun ≤
        s.writer.pending + s'.begun := by
  have hclosed : s'.seg.seq = s.seg.seq → ¬Opens s s' := fun heq ho => by
    obtain ⟨h0, h1⟩ := ho
    omega
  cases a with
  | beginWrite j =>
    obtain ⟨hpc, rfl⟩ := step_beginWrite hs
    refine ⟨.inl rfl, ?_⟩
    rw [if_neg (hclosed rfl), hpc]
    simp only [St.writeAt, WriterPc.pending]
    omega
  | write =>
    have hbegun := (stepWrite_mono hs).1
    have hw := h.writer
    simp only [step, stepWrite] at hs
    cases hpc : s.writer with
    | idle => simp [hpc] at hs
    | testSeq j =>
      rw [hpc] at hs
      cases hs
      exact ⟨.inl rfl, by rw [if_neg (hclosed rfl)]; simp [St.writeAt, WriterPc.pending]⟩
    | loadSeq j even =>
      rw [hpc] at hs
      cases hs
      exact ⟨.inl rfl, by rw [if_neg (hclosed rfl)]; simp [St.writeAt, WriterPc.pending]⟩
    | enter j base =>
      rw [hpc] at hs hw
      cases hs
      obtain ⟨heven, -, hbd⟩ := hw
      have hseq : (s.seg.storeSeq (base + 1)).seq = base + 1 :=
        storeSeq_seq _ (by omega) (hbegun ▸ hb)
      refine ⟨?_, ?_⟩
      · rcases Nat.mod_two_eq_zero_or_one s.seg.seq with h0 | h1
        · exact .inr (.inr ⟨h0, by rw [St.writeAt, hseq]; omega⟩)
        · exact .inr (.inl h1)
      · refine Nat.add_le_add_right (?_ : _ + 0 ≤ 1) s.begun
        split_ifs <;> omega
    | store j base rest =>
      rw [hpc] at hs hw
      obtain ⟨heven, hodd, hbd, -⟩ := hw
      have hclosed' : ¬Opens s s' := fun ho => by
        have h0 := ho.1
        omega
      rw [if_neg hclosed']
      cases rest with
      | cons i rest =>
        cases hs
        exact ⟨.inl rfl, by simp [St.writeAt, WriterPc.pending]⟩
      | nil =>
        cases hs
        exact ⟨.inr (.inl (by omega)), by simp [St.writeAt, WriterPc.pending]⟩
  | kill =>
    cases hs
    refine ⟨.inl rfl, ?_⟩
    rw [if_neg (hclosed rfl)]
    simp [St.writeAt, WriterPc.pending]
  | beginRead maxRetries =>
    obtain ⟨-, rfl⟩ := step_beginRead hs
    refine ⟨.inl rfl, ?_⟩
    rw [if_neg (hclosed rfl)]
    simp [St.readAt]
  | read =>
    obtain ⟨hbegun, -, hseg⟩ := stepRead_mono hs
    have hpc : s'.writer = s.writer := by
      simp only [step, stepRead] at hs
      split at hs <;> cases hs <;> (try split_ifs) <;> rfl
    refine ⟨.inl (by rw [hseg]), ?_⟩
    rw [if_neg (hclosed (by rw [hseg])), hpc, hbegun]
    omega
  | wait =>
    cases hs
    refine ⟨.inl rfl, ?_⟩
    rw [if_neg (hclosed rfl)]
    simp

/-! ## Reads -/

/-- The next load is the first of a try, and the word is odd : an unfinished write. -/
def MeetsOdd (s : St J V) : Prop :=
  match s.reader with
  | .loadSeq (_ + 1) => s.seg.seq % 2 = 1
  | _ => False

instance (s : St J V) : Decidable (MeetsOdd s) := by
  unfold MeetsOdd
  split <;> infer_instance

/-- A step of the reader. -/
def Act.IsRead : Act J → Prop
  | .read => True
  | _ => False

instance (a : Act J) : Decidable a.IsRead := by
  unfold Act.IsRead
  split <;> infer_instance

theorem Act.isRead_iff {a : Act J} : a.IsRead ↔ a = .read := by
  cases a <;> simp [IsRead]

namespace Run

variable (ρ : Run L)

/-- A read with `maxRetries` tries begins at step `n` and has not returned before step `m`. -/
structure Reading (maxRetries n m : ℕ) : Prop where
  begins : ρ.act n = .beginRead maxRetries
  lt : n < m
  busy : ∀ k, n < k → k ≤ m → (ρ.state k).reader ≠ .idle

/-- The loads of steps `n` up to `m`. -/
def loads (n m : ℕ) : ℕ :=
  tally (fun k => (ρ.act k).IsRead) n m

/-- The tries of steps `n` up to `m` that start under an unfinished write. -/
def oddLoads (n m : ℕ) : ℕ :=
  tally (fun k => (ρ.act k).IsRead ∧ MeetsOdd (ρ.state k)) n m

/-- The times that steps `n` up to `m` make the word odd. -/
def opens (n m : ℕ) : ℕ :=
  tally (fun k => Opens (ρ.state k) (ρ.state (k + 1))) n m

/-- The writes begun by steps `n` up to `m`. -/
def writesBegun (n m : ℕ) : ℕ :=
  (ρ.state m).begun - (ρ.state n).begun

variable {ρ} {maxRetries n m : ℕ}

theorem Reading.of_le (h : ρ.Reading maxRetries n m) {k : ℕ} (hnk : n < k) (hkm : k ≤ m) :
    ρ.Reading maxRetries n k :=
  ⟨h.begins, hnk, fun i hi hik => h.busy i hi (hik.trans hkm)⟩

/-- A read starts with the loads of all its tries to make. -/
theorem Reading.starts (h : ρ.Reading maxRetries n m) :
    (ρ.state (n + 1)).reader = .loadSeq maxRetries := by
  have hstep := ρ.next n
  rw [h.begins] at hstep
  rw [(step_beginRead hstep).2]
  rfl

variable (ρ) in
/-- The word is made odd at most once for each write begun, and once for one under way. -/
theorem opens_le (hnm : n ≤ m) (hb : (ρ.state m).begun < 2 ^ 62) :
    ρ.opens n m + (ρ.state m).writer.pending ≤ ρ.writesBegun n m + 1 := by
  induction m, hnm using Nat.le_induction with
  | base =>
    have hle := WriterPc.pending_le (ρ.state n).writer
    rw [opens, tally_self]
    omega
  | succ m hnm ih =>
    have hmono := ρ.begun_mono m.le_succ
    have hmono' := ρ.begun_mono hnm
    dsimp only at hmono hmono'
    have hprev := ih (hmono.trans_lt hb)
    have hstep := (opens_or (ρ.inv m (hmono.trans_lt hb)) hb (ρ.next m)).2
    rw [opens, tally_succ _ hnm, ← opens]
    unfold writesBegun at hprev ⊢
    omega

/-- What the reader's program counter says about the tries that failed : each met an odd word
or a word that was made odd. -/
def TriesInv (seg : Segment V) (maxRetries failed : ℕ) : ReaderPc V → Prop
  | .idle => True
  | .loadSeq left => maxRetries ≤ left + failed
  | .copy left seq1 _ _ =>
    maxRetries ≤ left + 1 + failed ∧ (seg.seq ≠ seq1 → maxRetries ≤ left + failed)

theorem TriesInv.mono {seg : Segment V} {failed failed' : ℕ} {pc : ReaderPc V}
    (h : TriesInv seg maxRetries failed pc) (hle : failed ≤ failed') :
    TriesInv seg maxRetries failed' pc := by
  cases pc with
  | idle => trivial
  | loadSeq left => exact Nat.le_trans h (Nat.add_le_add_left hle _)
  | copy left seq1 got rest =>
    exact ⟨h.1.trans (Nat.add_le_add_left hle _),
      fun hne => (h.2 hne).trans (Nat.add_le_add_left hle _)⟩

/-- A load that does not end the read keeps the account of the failed tries. -/
theorem triesInv_stepRead {s s' : St J V} {failed : ℕ} (hs : stepRead L s = some s')
    (hpc : s.reader ≠ .idle) (h : TriesInv s.seg maxRetries failed s.reader) :
    TriesInv s'.seg maxRetries (failed + if MeetsOdd s then 1 else 0) s'.reader := by
  unfold stepRead at hs
  cases hr : s.reader with
  | idle => exact absurd hr hpc
  | loadSeq left =>
    rw [hr] at hs h
    cases left with
    | zero =>
      cases hs
      trivial
    | succ left =>
      simp only [Option.some.injEq] at hs
      subst hs
      have hle : maxRetries ≤ left + 1 + failed := h
      split_ifs with h0 hodd hmeets hmeets
      · trivial
      · trivial
      · show maxRetries ≤ left + (failed + 1)
        omega
      · have hmeets' : MeetsOdd s := by
          simp only [MeetsOdd, hr]
          omega
        exact absurd hmeets' hmeets
      · exact ⟨by omega, fun hne => absurd rfl hne⟩
      · exact ⟨by omega, fun hne => absurd rfl hne⟩
  | copy left seq1 got rest =>
    rw [hr] at hs h
    have hmono : TriesInv s.seg maxRetries (failed + if MeetsOdd s then 1 else 0)
        (.copy left seq1 got rest) := h.mono (Nat.le_add_right _ _)
    cases rest with
    | cons i rest =>
      cases hs
      exact hmono
    | nil =>
      simp only [Option.some.injEq] at hs
      subst hs
      by_cases heq : seq1 = s.seg.seq
      · rw [if_pos heq]
        trivial
      · rw [if_neg heq]
        exact hmono.2 (Ne.symm heq)

/-- Every failed try of a read met an odd word or one that was made odd. -/
theorem Reading.triesInv (h : ρ.Reading maxRetries n m) (hb : (ρ.state m).begun < 2 ^ 62) :
    TriesInv (ρ.state m).seg maxRetries (ρ.opens n m + ρ.oddLoads n m) (ρ.state m).reader := by
  have hlt : n + 1 ≤ m := h.lt
  induction m, hlt using Nat.le_induction with
  | base =>
    rw [h.starts]
    exact Nat.le_add_right _ _
  | succ m hnm ih =>
    have hread := h.of_le hnm m.le_succ
    have hb' := (ρ.begun_mono m.le_succ).trans_lt hb
    have hprev := ih hread hb'
    have hpc := hread.busy m hnm le_rfl
    have hnm' : n ≤ m := Nat.le_of_succ_le hnm
    rw [opens, oddLoads, tally_succ _ hnm', tally_succ _ hnm', ← opens, ← oddLoads]
    by_cases hact : ρ.act m = .read
    · have hs : stepRead L (ρ.state m) = some (ρ.state (m + 1)) := by
        simpa only [hact, step] using ρ.next m
      refine (triesInv_stepRead hs hpc hprev).mono ?_
      have hread : (ρ.act m).IsRead := Act.isRead_iff.2 hact
      simp only [hread, true_and]
      omega
    · have hsame := reader_of_ne_read (ρ.next m) hact hpc
      have hopens := (opens_or (ρ.inv m hb') hb (ρ.next m)).1
      rw [hsame]
      cases hr : (ρ.state m).reader with
      | idle => trivial
      | loadSeq left =>
        rw [hr] at hprev
        have hle : maxRetries ≤ left + (ρ.opens n m + ρ.oddLoads n m) := hprev
        show maxRetries ≤ left + _
        omega
      | copy left seq1 got rest =>
        rw [hr] at hprev
        refine ⟨by have := hprev.1; omega, fun hne => ?_⟩
        by_cases heq : (ρ.state m).seg.seq = seq1
        · -- The even word of the first load changes : the writer makes it odd.
          have heven := (ρ.inv m hb').reader
          rw [hr] at heven
          have h0 : seq1 % 2 = 0 := heven.1
          obtain hsame | hodd | ho := hopens
          · exact absurd (hsame.trans heq) hne
          · omega
          · rw [if_pos ho]
            have := hprev.1
            omega
        · have := hprev.2 heq
          omega

/-- A read gives up only when all its tries met writers : at most one try fails for each write
begun in the meantime and one for a write under way, and the others started under an
unfinished write. -/
theorem Reading.le_of_torn (h : ρ.Reading maxRetries n m)
    (hb : (ρ.state (m + 1)).begun < 2 ^ 62)
    (hret : (ρ.state (m + 1)).returned = some .torn) :
    maxRetries ≤ ρ.writesBegun n m + 1 + ρ.oddLoads n m := by
  have hb' := (ρ.begun_mono m.le_succ).trans_lt hb
  have htries := h.triesInv hb'
  have hopens := ρ.opens_le h.lt.le hb'
  rw [reader_of_torn (ρ.next m) hret] at htries
  have hle : maxRetries ≤ 0 + (ρ.opens n m + ρ.oddLoads n m) := htries
  omega

/-- A read returns after a bounded number of its own loads, whatever the writers do. -/
theorem Reading.loads_le (h : ρ.Reading maxRetries n m) :
    ρ.loads n m ≤ maxRetries * (L.loads.length + 2) := by
  have hcost : ρ.loads n m + (ρ.state m).reader.cost (L.loads.length + 2) ≤
      maxRetries * (L.loads.length + 2) + 1 := by
    have hlt : n + 1 ≤ m := h.lt
    induction m, hlt using Nat.le_induction with
    | base =>
      have hbegin : ¬(ρ.act n).IsRead := by simp [h.begins, Act.IsRead]
      rw [loads, tally_succ _ le_rfl, tally_self, if_neg hbegin, h.starts]
      exact (Nat.zero_add _).le
    | succ m hnm ih =>
      have hread := h.of_le hnm m.le_succ
      have hprev := ih hread
      rw [loads, tally_succ _ (Nat.le_of_succ_le hnm), ← loads]
      by_cases hact : ρ.act m = .read
      · have hs : stepRead L (ρ.state m) = some (ρ.state (m + 1)) := by
          simpa only [hact, step] using ρ.next m
        have hlower := cost_stepRead hs
        split_ifs <;> omega
      · rw [if_neg (fun hr => hact (Act.isRead_iff.1 hr)),
          reader_of_ne_read (ρ.next m) hact (hread.busy m hnm le_rfl)]
        exact hprev
  have hpos : 0 < (ρ.state m).reader.cost (L.loads.length + 2) :=
    ReaderPc.cost_pos (h.busy m h.lt le_rfl)
  omega

end Run

end Seqlock

end A1Bsw
