import Mathlib.Data.List.Infix
import Mathlib.Data.List.GetD
import Mathlib.Order.Monotone.Basic
import Mathlib.Tactic.Linarith
import Mathlib.Tactic.Cases

/-!
# A single-slot seqlock

A segment holds a 64-bit sequence word and one value per field. `Layout`
fixes what a writer stores for a job, in which order, and in which order a
reader loads it. Every load and every store of one word is one step, and the
steps of the writer and of the reader interleave in any order.

A writer makes the word odd, stores the fields, and makes the word even. It
can be killed between any two steps; a successor starts from the word it
finds, odd or even. A reader loads the word, copies the fields and loads the
word again, and retries unless both loads gave the same even value.

`Inv` relates the word, the fields and the program counters. Its content is
that an even word is never stored by two different writes : `Segment.data`
changes only under an odd word and the word only grows. With it the machine
refines a register that keeps the history of completed writes
(`step_register`) : a value read is the last completed write at the instant
of the reader's last load.

`Layout.write` and `Segment.read` are the two operations as functions of the
segment. Alone, the machine computes them (`exec_write_alone`,
`exec_read_alone`), so a successor repairs what a killed writer left
(`Run.exec_repair`).
-/

set_option linter.unusedSectionVars false

namespace A1Bsw

namespace Seqlock

/-- The sequence word has 64 bits. -/
def wordSize : ℕ := 2 ^ 64

/-- What a write of a job stores, and the orders of the stores and of the loads. -/
structure Layout (J ι : Type*) (V : ι → Type*) where
  /-- The value a job stores in each field. -/
  content : J → ∀ i, V i
  /-- The fields in the order of the writer's stores. -/
  stores : List ι
  /-- The fields in the order of the reader's loads. -/
  loads : List ι
  mem_stores : ∀ i, i ∈ stores
  mem_loads : ∀ i, i ∈ loads

/-- The shared segment. -/
structure Segment {ι : Type*} (V : ι → Type*) where
  seq : ℕ
  data : ∀ i, V i

/-- The writer's next step. -/
inductive WriterPc (J ι : Type*) where
  | idle
  /-- Load the word for the parity test. -/
  | testSeq (j : J)
  /-- Load the word for its value. -/
  | loadSeq (j : J) (even : Bool)
  /-- Store the odd word. -/
  | enter (j : J) (base : ℕ)
  /-- Store the remaining fields, then the even word. -/
  | store (j : J) (base : ℕ) (rest : List ι)

/-- The reader's next step, with the number of retries left. -/
inductive ReaderPc {ι : Type*} (V : ι → Type*) where
  | idle
  /-- Load the word for the first time. -/
  | loadSeq (left : ℕ)
  /-- Load the remaining fields, then the word for the second time. -/
  | copy (left seq1 : ℕ) (got : ∀ i, V i) (rest : List ι)

/-- What a read returns. -/
inductive ReadResult {ι : Type*} (V : ι → Type*) where
  | neverWritten
  | value (got : ∀ i, V i)
  | torn

/-- The segment, the two parties, and the history. -/
structure St (J : Type*) {ι : Type*} (V : ι → Type*) where
  seg : Segment V
  writer : WriterPc J ι := .idle
  reader : ReaderPc V := .idle
  /-- The result of the read that the last step ended. -/
  returned : Option (ReadResult V) := none
  /-- The completed writes, oldest first. -/
  done : List J := []
  /-- The number of writes begun. -/
  begun : ℕ := 0

/-- A scheduling choice. -/
inductive Act (J : Type*) where
  | beginWrite (j : J)
  | write
  | kill
  | beginRead (maxRetries : ℕ)
  | read
  | wait

variable {J ι : Type*} {V : ι → Type*} [DecidableEq ι] [∀ i, Inhabited (V i)]

namespace Segment

/-- Store the word. -/
def storeSeq (seg : Segment V) (n : ℕ) : Segment V :=
  { seg with seq := n % wordSize }

/-- Store a field. -/
def storeField (seg : Segment V) (i : ι) (v : V i) : Segment V :=
  { seg with data := Function.update seg.data i v }

/-- A read with no concurrent step. -/
def read (seg : Segment V) (maxRetries : ℕ) : ReadResult V :=
  if maxRetries = 0 then .torn
  else if seg.seq = 0 then .neverWritten
  else if seg.seq % 2 ≠ 0 then .torn
  else .value seg.data

end Segment

/-- A write with no concurrent step. -/
def Layout.write (L : Layout J ι V) (seg : Segment V) (j : J) : Segment V where
  seq := ((if seg.seq % 2 == 0 then seg.seq else seg.seq + 1) + 2) % wordSize
  data := L.content j

namespace St

/-- The reader goes to `pc`. -/
def readAt (s : St J V) (pc : ReaderPc V) : St J V :=
  { s with reader := pc, returned := none }

/-- The reader returns `r`. -/
def respond (s : St J V) (r : ReadResult V) : St J V :=
  { s with reader := .idle, returned := some r }

/-- The writer stores `seg` and goes to `pc`. -/
def writeAt (s : St J V) (seg : Segment V) (pc : WriterPc J ι) : St J V :=
  { s with seg := seg, writer := pc, returned := none }

end St

variable (L : Layout J ι V)

/-- One load or store of the writer. -/
def stepWrite (s : St J V) : Option (St J V) :=
  match s.writer with
  | .idle => none
  | .testSeq j => some (s.writeAt s.seg (.loadSeq j (s.seg.seq % 2 == 0)))
  | .loadSeq j even =>
    some (s.writeAt s.seg (.enter j (if even then s.seg.seq else s.seg.seq + 1)))
  | .enter j base => some (s.writeAt (s.seg.storeSeq (base + 1)) (.store j base L.stores))
  | .store j base (i :: rest) =>
    some (s.writeAt (s.seg.storeField i (L.content j i)) (.store j base rest))
  | .store j base [] =>
    some { s.writeAt (s.seg.storeSeq (base + 2)) .idle with done := s.done ++ [j] }

/-- One load of the reader. The copy starts from placeholders that its loads overwrite. -/
def stepRead (s : St J V) : Option (St J V) :=
  match s.reader with
  | .idle => none
  | .loadSeq 0 => some (s.respond .torn)
  | .loadSeq (left + 1) =>
    some (if s.seg.seq = 0 then s.respond .neverWritten
      else if s.seg.seq % 2 ≠ 0 then s.readAt (.loadSeq left)
      else s.readAt (.copy left s.seg.seq (fun _ => default) L.loads))
  | .copy left seq1 got (i :: rest) =>
    some (s.readAt (.copy left seq1 (Function.update got i (s.seg.data i)) rest))
  | .copy left seq1 got [] =>
    some (if seq1 = s.seg.seq then s.respond (.value got) else s.readAt (.loadSeq left))

/-- One step of the machine. A new write or read begins when the last one is over. -/
def step (s : St J V) : Act J → Option (St J V)
  | .beginWrite j =>
    match s.writer with
    | .idle => some { s.writeAt s.seg (.testSeq j) with begun := s.begun + 1 }
    | _ => none
  | .write => stepWrite L s
  | .kill => some (s.writeAt s.seg .idle)
  | .beginRead maxRetries =>
    match s.reader with
    | .idle => some (s.readAt (.loadSeq maxRetries))
    | _ => none
  | .read => stepRead L s
  | .wait => some { s with returned := none }

/-! ## The invariant -/

/-- What the writer's program counter says about the word and the fields. -/
def WriterInv (seg : Segment V) (begun : ℕ) : WriterPc J ι → Prop
  | .idle => seg.seq ≤ 3 * begun
  | .testSeq _ => seg.seq + 3 ≤ 3 * begun
  | .loadSeq _ even => seg.seq + 3 ≤ 3 * begun ∧ even = (seg.seq % 2 == 0)
  | .enter _ base => base % 2 = 0 ∧ seg.seq ≤ base ∧ base + 2 ≤ 3 * begun
  | .store j base rest =>
    base % 2 = 0 ∧ seg.seq = base + 1 ∧ base + 2 ≤ 3 * begun ∧
      ∀ i, i ∉ rest → seg.data i = L.content j i

/-- What the reader's program counter says : while the word is the one it first loaded,
the fields copied so far are those of the segment. -/
def ReaderInv (seg : Segment V) : ReaderPc V → Prop
  | .copy _ seq1 got rest =>
    seq1 % 2 = 0 ∧ 0 < seq1 ∧ seq1 ≤ seg.seq ∧
      (seg.seq = seq1 → ∀ i, i ∉ rest → got i = seg.data i)
  | _ => True

/-- Under an even word the segment is the last completed write, or was never written. -/
def Stable (seg : Segment V) (done : List J) : Prop :=
  seg.seq % 2 = 0 →
    (seg.seq = 0 ∧ done = []) ∨ (seg.seq ≠ 0 ∧ ∃ j, done.getLast? = some j ∧ seg.data = L.content j)

/-- The invariant of the machine. -/
structure Inv (s : St J V) : Prop where
  writer : WriterInv L s.seg s.begun s.writer
  reader : ReaderInv s.seg s.reader
  stable : Stable L s.seg s.done

variable {L}

theorem WriterInv.seq_le {seg : Segment V} {begun : ℕ} {pc : WriterPc J ι}
    (h : WriterInv L seg begun pc) : seg.seq ≤ 3 * begun := by
  cases pc with
  | idle => exact h
  | testSeq j => exact (Nat.le_add_right _ _).trans h
  | loadSeq j even => exact (Nat.le_add_right _ _).trans h.1
  | enter j base =>
    obtain ⟨-, h1, h2⟩ := h
    omega
  | store j base rest =>
    obtain ⟨-, h1, h2, -⟩ := h
    omega

/-- A larger word makes the reader retry. -/
theorem ReaderInv.of_seq_lt {seg seg' : Segment V} {pc : ReaderPc V} (h : ReaderInv seg pc)
    (hlt : seg.seq < seg'.seq) : ReaderInv seg' pc := by
  cases pc with
  | copy left seq1 got rest =>
    obtain ⟨h1, h2, h3, -⟩ := h
    exact ⟨h1, h2, h3.trans hlt.le, fun heq => absurd heq (h3.trans_lt hlt).ne'⟩
  | _ => trivial

/-- Under an odd word the fields may change : the reader holds an even one. -/
theorem ReaderInv.of_odd {seg seg' : Segment V} {pc : ReaderPc V} (h : ReaderInv seg pc)
    (hodd : seg.seq % 2 = 1) (heq : seg'.seq = seg.seq) : ReaderInv seg' pc := by
  cases pc with
  | copy left seq1 got rest =>
    obtain ⟨h1, h2, h3, -⟩ := h
    exact ⟨h1, h2, heq ▸ h3, fun h => by omega⟩
  | _ => trivial

theorem Stable.of_odd {seg : Segment V} {done : List J} (h : seg.seq % 2 = 1) :
    Stable L seg done :=
  fun h' => by omega

/-- No store of the word wraps while fewer than `2 ^ 62` writes have begun. -/
theorem storeSeq_seq (seg : Segment V) {n begun : ℕ} (hn : n ≤ 3 * begun) (hb : begun < 2 ^ 62) :
    (seg.storeSeq n).seq = n :=
  Nat.mod_eq_of_lt (by unfold wordSize; omega)

theorem inv_stepWrite {s s' : St J V} (h : Inv L s) (hb : s.begun < 2 ^ 62)
    (hs : stepWrite L s = some s') : Inv L s' := by
  obtain ⟨hw, hr, hst⟩ := h
  unfold stepWrite at hs
  cases hpc : s.writer with
  | idle => simp [hpc] at hs
  | testSeq j =>
    rw [hpc] at hs hw
    cases hs
    exact ⟨⟨hw, rfl⟩, hr, hst⟩
  | loadSeq j even =>
    rw [hpc] at hs hw
    cases hs
    obtain ⟨hw, rfl⟩ := hw
    refine ⟨?_, hr, hst⟩
    simp only [St.writeAt, WriterInv, beq_iff_eq]
    split_ifs with hpar
    · exact ⟨hpar, le_rfl, by omega⟩
    · exact ⟨by omega, by omega, by omega⟩
  | enter j base =>
    rw [hpc] at hs hw
    cases hs
    obtain ⟨heven, hle, hbd⟩ := hw
    have hseq : (s.seg.storeSeq (base + 1)).seq = base + 1 := storeSeq_seq _ (by omega) hb
    refine ⟨⟨heven, hseq, hbd, fun i hi => absurd (L.mem_stores i) hi⟩, ?_, .of_odd ?_⟩
    · exact hr.of_seq_lt (by rw [St.writeAt, hseq]; omega)
    · rw [St.writeAt, hseq]
      omega
  | store j base rest =>
    rw [hpc] at hs hw
    obtain ⟨heven, hseq, hbd, hdata⟩ := hw
    cases rest with
    | cons i rest =>
      cases hs
      refine ⟨⟨heven, hseq, hbd, fun k hk => ?_⟩, hr.of_odd (by omega) rfl, .of_odd ?_⟩
      · by_cases hki : k = i
        · subst hki
          exact Function.update_self _ _ _
        · exact (Function.update_of_ne hki _ _).trans (hdata k (by simp [hki, hk]))
      · show s.seg.seq % 2 = 1
        omega
    | nil =>
      cases hs
      have hseq' : (s.seg.storeSeq (base + 2)).seq = base + 2 := storeSeq_seq _ hbd hb
      refine ⟨?_, hr.of_seq_lt ?_, fun _ => .inr ⟨?_, j, by simp, ?_⟩⟩
      · exact hseq'.le.trans hbd
      · show _ < (s.seg.storeSeq (base + 2)).seq
        omega
      · show (s.seg.storeSeq (base + 2)).seq ≠ 0
        omega
      · exact funext fun i => hdata i (by simp)

theorem inv_stepRead {s s' : St J V} (h : Inv L s) (hs : stepRead L s = some s') : Inv L s' := by
  obtain ⟨hw, hr, hst⟩ := h
  unfold stepRead at hs
  cases hpc : s.reader with
  | idle => simp [hpc] at hs
  | loadSeq left =>
    rw [hpc] at hs
    cases left with
    | zero =>
      cases hs
      exact ⟨hw, trivial, hst⟩
    | succ left =>
      simp only [Option.some.injEq] at hs
      subst hs
      split_ifs with h0 hodd
      · exact ⟨hw, trivial, hst⟩
      · exact ⟨hw, trivial, hst⟩
      · exact ⟨hw, ⟨by omega, by omega, le_rfl, fun _ i hi => absurd (L.mem_loads i) hi⟩, hst⟩
  | copy left seq1 got rest =>
    rw [hpc] at hs hr
    cases rest with
    | cons i rest =>
      cases hs
      obtain ⟨h1, h2, h3, hgot⟩ := hr
      refine ⟨hw, ⟨h1, h2, h3, fun heq k hk => ?_⟩, hst⟩
      by_cases hki : k = i
      · subst hki
        exact Function.update_self _ _ _
      · exact (Function.update_of_ne hki _ _).trans (hgot heq k (by simp [hki, hk]))
    | nil =>
      simp only [Option.some.injEq] at hs
      subst hs
      split_ifs
      · exact ⟨hw, trivial, hst⟩
      · exact ⟨hw, trivial, hst⟩

/-- A write begins when the writer is idle. -/
theorem step_beginWrite {s s' : St J V} {j : J} (hs : step L s (.beginWrite j) = some s') :
    s.writer = .idle ∧ s' = { s.writeAt s.seg (.testSeq j) with begun := s.begun + 1 } := by
  simp only [step] at hs
  split at hs <;> cases hs
  exact ⟨‹_›, rfl⟩

/-- A read begins when the reader is idle. -/
theorem step_beginRead {s s' : St J V} {maxRetries : ℕ}
    (hs : step L s (.beginRead maxRetries) = some s') :
    s.reader = .idle ∧ s' = s.readAt (.loadSeq maxRetries) := by
  simp only [step] at hs
  split at hs <;> cases hs
  exact ⟨‹_›, rfl⟩

theorem stepWrite_mono {s s' : St J V} (hs : stepWrite L s = some s') :
    s'.begun = s.begun ∧ s.done <+: s'.done := by
  unfold stepWrite at hs
  split at hs <;> cases hs <;> simp [St.writeAt]

theorem stepRead_mono {s s' : St J V} (hs : stepRead L s = some s') :
    s'.begun = s.begun ∧ s'.done = s.done ∧ s'.seg = s.seg := by
  unfold stepRead at hs
  split at hs <;> cases hs <;> (try split_ifs) <;> exact ⟨rfl, rfl, rfl⟩

/-- Steps only begin and complete writes. -/
theorem step_mono {s s' : St J V} {a : Act J} (hs : step L s a = some s') :
    s.begun ≤ s'.begun ∧ s.done <+: s'.done := by
  cases a with
  | beginWrite j =>
    obtain ⟨-, rfl⟩ := step_beginWrite hs
    exact ⟨Nat.le_succ _, List.prefix_refl _⟩
  | write => exact ⟨(stepWrite_mono hs).1.ge, (stepWrite_mono hs).2⟩
  | kill =>
    cases hs
    exact ⟨le_rfl, List.prefix_refl _⟩
  | beginRead maxRetries =>
    obtain ⟨-, rfl⟩ := step_beginRead hs
    exact ⟨le_rfl, List.prefix_refl _⟩
  | read =>
    obtain ⟨h1, h2, -⟩ := stepRead_mono hs
    exact ⟨h1.ge, h2 ▸ List.prefix_refl _⟩
  | wait =>
    cases hs
    exact ⟨le_rfl, List.prefix_refl _⟩

/-- Every step keeps the invariant while fewer than `2 ^ 62` writes have begun. -/
theorem inv_step {s s' : St J V} {a : Act J} (h : Inv L s) (hb : s'.begun < 2 ^ 62)
    (hs : step L s a = some s') : Inv L s' := by
  cases a with
  | beginWrite j =>
    obtain ⟨hpc, rfl⟩ := step_beginWrite hs
    obtain ⟨hw, hr, hst⟩ := h
    rw [hpc] at hw
    have hle : s.seg.seq ≤ 3 * s.begun := hw
    exact ⟨show s.seg.seq + 3 ≤ 3 * (s.begun + 1) by omega, hr, hst⟩
  | write => exact inv_stepWrite h ((stepWrite_mono hs).1 ▸ hb) hs
  | kill =>
    cases hs
    exact ⟨h.writer.seq_le, h.reader, h.stable⟩
  | beginRead maxRetries =>
    obtain ⟨-, rfl⟩ := step_beginRead hs
    exact ⟨h.writer, trivial, h.stable⟩
  | read => exact inv_stepRead h hs
  | wait =>
    cases hs
    exact ⟨h.writer, h.reader, h.stable⟩

/-- A step that completes a write leaves the word even. -/
theorem step_even_of_done {s s' : St J V} {a : Act J} (h : Inv L s) (hb : s'.begun < 2 ^ 62)
    (hs : step L s a = some s') (hd : s'.done ≠ s.done) : s'.seg.seq % 2 = 0 := by
  cases a with
  | write =>
    have hbegun := (stepWrite_mono hs).1
    have hw := h.writer
    simp only [step, stepWrite] at hs
    split at hs <;> cases hs
    case h_6 hpc =>
      rw [hpc] at hw
      obtain ⟨heven, -, hbd, -⟩ := hw
      have hseq := storeSeq_seq s.seg hbd (hbegun ▸ hb)
      show (s.seg.storeSeq _).seq % 2 = 0
      omega
    all_goals exact absurd rfl hd
  | beginWrite j =>
    obtain ⟨-, rfl⟩ := step_beginWrite hs
    exact absurd rfl hd
  | beginRead maxRetries =>
    obtain ⟨-, rfl⟩ := step_beginRead hs
    exact absurd rfl hd
  | read => exact absurd (stepRead_mono hs).2.1 hd
  | kill =>
    cases hs
    exact absurd rfl hd
  | wait =>
    cases hs
    exact absurd rfl hd

/-! ## Refinement of a register -/

variable (L) in
/-- A register that keeps its history : a step returns the last completed write, reports
that there is none, gives up, or completes a write. -/
inductive RegisterStep : List J → Option (ReadResult V) → List J → Prop
  | silent (done : List J) : RegisterStep done none done
  | write (done : List J) (j : J) : RegisterStep done none (done ++ [j])
  | empty : RegisterStep [] (some .neverWritten) []
  | value {done : List J} {j : J} (h : done.getLast? = some j) :
    RegisterStep done (some (.value (L.content j))) done
  | torn (done : List J) : RegisterStep done (some .torn) done

theorem RegisterStep.value_inv {done done' : List J} {got : ∀ i, V i}
    (h : RegisterStep L done (some (.value got)) done') :
    ∃ j, done.getLast? = some j ∧ got = L.content j := by
  cases h with
  | value hj => exact ⟨_, hj, rfl⟩

theorem stepWrite_register {s s' : St J V} (hs : stepWrite L s = some s') :
    RegisterStep L s.done s'.returned s'.done := by
  unfold stepWrite at hs
  split at hs <;> cases hs
  case h_6 => exact .write _ _
  all_goals exact .silent _

theorem stepRead_register {s s' : St J V} (h : Inv L s) (hs : stepRead L s = some s') :
    RegisterStep L s.done s'.returned s'.done := by
  have hr := h.reader
  unfold stepRead at hs
  split at hs
  · cases hs
  · cases hs
    exact .torn _
  · simp only [Option.some.injEq] at hs
    subst hs
    split_ifs with h0 hodd
    · obtain ⟨-, hd⟩ | ⟨hne, -⟩ := h.stable (by omega)
      · show RegisterStep L s.done (some .neverWritten) s.done
        exact hd ▸ .empty
      · exact absurd h0 hne
    · exact .silent _
    · exact .silent _
  · cases hs
    exact .silent _
  · next hpc =>
    rw [hpc] at hr
    simp only [Option.some.injEq] at hs
    subst hs
    split_ifs with heq
    · -- The word is still the even one of the first load, so the copy is the segment's content.
      obtain ⟨heven, hpos, -, hgot⟩ := hr
      have hcopy := funext fun i => hgot heq.symm i (by simp)
      obtain ⟨h0, -⟩ | ⟨-, j, hj, hdata⟩ := h.stable (by omega)
      · omega
      · rw [hcopy, hdata]
        exact .value hj
    · exact .silent _

/-- The machine refines the register. -/
theorem step_register {s s' : St J V} {a : Act J} (h : Inv L s) (hs : step L s a = some s') :
    RegisterStep L s.done s'.returned s'.done := by
  cases a with
  | beginWrite j =>
    obtain ⟨-, rfl⟩ := step_beginWrite hs
    exact .silent _
  | write => exact stepWrite_register hs
  | kill =>
    cases hs
    exact .silent _
  | beginRead maxRetries =>
    obtain ⟨-, rfl⟩ := step_beginRead hs
    exact .silent _
  | read => exact stepRead_register h hs
  | wait =>
    cases hs
    exact .silent _

/-! ## Runs -/

variable (L) in
/-- A schedule from a fresh segment. -/
structure Run where
  state : ℕ → St J V
  act : ℕ → Act J
  init : ∃ data, state 0 = { seg := { seq := 0, data := data } }
  next : ∀ n, step L (state n) (act n) = some (state (n + 1))

namespace Run

variable (ρ : Run L)

theorem begun_mono : Monotone fun n => (ρ.state n).begun :=
  monotone_nat_of_le_succ fun n => (step_mono (ρ.next n)).1

theorem done_prefix {n m : ℕ} (h : n ≤ m) : (ρ.state n).done <+: (ρ.state m).done := by
  induction h with
  | refl => exact List.prefix_refl _
  | step _ ih => exact ih.trans (step_mono (ρ.next _)).2

theorem inv : ∀ n, (ρ.state n).begun < 2 ^ 62 → Inv L (ρ.state n)
  | 0, _ => by
    obtain ⟨data, h⟩ := ρ.init
    rw [h]
    exact ⟨Nat.zero_le _, trivial, fun _ => .inl ⟨rfl, rfl⟩⟩
  | n + 1, hb => inv_step (inv n ((ρ.begun_mono n.le_succ).trans_lt hb)) hb (ρ.next n)

/-- A value returned by a read is the content of the last completed write at the
instant of the read's last load. -/
theorem value_spec {n : ℕ} {got : ∀ i, V i} (hb : (ρ.state n).begun < 2 ^ 62)
    (h : (ρ.state (n + 1)).returned = some (.value got)) :
    ∃ j, (ρ.state n).done.getLast? = some j ∧ got = L.content j :=
  (h ▸ step_register (ρ.inv n hb) (ρ.next n)).value_inv

/-- A completed write leaves the segment readable, with the write's content. -/
theorem read_of_done {n : ℕ} {j : J} (hb : (ρ.state (n + 1)).begun < 2 ^ 62)
    (h : (ρ.state (n + 1)).done = (ρ.state n).done ++ [j]) {maxRetries : ℕ} (hr : 0 < maxRetries) :
    (ρ.state (n + 1)).seg.read maxRetries = .value (L.content j) := by
  have hinv := ρ.inv n ((ρ.begun_mono n.le_succ).trans_lt hb)
  have heven : (ρ.state (n + 1)).seg.seq % 2 = 0 :=
    step_even_of_done hinv hb (ρ.next n) (by rw [h]; simp)
  obtain ⟨-, hd⟩ | ⟨hne, k, hk, hdata⟩ := (ρ.inv (n + 1) hb).stable heven
  · simp [h] at hd
  · obtain rfl : j = k := by simpa [h] using hk
    simp [Segment.read, hr.ne', hne, heven, hdata]

/-! ### Schedules -/

section Schedule

variable (L) (data : ∀ i, V i) (acts : ℕ → Act J)

/-- The states that a sequence of choices leads through. A choice that is not enabled waits. -/
def scheduleState : ℕ → St J V
  | 0 => { seg := { seq := 0, data } }
  | n + 1 => (step L (scheduleState n) (acts n)).getD { scheduleState n with returned := none }

/-- Every sequence of choices has a run. -/
def schedule : Run L where
  state := scheduleState L data acts
  act n := if (step L (scheduleState L data acts n) (acts n)).isSome then acts n else .wait
  init := ⟨data, rfl⟩
  next n := by
    rw [scheduleState]
    rcases h : step L (scheduleState L data acts n) (acts n) with _ | s
    · rfl
    · exact h

/-- Once all choices are to wait, no write begins and none completes. -/
theorem schedule_le {m : ℕ} (h : ∀ k, m ≤ k → acts k = .wait) (n : ℕ) :
    ((schedule L data acts).state n).begun ≤ ((schedule L data acts).state m).begun ∧
      ((schedule L data acts).state n).done <+: ((schedule L data acts).state m).done := by
  rcases le_total n m with hnm | hmn
  · exact ⟨begun_mono _ hnm, done_prefix _ hnm⟩
  induction n, hmn using Nat.le_induction with
  | base => exact ⟨le_rfl, List.prefix_refl _⟩
  | succ n hmn ih =>
    have hstep : (schedule L data acts).state (n + 1) =
        { (schedule L data acts).state n with returned := none } := by
      simp [schedule, scheduleState, h n hmn, step]
    rw [hstep]
    exact ih

end Schedule

end Run

/-! ## Operations that run alone -/

variable (L) in
/-- A write leaves an even word. -/
theorem write_seq (seg : Segment V) (j : J) :
    (L.write seg j).seq % 2 = 0 ∧ (L.write seg j).seq < wordSize := by
  simp only [Layout.write, wordSize, beq_iff_eq]
  split_ifs <;> omega

variable (L) in
/-- The word of a write wraps to zero from the last even value only. -/
theorem write_seq_eq_zero_iff {seg : Segment V} (j : J) (heven : seg.seq % 2 = 0)
    (hlt : seg.seq < wordSize) : (L.write seg j).seq = 0 ↔ seg.seq = wordSize - 2 := by
  simp only [Layout.write, wordSize, beq_iff_eq, if_pos heven] at hlt ⊢
  omega

variable (L) in
/-- A read after a write returns its content, unless the word wrapped to zero. -/
theorem read_write (seg : Segment V) (j : J) {maxRetries : ℕ} (hr : 0 < maxRetries) :
    (L.write seg j).read maxRetries =
      if (L.write seg j).seq = 0 then .neverWritten else .value (L.content j) := by
  simp only [Segment.read, hr.ne', if_false, (write_seq L seg j).1, ne_eq, not_true]
  rfl

variable (L) in
/-- A sequence of steps. -/
def exec (s : St J V) : List (Act J) → Option (St J V)
  | [] => some s
  | a :: as => (step L s a).bind (exec · as)

theorem exec_append (s : St J V) (as bs : List (Act J)) :
    exec L s (as ++ bs) = (exec L s as).bind (exec L · bs) := by
  induction as generalizing s with
  | nil => rfl
  | cons a as ih =>
    simp only [List.cons_append, exec, Option.bind_assoc, ih]

omit [∀ i, Inhabited (V i)] in
/-- Fields that are set one after the other, `i` first, get the values of `content`, and the
others keep theirs. -/
theorem eq_content_of_update {content before after : ∀ i, V i} {i : ι} {rest : List ι}
    (hin : ∀ k, k ∈ rest → after k = content k)
    (hout : ∀ k, k ∉ rest → after k = Function.update before i (content i) k) :
    (∀ k, k ∈ i :: rest → after k = content k) ∧ ∀ k, k ∉ i :: rest → after k = before k := by
  refine ⟨fun k hk => ?_, fun k hk => ?_⟩
  · by_cases hkr : k ∈ rest
    · exact hin k hkr
    · obtain rfl : k = i := (List.mem_cons.1 hk).resolve_right hkr
      exact (hout k hkr).trans (Function.update_self _ _ _)
  · rw [List.mem_cons, not_or] at hk
    exact (hout k hk.2).trans (Function.update_of_ne hk.1 _ _)

/-- The writer stores the remaining fields one by one. -/
theorem exec_stores (s : St J V) (j : J) (base : ℕ) (rest : List ι)
    (hpc : s.writer = .store j base rest) (hr : s.returned = none) :
    ∃ s', exec L s (List.replicate rest.length .write) = some s' ∧
      s' = s.writeAt s'.seg (.store j base []) ∧ s'.seg.seq = s.seg.seq ∧
      (∀ i, i ∈ rest → s'.seg.data i = L.content j i) ∧
      ∀ i, i ∉ rest → s'.seg.data i = s.seg.data i := by
  induction rest generalizing s with
  | nil => exact ⟨s, rfl, by cases s; simp_all [St.writeAt], rfl, by simp, fun _ _ => rfl⟩
  | cons i rest ih =>
    have hstep : step L s .write =
        some (s.writeAt (s.seg.storeField i (L.content j i)) (.store j base rest)) := by
      simp only [step, stepWrite, hpc]
    obtain ⟨s', hex, hs', hseq, hin, hout⟩ :=
      ih (s.writeAt (s.seg.storeField i (L.content j i)) (.store j base rest)) rfl rfl
    refine ⟨s', ?_, hs', hseq, eq_content_of_update hin hout⟩
    rw [List.length_cons, List.replicate_succ, exec, hstep]
    exact hex

/-- A write that runs alone stores what `Layout.write` computes, and is the last
completed write. -/
theorem exec_write_alone (s : St J V) (j : J) (hpc : s.writer = .idle) :
    ∃ s', exec L s (.beginWrite j :: List.replicate (L.stores.length + 4) .write) = some s' ∧
      s'.seg = L.write s.seg j ∧ s'.writer = .idle ∧ s'.reader = s.reader ∧
      s'.done = s.done ++ [j] := by
  set base := if s.seg.seq % 2 == 0 then s.seg.seq else s.seg.seq + 1 with hbase
  set s₀ : St J V :=
    { s.writeAt (s.seg.storeSeq (base + 1)) (.store j base L.stores) with begun := s.begun + 1 }
  obtain ⟨s₁, hex, hs₁, hseq₁, hin, -⟩ := exec_stores s₀ j base L.stores rfl rfl
  refine ⟨{ s₁.writeAt (s₁.seg.storeSeq (base + 2)) .idle with done := s₁.done ++ [j] }, ?_, ?_,
    rfl, ?_, ?_⟩
  · rw [show L.stores.length + 4 = 3 + (L.stores.length + 1) by omega,
      ← List.replicate_append_replicate, ← List.replicate_append_replicate, ← List.cons_append,
      exec_append]
    have h3 : exec L s (.beginWrite j :: List.replicate 3 .write) = some s₀ := by
      simp only [exec, List.replicate, step, hpc, Option.bind_some, stepWrite, St.writeAt]
      rfl
    rw [h3, Option.bind_some, exec_append, hex, Option.bind_some, hs₁]
    rfl
  · have hdata : s₁.seg.data = L.content j := funext fun i => hin i (L.mem_stores i)
    simp only [Layout.write, St.writeAt, Segment.storeSeq, hdata, ← hbase]
  · rw [hs₁]
    rfl
  · rw [hs₁]
    rfl

/-- The reader loads the remaining fields one by one. -/
theorem exec_loads (s : St J V) (left seq1 : ℕ) (got : ∀ i, V i) (rest : List ι)
    (hpc : s.reader = .copy left seq1 got rest) (hr : s.returned = none) :
    ∃ got', exec L s (List.replicate rest.length .read) =
        some (s.readAt (.copy left seq1 got' [])) ∧
      (∀ i, i ∈ rest → got' i = s.seg.data i) ∧ ∀ i, i ∉ rest → got' i = got i := by
  induction rest generalizing s got with
  | nil => exact ⟨got, by cases s; simp_all [St.readAt, exec], by simp, fun _ _ => rfl⟩
  | cons i rest ih =>
    have hstep : step L s .read =
        some (s.readAt (.copy left seq1 (Function.update got i (s.seg.data i)) rest)) := by
      simp only [step, stepRead, hpc]
    obtain ⟨got', hex, hin, hout⟩ :=
      ih (s.readAt (.copy left seq1 (Function.update got i (s.seg.data i)) rest)) _ rfl rfl
    refine ⟨got', ?_, eq_content_of_update hin hout⟩
    rw [List.length_cons, List.replicate_succ, exec, hstep]
    exact hex

/-- The reader retries until it returns. -/
theorem exec_retries (s : St J V) (left : ℕ) :
    ∃ n, exec L (s.readAt (.loadSeq left)) (List.replicate n .read) =
      some (s.respond (s.seg.read left)) := by
  induction left with
  | zero => exact ⟨1, rfl⟩
  | succ left ih =>
    have hstep : step L (s.readAt (.loadSeq (left + 1))) .read =
        some (if s.seg.seq = 0 then s.respond .neverWritten
          else if s.seg.seq % 2 ≠ 0 then s.readAt (.loadSeq left)
          else s.readAt (.copy left s.seg.seq (fun _ => default) L.loads)) := rfl
    by_cases h0 : s.seg.seq = 0
    · refine ⟨1, ?_⟩
      rw [if_pos h0] at hstep
      simp [exec, hstep, Segment.read, h0]
    by_cases hodd : s.seg.seq % 2 ≠ 0
    · obtain ⟨n, hn⟩ := ih
      refine ⟨n + 1, ?_⟩
      rw [if_neg h0, if_pos hodd] at hstep
      rw [List.replicate_succ, exec, hstep, Option.bind_some, hn]
      simp [Segment.read, h0, hodd]
    · rw [if_neg h0, if_neg hodd] at hstep
      obtain ⟨got, hex, hin, -⟩ := exec_loads (L := L)
        (s.readAt (.copy left s.seg.seq (fun _ => default) L.loads)) _ _ _ _ rfl rfl
      have hgot : got = s.seg.data := funext fun i => hin i (L.mem_loads i)
      refine ⟨L.loads.length + 1 + 1, ?_⟩
      rw [List.replicate_succ, exec, hstep, Option.bind_some, ← List.replicate_append_replicate,
        exec_append, hex, Option.bind_some, hgot]
      simp [exec, step, stepRead, St.readAt, St.respond, Segment.read, h0, hodd]

/-- A read that runs alone returns what `Segment.read` computes. -/
theorem exec_read_alone (s : St J V) (maxRetries : ℕ) (hpc : s.reader = .idle) :
    ∃ n, exec L s (.beginRead maxRetries :: List.replicate n .read) =
      some (s.respond (s.seg.read maxRetries)) := by
  have hbegin : step L s (.beginRead maxRetries) = some (s.readAt (.loadSeq maxRetries)) := by
    simp only [step, hpc]
  obtain ⟨n, hn⟩ := exec_retries (L := L) s maxRetries
  exact ⟨n, by rw [exec, hbegin]; exact hn⟩

/-- A successor that runs alone makes the segment readable, wherever its predecessor was killed. -/
theorem Run.exec_repair (ρ : Run L) {n : ℕ} (hb : (ρ.state n).begun < 2 ^ 62) (j : J) :
    ∃ s, exec L (ρ.state n)
        (.kill :: .beginWrite j :: List.replicate (L.stores.length + 4) .write) = some s ∧
      s.reader = (ρ.state n).reader ∧
      ∀ maxRetries, 0 < maxRetries → s.seg.read maxRetries = .value (L.content j) := by
  obtain ⟨s, hex, hseg, -, hreader, -⟩ := exec_write_alone (L := L)
    ((ρ.state n).writeAt (ρ.state n).seg .idle) j rfl
  refine ⟨s, hex, hreader, fun maxRetries hr => ?_⟩
  have hword := (ρ.inv n hb).writer.seq_le
  have hne : (L.write (ρ.state n).seg j).seq ≠ 0 := by
    simp only [Layout.write, wordSize, beq_iff_eq]
    split_ifs <;> omega
  rw [hseg]
  exact (read_write L _ j hr).trans (if_neg hne)

end Seqlock

end A1Bsw
