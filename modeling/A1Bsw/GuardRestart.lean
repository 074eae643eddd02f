import A1Bsw.Protocol

/-!
# Restarts of the guard

Shared memory is a table from names to segments. Unlinking a name removes the
entry only, so a handle keeps the segment it was opened on. The guard creates
the segment of the command channel anew on every start, after unlinking a
leftover one; a control node opens the name and keeps its handle.

`World` records when each handle was opened and when each write completed, in
numbers of events. A write through a handle is what the running guard reads
next exactly when the handle was opened, under the guard's name, since that
guard was started (`surviving_handle_heard_iff`). A handle from before the
restart writes into the orphaned segment. The guard never reads a command
from before its start.
-/

namespace A1Bsw

namespace Shm

open Seqlock

/-- A handle on a segment, the name it was opened under, and the instant. -/
structure Handle where
  name : String
  seg : ℕ
  openedAt : ℕ

/-- A completed write : the segment, the instant and the content. -/
structure Logged where
  seg : ℕ
  writtenAt : ℕ
  write : CommandWrite

/-- The shared memory, the processes' handles on it, and the history. -/
structure World where
  names : String → Option ℕ := fun _ => none
  segs : ℕ → Segment CommandField.Val := fun _ => CommandChannel.fresh
  nextSeg : ℕ := 0
  /-- The handle of the running guard. -/
  guard : Option Handle := none
  /-- The handles of the control nodes that are open. -/
  handles : ℕ → Option Handle := fun _ => none
  clock : ℕ := 0
  log : List Logged := []

/-- What the processes do. -/
inductive Event where
  | guardStart (name : String)
  | guardClose
  | guardCrash
  | guardRead (maxRetries : ℕ) (nowNs : ℤ)
  | ctrlOpen (h : ℕ) (name : String)
  | ctrlClose (h : ℕ)
  | ctrlWrite (h : ℕ) (cmd : Command) (timestampNs : ℤ)

/-- Events that leave the segments, and which guard runs. -/
def Event.Quiet : Event → Prop
  | .guardRead _ _ | .ctrlOpen _ _ | .ctrlClose _ => True
  | _ => False

namespace World

/-- `SharedMemory(name, create=True)` : fails when the name exists. -/
def create (w : World) (name : String) : Option World :=
  match w.names name with
  | some _ => none
  | none => some { w with
      names := Function.update w.names name (some w.nextSeg)
      segs := Function.update w.segs w.nextSeg CommandChannel.fresh
      nextSeg := w.nextSeg + 1 }

/-- `SharedMemory.unlink`. -/
def unlink (w : World) (name : String) : World :=
  { w with names := Function.update w.names name none }

/-- `CommandChannel.create` : a leftover segment is unlinked and the name created again. -/
def channelCreate (w : World) (name : String) : Option World :=
  match w.create name with
  | some w' => some w'
  | none => (w.unlink name).create name

/-- `CommandChannel.read` by the running guard. -/
def guardRead (w : World) (maxRetries : ℕ) (nowNs : ℤ) :
    Option (Except TornReadError (Option (Command × ℚ))) :=
  w.guard.map fun g => CommandChannel.read (w.segs g.seg) maxRetries nowNs

/-- An event. The service manager runs one guard at a time, and what fails changes nothing. -/
def act (w : World) : Event → World
  | .guardStart name =>
    match w.guard, w.channelCreate name with
    | none, some w' => { w' with guard := some ⟨name, w.nextSeg, w.clock⟩ }
    | _, _ => w
  | .guardClose =>
    match w.guard with
    | some g => { w.unlink g.name with guard := none }
    | none => w
  | .guardCrash => { w with guard := none }
  | .guardRead _ _ => w
  | .ctrlOpen h name =>
    match w.names name with
    | some seg => { w with handles := Function.update w.handles h (some ⟨name, seg, w.clock⟩) }
    | none => w
  | .ctrlClose h => { w with handles := Function.update w.handles h none }
  | .ctrlWrite h cmd timestampNs =>
    match w.handles h with
    | some c => { w with
        segs := Function.update w.segs c.seg
          (CommandChannel.write (w.segs c.seg) cmd timestampNs)
        log := w.log ++ [⟨c.seg, w.clock, ⟨cmd, timestampNs⟩⟩] }
    | none => w

/-- An event, and the instant it takes. -/
def step (w : World) (e : Event) : World :=
  { w.act e with clock := w.clock + 1 }

/-- A sequence of events. -/
def run (w : World) (es : List Event) : World :=
  es.foldl step w

/-! ## The invariant -/

/-- What the names, the handles, the segments and the log say about each other. -/
structure Inv (w : World) : Prop where
  names_lt : ∀ {n i}, w.names n = some i → i < w.nextSeg
  names_inj : ∀ {n n' i}, w.names n = some i → w.names n' = some i → n = n'
  handles_lt : ∀ {h c}, w.handles h = some c → c.seg < w.nextSeg ∧ c.openedAt < w.clock
  guard_named : ∀ {g}, w.guard = some g → w.names g.name = some g.seg ∧ g.openedAt < w.clock
  /-- A handle is on the running guard's segment when it was opened under its name since. -/
  handle_iff : ∀ {g h c}, w.guard = some g → w.handles h = some c →
    (c.seg = g.seg ↔ c.name = g.name ∧ g.openedAt < c.openedAt)
  log_lt : ∀ r ∈ w.log, r.seg < w.nextSeg
  log_since : ∀ {g}, w.guard = some g → ∀ r ∈ w.log, r.seg = g.seg → g.openedAt < r.writtenAt
  seq_even : ∀ i, (w.segs i).seq % 2 = 0 ∧ (w.segs i).seq < wordSize
  /-- A segment was never written, or holds a logged write. -/
  content : ∀ i, (w.segs i).seq = 0 ∨
    ∃ r ∈ w.log, r.seg = i ∧ (w.segs i).data = CommandChannel.payload r.write

theorem inv_init : Inv {} := by
  constructor <;> simp [CommandChannel.fresh, wordSize]

/-- A start gives the name a fresh segment, leftover or not. -/
theorem channelCreate_eq (w : World) (name : String) :
    w.channelCreate name = some { w with
      names := Function.update w.names name (some w.nextSeg)
      segs := Function.update w.segs w.nextSeg CommandChannel.fresh
      nextSeg := w.nextSeg + 1 } := by
  rcases h : w.names name with _ | i
  · simp [channelCreate, create, h]
  · simp [channelCreate, create, unlink, h]

/-- The clock runs, nothing else changes. -/
theorem Inv.tick {w : World} (h : Inv w) : Inv { w with clock := w.clock + 1 } :=
  { h with
    handles_lt := fun hc => ⟨(h.handles_lt hc).1, (h.handles_lt hc).2.trans (Nat.lt_succ_self _)⟩
    guard_named := fun hg =>
      ⟨(h.guard_named hg).1, (h.guard_named hg).2.trans (Nat.lt_succ_self _)⟩ }

/-- An event that fails only takes an instant. -/
theorem Inv.step_of_act_eq {w : World} (h : Inv w) {e : Event} (hact : w.act e = w) :
    Inv (w.step e) := by
  rw [step, hact]
  exact h.tick

theorem Inv.guardStart {w : World} (h : Inv w) (name : String) :
    Inv (w.step (.guardStart name)) := by
  rcases hg : w.guard with _ | g
  swap
  · exact h.step_of_act_eq (by simp [act, hg])
  simp only [step, act, hg, channelCreate_eq]
  refine ⟨?_, ?_, ?_, ?_, ?_, ?_, ?_, ?_, ?_⟩
  · intro n i hn
    dsimp only at hn ⊢
    rw [Function.update_apply] at hn
    split_ifs at hn
    · exact (Option.some.inj hn).ge.trans_lt (Nat.lt_succ_self _)
    · exact (h.names_lt hn).trans (Nat.lt_succ_self _)
  · intro n n' i hn hn'
    dsimp only at hn hn'
    rw [Function.update_apply] at hn hn'
    split_ifs at hn hn' with h1 h2 h2
    · exact h1.trans h2.symm
    · exact absurd (Option.some.inj hn) (h.names_lt hn').ne'
    · exact absurd (Option.some.inj hn') (h.names_lt hn).ne'
    · exact h.names_inj hn hn'
  · intro j c hc
    exact ⟨(h.handles_lt hc).1.trans (Nat.lt_succ_self _),
      (h.handles_lt hc).2.trans (Nat.lt_succ_self _)⟩
  · intro g hg
    cases hg
    exact ⟨Function.update_self _ _ _, Nat.lt_succ_self _⟩
  · -- No handle is on the new segment, and none was opened since.
    intro g j c hg hc
    cases hg
    obtain ⟨hseg, hopened⟩ := h.handles_lt hc
    exact iff_of_false hseg.ne fun hsince => hsince.2.not_gt hopened
  · exact fun r hr => (h.log_lt r hr).trans (Nat.lt_succ_self _)
  · intro g hg r hr hseg
    cases hg
    exact absurd hseg (h.log_lt r hr).ne
  · intro i
    dsimp only
    rw [Function.update_apply]
    split_ifs
    · decide
    · exact h.seq_even i
  · intro i
    dsimp only
    rw [Function.update_apply]
    split_ifs
    · exact .inl rfl
    · exact h.content i

theorem Inv.guardClose {w : World} (h : Inv w) : Inv (w.step .guardClose) := by
  rcases hg : w.guard with _ | g
  · exact h.step_of_act_eq (by simp [act, hg])
  · simp only [step, act, hg, unlink]
    have hkeep : ∀ {n i}, Function.update w.names g.name none n = some i → w.names n = some i := by
      intro n i hn
      rw [Function.update_apply] at hn
      split_ifs at hn
      exact hn
    exact { h.tick with
      names_lt := fun hn => h.names_lt (hkeep hn)
      names_inj := fun hn hn' => h.names_inj (hkeep hn) (hkeep hn')
      guard_named := by simp
      handle_iff := by simp
      log_since := by simp }

theorem Inv.guardCrash {w : World} (h : Inv w) : Inv (w.step .guardCrash) := by
  simp only [step, act]
  exact { h.tick with guard_named := by simp, handle_iff := by simp, log_since := by simp }

theorem Inv.ctrlOpen {w : World} (h : Inv w) (i : ℕ) (name : String) :
    Inv (w.step (.ctrlOpen i name)) := by
  rcases hn : w.names name with _ | seg
  · exact h.step_of_act_eq (by simp [act, hn])
  · simp only [step, act, hn]
    exact { h.tick with
      handles_lt := by
        intro j c hc
        dsimp only at hc ⊢
        rw [Function.update_apply] at hc
        split_ifs at hc
        · cases hc
          exact ⟨h.names_lt hn, Nat.lt_succ_self _⟩
        · exact h.tick.handles_lt hc
      handle_iff := by
        intro g j c hg hc
        dsimp only at hc ⊢
        rw [Function.update_apply] at hc
        split_ifs at hc
        · cases hc
          obtain ⟨hname, hopened⟩ := h.guard_named hg
          constructor
          · -- Only the guard's name leads to the guard's segment.
            rintro rfl
            exact ⟨h.names_inj hn hname, hopened⟩
          · rintro ⟨rfl, -⟩
            exact Option.some.inj (hn.symm.trans hname)
        · exact h.handle_iff hg hc }

theorem Inv.ctrlClose {w : World} (h : Inv w) (i : ℕ) : Inv (w.step (.ctrlClose i)) := by
  simp only [step, act]
  have hkeep : ∀ {j c}, Function.update w.handles i none j = some c → w.handles j = some c := by
    intro j c hc
    rw [Function.update_apply] at hc
    split_ifs at hc
    exact hc
  exact { h.tick with
    handles_lt := fun hc => h.tick.handles_lt (hkeep hc)
    handle_iff := fun hg hc => h.handle_iff hg (hkeep hc) }

theorem Inv.ctrlWrite {w : World} (h : Inv w) (i : ℕ) (cmd : Command) (timestampNs : ℤ) :
    Inv (w.step (.ctrlWrite i cmd timestampNs)) := by
  rcases hc : w.handles i with _ | c
  · exact h.step_of_act_eq (by simp [act, hc])
  · simp only [step, act, hc]
    exact { h.tick with
      log_lt := by
        intro r hr
        rcases List.mem_append.1 hr with hr | hr
        · exact h.log_lt r hr
        · rw [List.mem_singleton.1 hr]
          exact (h.handles_lt hc).1
      log_since := by
        intro g hg r hr hseg
        rcases List.mem_append.1 hr with hr | hr
        · exact h.log_since hg r hr hseg
        · rw [List.mem_singleton.1 hr]
          exact (h.guard_named hg).2
      seq_even := by
        intro j
        dsimp only
        rw [Function.update_apply]
        split_ifs
        · exact write_seq CommandChannel.layout (w.segs c.seg) ⟨cmd, timestampNs⟩
        · exact h.seq_even j
      content := by
        intro j
        dsimp only
        rw [Function.update_apply]
        split_ifs with hj
        · subst hj
          exact .inr ⟨_, List.mem_append_right _ (List.mem_singleton_self _), rfl, rfl⟩
        · refine (h.content j).imp_right ?_
          rintro ⟨r, hr, hdata⟩
          exact ⟨r, List.mem_append_left _ hr, hdata⟩ }

theorem inv_step {w : World} (h : Inv w) (e : Event) : Inv (w.step e) := by
  cases e with
  | guardStart name => exact h.guardStart name
  | guardClose => exact h.guardClose
  | guardCrash => exact h.guardCrash
  | guardRead maxRetries nowNs => exact h.tick
  | ctrlOpen i name => exact h.ctrlOpen i name
  | ctrlClose i => exact h.ctrlClose i
  | ctrlWrite i cmd timestampNs => exact h.ctrlWrite i cmd timestampNs

/-- The invariant holds after every sequence of events. -/
theorem inv_run {w : World} (h : Inv w) (es : List Event) : Inv (w.run es) := by
  induction es generalizing w with
  | nil => exact h
  | cons e es ih => exact ih (inv_step h e)

/-! ## What the guard reads -/

theorem step_of_quiet (w : World) {e : Event} (he : e.Quiet) :
    (w.step e).guard = w.guard ∧ (w.step e).segs = w.segs := by
  cases e with
  | guardRead maxRetries nowNs => exact ⟨rfl, rfl⟩
  | ctrlOpen i name =>
    rcases hn : w.names name with _ | seg <;> simp [step, act, hn]
  | ctrlClose i => exact ⟨rfl, rfl⟩
  | _ => exact he.elim

/-- Quiet events change nothing that the guard reads. -/
theorem guardRead_run_of_quiet (w : World) {es : List Event} (hes : ∀ e ∈ es, e.Quiet)
    (maxRetries : ℕ) (nowNs : ℤ) :
    (w.run es).guardRead maxRetries nowNs = w.guardRead maxRetries nowNs := by
  induction es generalizing w with
  | nil => rfl
  | cons e es ih =>
    obtain ⟨hguard, hsegs⟩ := w.step_of_quiet (hes e (by simp))
    refine (ih (w.step e) fun e' he' => hes e' (by simp [he'])).trans ?_
    rw [guardRead, guardRead, hguard, hsegs]

/-- A write through a handle changes the segment of the handle. -/
theorem guardRead_step_write {w : World} {g c : Handle} {h : ℕ} (hg : w.guard = some g)
    (hc : w.handles h = some c) (cmd : Command) (timestampNs : ℤ) (maxRetries : ℕ) (nowNs : ℤ) :
    (w.step (.ctrlWrite h cmd timestampNs)).guardRead maxRetries nowNs =
      some (CommandChannel.read
        (if c.seg = g.seg then CommandChannel.write (w.segs c.seg) cmd timestampNs
          else w.segs g.seg) maxRetries nowNs) := by
  simp only [guardRead, step, act, hc, hg, Option.map_some]
  split_ifs with hseg
  · rw [hseg, Function.update_self]
  · rw [Function.update_of_ne (Ne.symm hseg)]

/-- A write through a handle on the guard's segment is read back, unless the word wraps. -/
theorem read_write_eq {seg : Segment CommandField.Val} (heven : seg.seq % 2 = 0)
    (hlt : seg.seq < wordSize) (cmd : Command) (timestampNs : ℤ) {maxRetries : ℕ}
    (hr : 0 < maxRetries) (nowNs : ℤ) :
    CommandChannel.read (CommandChannel.write seg cmd timestampNs) maxRetries nowNs =
      .ok (if seg.seq = wordSize - 2 then none
        else some (cmd.stored, ageS nowNs (cInt64 timestampNs))) := by
  rw [CommandChannel.read, CommandChannel.write, read_write _ _ _ hr,
    if_congr (write_seq_eq_zero_iff _ _ heven hlt) rfl rfl]
  split_ifs <;> rfl

/-- A segment that reads back a command holds a logged write. -/
theorem Inv.read_eq {w : World} (h : Inv w) {i maxRetries : ℕ} {nowNs : ℤ} {cmd : Command} {age : ℚ}
    (hread : CommandChannel.read (w.segs i) maxRetries nowNs = .ok (some (cmd, age))) :
    ∃ r ∈ w.log, r.seg = i ∧ cmd = r.write.cmd.stored ∧ age = ageS nowNs r.write.storedNs := by
  rw [CommandChannel.read, Segment.read] at hread
  split_ifs at hread with hr hzero hodd
  · simp [CommandChannel.result] at hread
  · simp [CommandChannel.result] at hread
  · simp [CommandChannel.result] at hread
  · obtain ⟨r, hr, hseg, hdata⟩ := (h.content i).resolve_left hzero
    rw [hdata, CommandChannel.result_payload] at hread
    cases hread
    exact ⟨r, hr, hseg, rfl, rfl⟩

end World

open World in
/-- What a control node writes is what the running guard reads next exactly when the node's
handle was opened under the guard's name since that guard was started. Whatever the guard
reads was written since then. -/
theorem surviving_handle_heard_iff (es : List Event) {g : Handle}
    (hg : (run {} es).guard = some g) :
    (∀ {h : ℕ} {c : Handle}, (run {} es).handles h = some c →
      ((∀ cmd timestampNs later maxRetries nowNs, (∀ e ∈ later, e.Quiet) → 0 < maxRetries →
        (run {} (es ++ .ctrlWrite h cmd timestampNs :: later)).guardRead maxRetries nowNs =
          some (.ok (some (cmd.stored, ageS nowNs (cInt64 timestampNs))))) ↔
        c.name = g.name ∧ g.openedAt < c.openedAt ∧
          ((run {} es).segs g.seg).seq ≠ wordSize - 2)) ∧
    ∀ {maxRetries nowNs cmd age},
      (run {} es).guardRead maxRetries nowNs = some (.ok (some (cmd, age))) →
        ∃ r ∈ (run {} es).log, g.openedAt < r.writtenAt ∧ cmd = r.write.cmd.stored ∧
          age = ageS nowNs r.write.storedNs := by
  have hinv := inv_run inv_init es
  obtain ⟨heven, hlt⟩ := hinv.seq_even g.seg
  refine ⟨fun {h c} hc => ?_, fun {maxRetries nowNs cmd age} hread => ?_⟩
  · have hrun : ∀ cmd timestampNs later maxRetries nowNs, (∀ e ∈ later, e.Quiet) →
        (run {} (es ++ .ctrlWrite h cmd timestampNs :: later)).guardRead maxRetries nowNs =
          some (CommandChannel.read
            (if c.seg = g.seg then CommandChannel.write ((run {} es).segs c.seg) cmd timestampNs
              else (run {} es).segs g.seg) maxRetries nowNs) := by
      intro cmd timestampNs later maxRetries nowNs hquiet
      rw [run, List.foldl_append, List.foldl_cons]
      exact (guardRead_run_of_quiet _ hquiet maxRetries nowNs).trans
        (guardRead_step_write hg hc cmd timestampNs maxRetries nowNs)
    rw [← and_assoc, ← hinv.handle_iff hg hc]
    constructor
    · intro hheard
      have hseg : c.seg = g.seg := by
        by_contra hne
        -- The guard's segment is not written, so it cannot hold two different commands.
        have h1 := hheard {} 0 [] 1 0 (by simp) one_pos
        have h2 := hheard { epsEn := true } 0 [] 1 0 (by simp) one_pos
        rw [hrun _ _ _ _ _ (by simp), if_neg hne] at h1 h2
        have h12 := h1.symm.trans h2
        simp [Command.stored_eq] at h12
      refine ⟨hseg, fun hwrap => ?_⟩
      have h1 := hheard {} 0 [] 1 0 (by simp) one_pos
      rw [hrun _ _ _ _ _ (by simp), if_pos hseg, hseg, read_write_eq heven hlt _ _ one_pos,
        if_pos hwrap] at h1
      simp at h1
    · rintro ⟨hseg, hwrap⟩ cmd timestampNs later maxRetries nowNs hquiet hr
      rw [hrun _ _ _ _ _ hquiet, if_pos hseg, hseg, read_write_eq heven hlt _ _ hr, if_neg hwrap]
  · rw [guardRead, hg, Option.map_some, Option.some.injEq] at hread
    obtain ⟨r, hr, hseg, hcmd, hage⟩ := hinv.read_eq hread
    exact ⟨r, hr, hinv.log_since hg r hr hseg, hcmd, hage⟩

/-- A control node that keeps its handle over a crash of the guard. -/
def restartEvents : List Event :=
  [.guardStart "a1_can_guard_cmd", .ctrlOpen 0 "a1_can_guard_cmd", .guardCrash,
    .guardStart "a1_can_guard_cmd"]

open World in
/-- After the restart the node writes a command, and the guard reads that none was written. -/
theorem surviving_handle_not_heard :
    (run {} restartEvents).guard = some ⟨"a1_can_guard_cmd", 1, 3⟩ ∧
      (run {} restartEvents).handles 0 = some ⟨"a1_can_guard_cmd", 0, 1⟩ ∧
      (run {} (restartEvents ++ [.ctrlWrite 0 {} 0])).guardRead 1000 0 = some (.ok none) :=
  ⟨rfl, rfl, rfl⟩

open World in
theorem surviving_handle_heard_iff_restart :
    ¬∀ cmd timestampNs later maxRetries nowNs, (∀ e ∈ later, e.Quiet) → 0 < maxRetries →
      (run {} (restartEvents ++ .ctrlWrite 0 cmd timestampNs :: later)).guardRead maxRetries nowNs =
        some (.ok (some (cmd.stored, ageS nowNs (cInt64 timestampNs)))) := by
  have hguard : (run {} restartEvents).guard = some ⟨"a1_can_guard_cmd", 1, 3⟩ := rfl
  have hhandle : (run {} restartEvents).handles 0 = some ⟨"a1_can_guard_cmd", 0, 1⟩ := rfl
  rw [(surviving_handle_heard_iff restartEvents hguard).1 hhandle]
  simp

end Shm

end A1Bsw
