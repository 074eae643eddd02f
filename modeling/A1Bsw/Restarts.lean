import A1Bsw.GuardRestart
import A1Bsw.Provenance

/-!
# A guard that is started again

systemd starts the guard again whenever it ends, and the control nodes go on
meanwhile. A `Life` is one of its lives, after any history of starts, closes
and crashes : before each of its reads the control nodes open, close and write
as they like.

The segment that the guard reads holds the writes through the handles that were
opened on it since its start, in their order, and nothing of the lives before
(`World.segs_run`). So the guard starts over (`guard_starts_over`) : it waits in
INIT until the last of these writes is fresh, its frames are made from the last
of them, and handles from before the restart are as good as none.
-/

namespace A1Bsw

open Seqlock

/-! ## Many writes -/

namespace Seqlock

variable {J ι : Type*} {V : ι → Type*} (L : Layout J ι V)

/-- The word of a new segment counts its writes in steps of two. -/
theorem foldl_write_seq {seg : Segment V} (hnew : seg.seq = 0) (js : List J)
    (hlt : js.length < 2 ^ 63) : (js.foldl L.write seg).seq = 2 * js.length := by
  induction js using List.reverseRecOn with
  | nil => exact hnew
  | append_singleton js j ih =>
    rw [List.length_append, List.length_singleton] at hlt ⊢
    have hseq := ih (Nat.lt_of_succ_lt hlt)
    rw [List.foldl_append, List.foldl_cons, List.foldl_nil, Layout.write, hseq]
    simp only [wordSize, beq_iff_eq]
    split_ifs <;> omega

/-- A read gives back the last of the writes. -/
theorem foldl_write_read [DecidableEq ι] [∀ i, Inhabited (V i)] {seg : Segment V}
    (hnew : seg.seq = 0) {js : List J} (hlt : js.length < 2 ^ 63) {maxRetries : ℕ}
    (hr : 0 < maxRetries) :
    (js.foldl L.write seg).read maxRetries =
      js.getLast?.elim .neverWritten fun j => .value (L.content j) := by
  rcases js.eq_nil_or_concat with rfl | ⟨init, j, rfl⟩
  · rw [List.foldl_nil, Segment.read, if_neg hr.ne', if_pos hnew]
    rfl
  · have hseq := foldl_write_seq L hnew _ hlt
    rw [List.concat_eq_append] at *
    rw [List.foldl_append, List.foldl_cons, List.foldl_nil, List.length_append,
      List.length_singleton] at hseq
    rw [List.foldl_append, List.foldl_cons, List.foldl_nil, read_write _ _ _ hr, hseq,
      if_neg (by omega), List.getLast?_concat]
    rfl

end Seqlock

namespace Shm

/-! ## What a guard can hear -/

/-- What the control nodes do. -/
def Event.OfNode : Event → Prop
  | .ctrlOpen _ _ | .ctrlClose _ | .ctrlWrite _ _ _ => True
  | _ => False

/-- A handle that was opened under the name of the guard since its start. -/
def Handle.Joins (c g : Handle) : Prop :=
  c.name = g.name ∧ g.openedAt < c.openedAt

instance (c g : Handle) : Decidable (c.Joins g) :=
  inferInstanceAs (Decidable (_ ∧ _))

namespace World

/-- The write of an event, if it is one through a handle that joins the guard. -/
def heard (g : Handle) (w : World) : Event → List CommandWrite
  | .ctrlWrite h cmd timestampNs =>
    match w.handles h with
    | some c => if c.Joins g then [⟨cmd, timestampNs⟩] else []
    | none => []
  | _ => []

/-- The writes of a sequence of events that the guard can hear. -/
def hears (g : Handle) (w : World) : List Event → List CommandWrite
  | [] => []
  | e :: es => w.heard g e ++ hears g (w.step e) es

/-- No handle has joined the guard. -/
def Deaf (g : Handle) (w : World) : Prop :=
  ∀ h c, w.handles h = some c → ¬c.Joins g

variable {w : World} {g : Handle}

/-- An event of a node leaves the guard, and changes its segment by what it can hear. -/
theorem Inv.step_node (h : Inv w) (hg : w.guard = some g) {e : Event} (he : e.OfNode) :
    (w.step e).guard = some g ∧
      (w.step e).segs g.seg = (w.heard g e).foldl CommandChannel.layout.write (w.segs g.seg) := by
  cases e with
  | ctrlOpen i name =>
    obtain ⟨hguard, hsegs⟩ := w.step_of_quiet (e := .ctrlOpen i name) trivial
    exact ⟨hguard.trans hg, congrFun hsegs _⟩
  | ctrlClose i => exact ⟨hg, rfl⟩
  | ctrlWrite i cmd timestampNs =>
    rcases hc : w.handles i with _ | c
    · simp only [step, act, heard, hc]
      exact ⟨hg, rfl⟩
    · simp only [step, act, heard, hc]
      refine ⟨hg, ?_⟩
      by_cases hjoin : c.Joins g
      · have hseg : c.seg = g.seg := (h.handle_iff hg hc).2 hjoin
        rw [if_pos hjoin, hseg, Function.update_self]
        rfl
      · have hseg : c.seg ≠ g.seg := mt (h.handle_iff hg hc).1 hjoin
        rw [if_neg hjoin, Function.update_of_ne (Ne.symm hseg)]
        rfl
  | _ => exact he.elim

/-- The guard's segment takes the writes that it can hear, and no others. -/
theorem Inv.segs_run (h : Inv w) (hg : w.guard = some g) {es : List Event}
    (hes : ∀ e ∈ es, e.OfNode) :
    (w.run es).guard = some g ∧
      (w.run es).segs g.seg = (w.hears g es).foldl CommandChannel.layout.write (w.segs g.seg) := by
  induction es generalizing w with
  | nil => exact ⟨hg, rfl⟩
  | cons e es ih =>
    obtain ⟨hguard, hseg⟩ := h.step_node hg (hes e List.mem_cons_self)
    obtain ⟨hlast, hsegs⟩ := ih (inv_step h e) hguard fun e' he' =>
      hes e' (List.mem_cons_of_mem _ he')
    refine ⟨hlast, hsegs.trans ?_⟩
    rw [hseg, hears, List.foldl_append]

/-- Nothing is heard without a handle that joins the guard, and none comes to be without an
`open` of its name. -/
theorem Deaf.run (h : w.Deaf g) {es : List Event} (hes : ∀ e ∈ es, e.OfNode)
    (hopen : ∀ i, .ctrlOpen i g.name ∉ es) : w.hears g es = [] ∧ (w.run es).Deaf g := by
  induction es generalizing w with
  | nil => exact ⟨rfl, h⟩
  | cons e es ih =>
    have hnone : w.heard g e = [] := by
      cases e with
      | ctrlWrite i cmd timestampNs =>
        rcases hc : w.handles i with _ | c
        · simp only [heard, hc]
        · simp only [heard, hc, if_neg (h i c hc)]
      | _ => rfl
    have hstep : (w.step e).Deaf g := by
      cases e with
      | ctrlOpen i name =>
        have hname : name ≠ g.name := by
          rintro rfl
          exact hopen i List.mem_cons_self
        rcases hn : w.names name with _ | seg
        · simpa only [Deaf, step, act, hn] using h
        · intro j c hc hjoin
          simp only [step, act, hn, Function.update_apply] at hc
          split_ifs at hc
          · cases hc
            exact hname hjoin.1
          · exact h j c hc hjoin
      | ctrlClose i =>
        intro j c hc
        simp only [step, act, Function.update_apply] at hc
        split_ifs at hc
        exact h j c hc
      | ctrlWrite i cmd timestampNs =>
        rcases hc : w.handles i with _ | c <;> simpa only [Deaf, step, act, hc] using h
      | _ => exact (hes _ List.mem_cons_self).elim
    obtain ⟨hlater, hlast⟩ := ih hstep (fun e' he' => hes e' (List.mem_cons_of_mem _ he'))
      fun i hi => hopen i (List.mem_cons_of_mem _ hi)
    exact ⟨by rw [hears, hnone, hlater, List.append_nil], hlast⟩

end World

/-! ## A life of the guard -/

/-- A start of the guard after any history, and what the control nodes do before each of its
reads. -/
structure Life where
  before : List Event
  name : String
  down : (World.run {} before).guard = none
  nodes : ℕ → List Event
  ofNode : ∀ n, ∀ e ∈ nodes n, e.OfNode

namespace Life

variable (l : Life)

/-- The shared memory right after the start. -/
def started : World :=
  (World.run {} l.before).step (.guardStart l.name)

/-- The handle that the guard has. -/
def handle : Handle where
  name := l.name
  seg := (World.run {} l.before).nextSeg
  openedAt := (World.run {} l.before).clock

/-- The shared memory at the read of cycle `n`. -/
def world : ℕ → World
  | 0 => l.started.run (l.nodes 0)
  | n + 1 => (world n).run (l.nodes (n + 1))

/-- The writes before the read of cycle `n` that the guard can hear. -/
def heard : ℕ → List CommandWrite
  | 0 => l.started.hears l.handle (l.nodes 0)
  | n + 1 => heard n ++ (l.world n).hears l.handle (l.nodes (n + 1))

theorem inv_started : World.Inv l.started :=
  World.inv_step (World.inv_run World.inv_init l.before) _

/-- The guard gets a new segment, and no handle is on it. -/
theorem started_spec : l.started.guard = some l.handle ∧
    l.started.segs l.handle.seg = CommandChannel.fresh ∧ l.started.Deaf l.handle := by
  have hinv := World.inv_run World.inv_init l.before
  have hstart : l.started = { World.run {} l.before with
      names := Function.update (World.run {} l.before).names l.name (some l.handle.seg)
      segs := Function.update (World.run {} l.before).segs l.handle.seg CommandChannel.fresh
      nextSeg := (World.run {} l.before).nextSeg + 1
      guard := some l.handle
      clock := (World.run {} l.before).clock + 1 } := by
    simp only [started, World.step, World.act, l.down, World.channelCreate_eq]
    rfl
  rw [hstart]
  refine ⟨rfl, Function.update_self _ _ _, fun h c hc hjoin => ?_⟩
  exact ((hinv.handles_lt hc).2.trans hjoin.2).false

theorem world_spec (n : ℕ) : World.Inv (l.world n) ∧ (l.world n).guard = some l.handle ∧
    (l.world n).segs l.handle.seg =
      (l.heard n).foldl CommandChannel.layout.write CommandChannel.fresh := by
  induction n with
  | zero =>
    obtain ⟨hguard, hfresh, -⟩ := l.started_spec
    obtain ⟨hg, hseg⟩ := l.inv_started.segs_run hguard (l.ofNode 0)
    exact ⟨World.inv_run l.inv_started _, hg, hfresh ▸ hseg⟩
  | succ n ih =>
    obtain ⟨hinv, hguard, hsegs⟩ := ih
    obtain ⟨hg, hseg⟩ := hinv.segs_run hguard (l.ofNode (n + 1))
    exact ⟨World.inv_run hinv _, hg, by rw [world, heard, hseg, hsegs, List.foldl_append]⟩

/-- The guard reads the last of the writes that it can hear. -/
theorem guardRead_eq {n : ℕ} (hlt : (l.heard n).length < 2 ^ 63) {maxRetries : ℕ}
    (hr : 0 < maxRetries) (nowNs : ℤ) : (l.world n).guardRead maxRetries nowNs =
      some (.ok ((l.heard n).getLast?.map fun w => (w.cmd.stored, ageS nowNs w.storedNs))) := by
  obtain ⟨-, hguard, hseg⟩ := l.world_spec n
  rw [World.guardRead, hguard, Option.map_some, hseg, CommandChannel.read,
    foldl_write_read _ rfl hlt hr]
  rcases (l.heard n).getLast? with _ | w <;> rfl

end Life

end Shm

/-! ## The run of a life -/

namespace GuardRun

open Shm

variable {a : Args} {ρ : GuardRun a}

variable (ρ) in
/-- The command reads of the run are those of a life, the clock of cycle `n` taken before. -/
structure Lives (l : Life) (nowNs : ℕ → ℤ) : Prop where
  reads : ∀ n, (l.world n).guardRead 1000 (nowNs n) = some (ρ.input n).cmdRead
  now_le : ∀ n, ρ.now n ≤ seconds (nowNs n)
  short : ∀ n, (l.heard n).length < 2 ^ 63
  fit : ∀ n, ∀ w ∈ l.heard n, -2 ^ 63 ≤ w.timestampNs

variable {l : Life} {nowNs : ℕ → ℤ}

theorem Lives.cmdRead_eq (h : ρ.Lives l nowNs) (n : ℕ) : (ρ.input n).cmdRead =
    .ok ((l.heard n).getLast?.map fun w => (w.cmd.stored, ageS (nowNs n) w.storedNs)) := by
  have hread := h.reads n
  rw [l.guardRead_eq (h.short n) (by decide), Option.some.injEq] at hread
  exact hread.symm

/-- A cycle that can hear a write has the last one. -/
theorem Lives.sensed (h : ρ.Lives l nowNs) {n : ℕ} {w : CommandWrite}
    (hw : (l.heard n).getLast? = some w) : (ρ.sensed n).lastValidCmd = w.cmd.stored ∧
      (ρ.sensed n).lastCmdMono = some (ρ.now n - ageS (nowNs n) w.storedNs) := by
  have hread := h.cmdRead_eq n
  rw [hw, Option.map_some] at hread
  rcases (ρ.loop n).sense_command (ρ.input n) with ⟨cmd, cmdAge, hgot, hcmd, hmono⟩ | ⟨hnone, -, -⟩
  · rw [hread] at hgot
    cases hgot
    exact ⟨hcmd, hmono⟩
  · exact absurd hread (hnone _)

end GuardRun

end A1Bsw
