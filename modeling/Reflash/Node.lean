/-
  Reflash.Node

  The update loop of a node: one link end feeding one installer. Every datagram
  that the installer handles is answered with an acknowledgement; datagrams for
  other nodes are passed over. When nothing valid has come for a while the node
  jumps to its application. If that is refused for want of an intact application,
  the limit is lifted and the node keeps waiting for an update.
-/
import Reflash.Datagram.Acknowledgement
import Reflash.Install.Installer
import Reflash.Link.Endpoint

namespace Reflash

structure NodeConfig where
  /-- The node's own id. Without one it takes datagrams addressed to any node. -/
  id? : Option UInt8 := none
  /-- Silence, in milliseconds, after which the node jumps to its application. -/
  timeout : Nat := 15000
  deriving DecidableEq, Inhabited

namespace NodeConfig

/-- The limit that is never reached: the largest time a clock can show. -/
def never : Nat := 0xFFFFFFFFFFFFFFFF

/-- Whether a datagram for `target` is meant for another node. -/
def addressedElsewhere (config : NodeConfig) (target : Option UInt8) : Bool :=
  match config.id?, target with
  | some ours, some theirs => ours != theirs
  | _, _ => false

end NodeConfig

/-- What one step of the update loop came to. -/
inductive NodeEvent where
  | idle
  | discarded (reason : DiscardReason)
  /-- A packet was taken; its datagram is still incomplete. -/
  | accepted
  /-- A packet passed its checksum but was not taken. -/
  | rejected (fault : Fault)
  /-- A datagram completed with a wrong checksum. -/
  | spoiled (id : UInt32)
  /-- A datagram for another node. -/
  | notAddressed (id : UInt32)
  /-- A datagram was handled and answered. -/
  | handled (kind : Datagram.Kind) (id : UInt32) (result : Except Fault Unit)

structure Node (τ : Type) where
  endpoint : Endpoint τ
  installer : Installer := .uninitialized
  config : NodeConfig := {}
  /-- When something valid last came, in milliseconds. -/
  lastActivity : Option Nat := none

namespace Node

variable {τ : Type} [Transport τ]

/-- Starts the clock at the first call. -/
def awake (node : Node τ) (now : Nat) : Node τ :=
  { node with lastActivity := some (node.lastActivity.getD now) }

/-- Notes that something valid came. -/
def stirred (node : Node τ) (now : Nat) : Node τ :=
  { node with lastActivity := some now }

/-- Milliseconds since something valid came. -/
def silence (node : Node τ) (now : Nat) : Nat :=
  now - node.lastActivity.getD now

/-- Answers a datagram. A lost answer is made good by the sender trying again, so failing to
send it is no failure. -/
def acknowledge (node : Node τ) (kind : Datagram.Kind) (id : UInt32)
    (result : Except Fault Unit) : Node τ :=
  { node with endpoint :=
    (node.endpoint.send ((Acknowledgement.ofResult kind id result).toDatagram none)).2 }

/-- Jumps to the application when the node has been left alone for too long. -/
def checkInactivity (node : Node τ) (now : Nat) : Procedure (Except Fault Unit × Node τ) :=
  let node := node.awake now
  if node.silence now < node.config.timeout then pure (.ok (), node)
  else do
    let reason ← node.installer.failSafeJump
    -- The jump came back: it is tried again as soon as the node is next polled.
    if reason = .bootloaderFailure then pure (.error reason, node)
    else pure (.error reason, { node with config.timeout := NodeConfig.never })

/-- `checkInactivity`, as part of a step that otherwise came to `event`. -/
def checkThen (node : Node τ) (now : Nat) (event : NodeEvent) :
    Procedure (Except Fault NodeEvent × Node τ) := do
  match ← node.checkInactivity now with
  | (.error fault, node) => pure (.error fault, node)
  | (.ok (), node) => pure (.ok event, node)

/-- Hands a datagram to the installer and answers it. -/
def handle (g : Geometry) (node : Node τ) (datagram : Datagram) :
    Procedure (NodeEvent × Node τ) :=
  if node.config.addressedElsewhere datagram.header.target then
    pure (.notAddressed datagram.id, node)
  else do
    let (result, installer) ← node.installer.process g datagram
    pure (.handled datagram.kind datagram.id result,
      { node with installer }.acknowledge datagram.kind datagram.id result)

/-- One step of the update loop: takes at most one frame off the link. -/
def poll (g : Geometry) (node : Node τ) (now : Nat) :
    Procedure (Except Fault NodeEvent × Node τ) :=
  let node := node.awake now
  let (receipt, endpoint) := node.endpoint.receive
  let node := { node with endpoint }
  -- Only what gets as far as the reassembler counts as a sign of life.
  match receipt with
  | .silence | .cutShort _ => node.checkThen now .idle
  | .linkFailed _ => pure (.error .transportFailure, node)
  | .malformed _ => node.checkThen now (.discarded .malformed)
  | .corrupt _ => node.checkThen now (.discarded .crcMismatch)
  | .unrouted _ => node.checkThen now (.discarded .unrouted)
  | .refused _ fault => pure (.ok (.rejected fault), node.stirred now)
  | .accepted _ => pure (.ok .accepted, node.stirred now)
  | .spoiled _ datagram =>
    pure (.ok (.spoiled datagram.id),
      (node.acknowledge datagram.kind datagram.id (.error .crcMismatch)).stirred now)
  | .delivered _ datagram => do
    let (event, node) ← node.handle g datagram
    pure (.ok event, node.stirred now)

/-- Polls until a step comes to nothing or fails, at most `limit` times. -/
def pollAll (g : Geometry) (now : Nat) :
    Nat → Node τ → Procedure (List (Except Fault NodeEvent) × Node τ)
  | 0, node => pure ([], node)
  | limit + 1, node => do
    let (outcome, node) ← node.poll g now
    match outcome with
    | .ok .idle | .error _ => pure ([outcome], node)
    | .ok _ =>
      let (outcomes, node) ← pollAll g now limit node
      pure (outcome :: outcomes, node)

end Node

end Reflash
