/-
  Reflash.Exchange

  A session and a node talking to each other. In each exchange the session's
  frames go out, the node takes what comes through until it has nothing more to
  do, and its answers go back. When nothing comes back the session times out.
-/
import Reflash.Link.Channel
import Reflash.Node
import Reflash.Session.Drain

namespace Reflash

/-- What befalls one exchange. -/
structure Disturbance where
  /-- Damage to what the session sends. -/
  outward : List Damage := []
  /-- Damage to what the node answers. -/
  back : List Damage := []
  /-- Flash requests of the node that are planned to fail. -/
  faults : List PlannedFault := []
  deriving Inhabited

structure Exchange (g : Geometry) where
  session : Session
  node : Node Loopback
  device : Device g

namespace Exchange

variable {g : Geometry}

/-- Most steps a node takes in one exchange. -/
def stepLimit : Nat := 400

/-- What happened in one exchange. -/
structure Report (g : Geometry) where
  /-- What the session sent. -/
  sent : Bytes
  /-- What of it came through. -/
  arrived : Bytes
  events : List (Except Fault NodeEvent)
  /-- What the node answered. -/
  reply : Bytes
  /-- What of it came through. -/
  returned : Bytes
  /-- Session and node when the answer is on its way. -/
  after : Exchange g

/-- Carries what the session has to say to the node, and the answers back. -/
def transfer (exchange : Exchange g) (disturbance : Disturbance) (now : Nat) : Report g :=
  let (due, session) := exchange.session.collect
  let sent := due.getD []
  let arrived := disturbance.outward.foldl Damage.apply sent
  let flash := disturbance.faults.foldl
    (fun flash planned => flash.failAfter planned.operation planned.skip) exchange.device.flash
  let node := { exchange.node with
    endpoint.link := exchange.node.endpoint.link.feed arrived }
  let ((events, node), device) :=
    (node.pollAll g now stepLimit).run { exchange.device with flash }
  let reply := node.endpoint.link.outgoing
  let node := { node with endpoint.link := node.endpoint.link.clearSent }
  { sent, arrived, events, reply
    returned := disturbance.back.foldl Damage.apply reply
    after := { session, node, device } }

/-- Gives the session what came back, or lets it time out. -/
def conclude (exchange : Exchange g) (returned : Bytes) : Except SessionError (Exchange g) :=
  (if returned.isEmpty then exchange.session.timeOut else exchange.session.feed returned).map
    fun session => { exchange with session }

/-- How a run of exchanges ended. -/
inductive Ending where
  /-- The session has ended. -/
  | ended
  /-- No exchanges were left. -/
  | limit
  | failed (error : SessionError)
  deriving DecidableEq

/-- Runs exchanges, each disturbed as planned and `interval` milliseconds after the one before,
until the session ends or fails. -/
def run (interval : Nat) : List Disturbance → Nat → Exchange g →
    List (Report g) × Ending × Exchange g
  | [], _, exchange => ([], .limit, exchange)
  | disturbance :: rest, now, exchange =>
    let report := exchange.transfer disturbance now
    if report.after.session.ended then ([report], .ended, report.after)
    else match report.after.conclude report.returned with
      | .error error => ([report], .failed error, report.after)
      | .ok exchange =>
        let (reports, ending, last) := run interval rest (now + interval) exchange
        (report :: reports, ending, last)

end Exchange

end Reflash
