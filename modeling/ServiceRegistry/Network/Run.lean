/-
  A network at work.

  A step runs until nothing but timers is left: calls are answered as they are made, tasks take
  turns in the order of the queue, and sweepers answer what they have received.  A client's call
  that rests lets everything else come to an end first.  The amount of work is bounded by `fuel`;
  when it is used up, calls stay without an answer.

    * `Network.deliver`   a call and its reply;
    * `Network.attend`    a client's request up to its answer;
    * `Network.settle`    everything else, until it rests.
-/
import ServiceRegistry.Network.Basic

namespace ServiceRegistry

open Http

namespace Network

/-- Notes the status of the answer to an arrival. -/
def noteStatus (i : Nat) (status : Nat) (n : Network) : Network :=
  { n with arrivals := n.arrivals.modify i fun a => { a with status := some status } }

/-- Lets the sweeper of a node run until it waits again. -/
def wakeSweeper (address : String) (r : Running) (n : Network) : Network :=
  match r.sweeper with
  | none => n
  | some s =>
    let (service, orders) :=
      r.member.service.answerWakeups r.member.isMaster n.now s.timeout (r.wakeups n.timer)
    (n.modify address (·.rested n.timer)).onMember address { r.member with service } orders

mutual

/-- Sends a request to an address. -/
def send : Nat → String → Request → Option Json.Value → Network → Option Relayed × Network
  | 0, _, _, _, n => (none, n)
  | fuel + 1, address, request, body, n =>
    if n.link = .down then (none, n)
    else
      let i := n.arrivals.length
      let arrived := { n with
        arrivals := n.arrivals ++ [⟨address, request.method, request.target, body, none⟩] }
      match (n.node? address).filter (·.listening), n.peers.find? (·.1 = address) with
      | some r, _ =>
        match attend fuel address ((Node.member r.member).receive n.now 0 request) arrived with
        | (some answer, n) => (some answer.relayed, n.noteStatus i answer.status)
        | (none, n) => (none, n)
      | none, some (_, routes) =>
        match routes.find? (·.1 = request.path) with
        | some (_, answer) => (some answer, arrived.noteStatus i answer.status)
        | none => (none, arrived)
      | none, none => (none, n)

/-- Makes a call, if a request can be made for it. -/
def deliver : Nat → PeerCall → Network → Option Relayed × Network
  | 0, _, n => (none, n)
  | fuel + 1, call, n =>
    if call.canBeMade then send fuel call.address call.request call.body n else (none, n)

/-- Goes on with a client's request at a node until it is answered. -/
def attend : Nat → String → Handling → Network → Option Response × Network
  | 0, _, _, n => (none, n)
  | fuel + 1, address, h, n =>
    match h.node with
    | .standalone _ _ => (none, n)
    | .member m =>
      let n := n.onMember address m h.orders
      match h.handled with
      | .answered r => (some r, n)
      | .waiting p =>
        match m.forward p.stage with
        | none =>
          let n := settle fuel n
          match n.node? address with
          | none => (none, n)
          | some r => attend fuel address ((Node.member r.member).wake p) n
        | some call =>
          let (reply, n) : Except RegistryError Relayed × Network := match call with
            | .error e => (.error e, n)
            | .ok call =>
              let (reply, n) := deliver fuel call n
              (call.relayed reply, n)
          match n.node? address with
          | none => (none, n)
          | some r => attend fuel address ((Node.member r.member).hear p reply) n

/-- Lets tasks and sweepers run until nothing but timers is left. -/
def settle : Nat → Network → Network
  | 0, n => n
  | fuel + 1, n =>
    match n.queue with
    | (address, e) :: queue =>
      let n := { n with queue }
      match n.node? address with
      | none => settle fuel n
      | some r =>
        match e.call with
        | some call =>
          let (reply, n) := deliver fuel call n
          match n.node? address with
          | none => settle fuel n
          | some r => settle fuel (n.progress address (r.member.hear n.now e reply))
        | none =>
          match r.member.run e with
          | some p => settle fuel (n.progress address p)
          | none => settle fuel (n.enqueue address [e])
    | [] =>
      match n.nodes.find? fun (_, r) => !(r.wakeups n.timer).isEmpty with
      | some (address, r) => settle fuel (n.wakeSweeper address r)
      | none => n

end

/-- The bound on the work of one step. -/
def fuel : Nat := 10000

/-- The network at rest. -/
def rest (n : Network) : Network := n.settle fuel

end Network

end ServiceRegistry
