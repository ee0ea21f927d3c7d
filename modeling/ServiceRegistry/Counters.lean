/-
  Counters and their exposition text.

  Nine counters of 64 bits, which wrap.  The exposition lists them in a fixed order, each as a help
  line, a type line and a value line, and three gauges after them.

    * `get_add`   adding to one counter changes that one alone.
-/
import ServiceRegistry.Text.Decimal

namespace ServiceRegistry

/-- What is counted. -/
inductive Counter
  | registrations
  | heartbeats
  | unregistrations
  | discoveries
  | expiredInstances
  | forwardedRequests
  | forwardFailures
  | replicationFailures
  | failovers
  deriving DecidableEq, Repr

namespace Counter

/-- All counters in their order. -/
def list : List Counter :=
  [registrations, heartbeats, unregistrations, discoveries, expiredInstances, forwardedRequests,
    forwardFailures, replicationFailures, failovers]

/-- The name of a counter. -/
def name : Counter → String
  | registrations => "registrations"
  | heartbeats => "heartbeats"
  | unregistrations => "unregistrations"
  | discoveries => "discoveries"
  | expiredInstances => "expired_instances"
  | forwardedRequests => "forwarded_requests"
  | forwardFailures => "forward_failures"
  | replicationFailures => "replication_failures"
  | failovers => "failovers"

/-- What a counter says. -/
def help : Counter → String
  | registrations => "Successful local registrations"
  | heartbeats => "Successful local heartbeats"
  | unregistrations => "Successful local unregistrations"
  | discoveries => "Discovery requests served locally"
  | expiredInstances => "Instances removed by the expiry sweep"
  | forwardedRequests => "Requests forwarded to the master"
  | forwardFailures => "Forwarded requests that failed to reach the master"
  | replicationFailures => "Replication pushes that failed"
  | failovers => "Master changes decided by this node"

end Counter

/-- The values of the counters. -/
structure Counters where
  registrations : UInt64 := 0
  heartbeats : UInt64 := 0
  unregistrations : UInt64 := 0
  discoveries : UInt64 := 0
  expiredInstances : UInt64 := 0
  forwardedRequests : UInt64 := 0
  forwardFailures : UInt64 := 0
  replicationFailures : UInt64 := 0
  failovers : UInt64 := 0
  deriving DecidableEq, Repr

namespace Counters

/-- The value of a counter. -/
def get (c : Counters) : Counter → UInt64
  | .registrations => c.registrations
  | .heartbeats => c.heartbeats
  | .unregistrations => c.unregistrations
  | .discoveries => c.discoveries
  | .expiredInstances => c.expiredInstances
  | .forwardedRequests => c.forwardedRequests
  | .forwardFailures => c.forwardFailures
  | .replicationFailures => c.replicationFailures
  | .failovers => c.failovers

/-- Adds to a counter. -/
def add (c : Counters) (k : Counter) (n : UInt64) : Counters :=
  match k with
  | .registrations => { c with registrations := c.registrations + n }
  | .heartbeats => { c with heartbeats := c.heartbeats + n }
  | .unregistrations => { c with unregistrations := c.unregistrations + n }
  | .discoveries => { c with discoveries := c.discoveries + n }
  | .expiredInstances => { c with expiredInstances := c.expiredInstances + n }
  | .forwardedRequests => { c with forwardedRequests := c.forwardedRequests + n }
  | .forwardFailures => { c with forwardFailures := c.forwardFailures + n }
  | .replicationFailures => { c with replicationFailures := c.replicationFailures + n }
  | .failovers => { c with failovers := c.failovers + n }

/-- Adds one to a counter. -/
def bump (c : Counters) (k : Counter) : Counters := c.add k 1

theorem get_add (c : Counters) (k j : Counter) (n : UInt64) :
    (c.add k n).get j = if j = k then c.get j + n else c.get j := by
  cases k <;> cases j <;> simp [add, get]

theorem get_bump (c : Counters) (k j : Counter) :
    (c.bump k).get j = if j = k then c.get j + 1 else c.get j := get_add c k j 1

/-! ## Exposition -/

/-- The three lines of one metric. -/
def metricLines (name help kind : String) (n : Nat) : String :=
  let value := String.ofList (Text.digits n)
  s!"# HELP {name} {help}\n# TYPE {name} {kind}\n{name} {value}\n"

/-- The exposition text of a node: its counters, how many records it holds, whether it is master and
    how long it runs. -/
def exposition (c : Counters) (isMaster : Bool) (instances uptime : Nat) : String :=
  String.join (Counter.list.map fun k =>
      metricLines s!"minireg_{k.name}_total" k.help "counter" (c.get k).toNat)
    ++ metricLines "minireg_instances" "Registered instances held by this node" "gauge" instances
    ++ metricLines "minireg_is_master" "Whether this node is currently master" "gauge"
        (if isMaster then 1 else 0)
    ++ metricLines "minireg_uptime_seconds" "Node uptime" "gauge" uptime

end Counters

end ServiceRegistry
