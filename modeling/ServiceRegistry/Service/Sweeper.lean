/-
  The expiry sweeper.

  A sweeper waits for three things: the next tick of its timer, an event of the cluster, the end of
  the events.  It sweeps on a tick and when the node has become master, and on nothing else; it goes
  on ticking after the events have ended.

    * `due`, `received`     what there is to wake up for; a listener that falls behind sees only the
                            newest events, as many as its channel holds;
    * `Wakeup.sweeps`       which of it calls for a sweep;
    * `Service.answerWakeups`   what the node does about it.
-/
import ServiceRegistry.Coordinator.Role
import ServiceRegistry.Service.Basic

namespace ServiceRegistry

/-- What a sweeper wakes up for. -/
inductive Wakeup
  | tick
  | event (e : ClusterEvent)
  | lagged (missed : Nat)
  | closed
  deriving DecidableEq, Repr

/-- Whether a sweeper sweeps on waking up for this. -/
def Wakeup.sweeps : Wakeup → Bool
  | .tick => true
  | .event .becameMaster => true
  | _ => false

/-- A sweeper that waits: for the timer to reach `next`, and for events while `listening`.  Times
    are in milliseconds. -/
structure Sweeper where
  timeout : UInt64
  period : Nat
  next : Nat
  listening : Bool
  deriving DecidableEq, Repr

/-- What a listener receives of the events sent while it was away. -/
def received (capacity : Nat) (sent : List ClusterEvent) : List Wakeup :=
  let missed := sent.length - capacity
  (if missed = 0 then [] else [.lagged missed]) ++ (sent.drop missed).map .event

namespace Sweeper

/-- A sweeper started at a timer reading: its first tick is due at once. -/
def spawn (timeout : UInt64) (period timer : Nat) (listening : Bool) : Sweeper :=
  ⟨timeout, period, timer, listening⟩

/-- How many ticks are due at a timer reading. -/
def ticksDue (s : Sweeper) (timer : Nat) : Nat :=
  if timer < s.next then 0 else (timer - s.next) / s.period + 1

/-- Everything due at a timer reading when these events were sent and, perhaps, the channel closed.
    Ticks that come due together, after a jump over several periods, are answered as one. -/
def due (s : Sweeper) (timer capacity : Nat) (sent : List ClusterEvent) (closed : Bool) :
    List Wakeup :=
  (if s.ticksDue timer = 0 then [] else [.tick])
    ++ (if s.listening then received capacity sent ++ (if closed then [.closed] else []) else [])

/-- The sweeper waiting again at a timer reading. -/
def rest (s : Sweeper) (timer : Nat) (closed : Bool) : Sweeper :=
  { s with
    next := s.next + s.ticksDue timer * s.period
    listening := s.listening && !closed }

end Sweeper

namespace Service

/-- Sweeps once for each wakeup that calls for it. -/
def answerWakeups (isMaster : Bool) (now : Int64) (timeout : UInt64) :
    List Wakeup → Service → Service × List Order
  | [], s => (s, [])
  | w :: ws, s =>
    if w.sweeps then
      let (_, s, orders) := s.sweep isMaster now timeout
      let (s, more) := answerWakeups isMaster now timeout ws s
      (s, orders ++ more)
    else answerWakeups isMaster now timeout ws s

end Service

end ServiceRegistry
