/-
  Expiry: records whose heartbeat is too old.

  A record is expired when its heartbeat is set and lies more than the timeout before the clock.
  Timeouts beyond the largest timestamp count as that.

    * `expired`           the expired records, in listing order;
    * `removeIfExpired`   takes a record out only if it is expired now.
-/
import ServiceRegistry.Store.Basic

namespace ServiceRegistry

/-- The timeout as a signed word. -/
def timeoutSecs (timeout : UInt64) : Int64 :=
  if timeout.toInt64 < 0 then Int64.maxValue else timeout.toInt64

/-- Whether a record is expired at a clock reading. -/
def Instance.isExpired (now : Int64) (timeout : UInt64) (x : Instance) : Bool :=
  0 < x.heartbeat.secs && timeoutSecs timeout < now - x.heartbeat.secs

namespace Store

/-- The expired records, in listing order. -/
def expired (now : Int64) (timeout : UInt64) (s : Store) : List Instance :=
  s.all.filter (·.isExpired now timeout)

/-- Takes out a record if it is expired. -/
def removeIfExpired (id : String) (now : Int64) (timeout : UInt64) (s : Store) :
    Option Instance × Store :=
  match s.find? id with
  | none => (none, s)
  | some x => if x.isExpired now timeout then s.remove id else (none, s)

end Store

end ServiceRegistry
