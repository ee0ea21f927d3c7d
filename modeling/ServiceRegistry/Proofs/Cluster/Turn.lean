/-
  What a turn of a background task can do.

  `Member.hear` and `Member.run` go through the kinds of tasks one by one, and through the answers
  inside each kind.  Nothing further on goes through them again.

  1. **The rules** — `Member.Turn m now u p`: the task `u` of the member `m` has its turn at `now`,
     and `p` is what it leaves.  There is one rule for each way a turn can end, with all that was
     looked at on the way: what the pointer was, who answered, which candidate comes next.

  2. **The bridge** — `turn_hear` and `turn_run`: every turn ends by one of the rules;
     `Turn.eq_hear` and `Turn.eq_run`: and each rule is what the program does.  So a fact about all
     turns is proved by cases on `Member.Turn`, and a fact about one turn by its rule.

  3. **The ends** — a start that is over, a promotion and a new master to follow are one progress
     each (`settleOn`, `promote`, `follow`); simp lemmas say what they leave, part by part.
-/
import ServiceRegistry.Coordinator.Task

namespace ServiceRegistry

/-- A task under way.  Its call may have been answered already; the answer is empty when no
    connection came about. -/
structure Underway where
  task : Task
  reply : Option (Option Relayed) := none
  deriving DecidableEq, Repr

namespace Coordinator

/-- The coordinator pointing at a master, with its start over. -/
def settledOn (c : Coordinator) (master : String) : Coordinator :=
  { c with master := some master, started := true }

/-- The coordinator pointing at a master, with its failover over. -/
def failedOver (c : Coordinator) (master : Option String) : Coordinator :=
  { c with master, failingOver := false }

section Fields

variable (c : Coordinator) (a : String) (t : Option String)

@[simp] theorem settledOn_membership : (c.settledOn a).membership = c.membership := rfl
@[simp] theorem settledOn_master : (c.settledOn a).master = some a := rfl
@[simp] theorem settledOn_started : (c.settledOn a).started = true := rfl
@[simp] theorem failedOver_membership : (c.failedOver t).membership = c.membership := rfl
@[simp] theorem failedOver_master : (c.failedOver t).master = t := rfl
@[simp] theorem failedOver_started : (c.failedOver t).started = c.started := rfl

end Fields

end Coordinator

/-- What a node announces when it points at a new master. -/
def Membership.announcement (m : Membership) (a : String) : ClusterEvent :=
  if m.isSelf a then .becameMaster else .masterChanged a

namespace Member

/-! ## The ends of a start and of a failover -/

section Ends

variable (m : Member) (a : String) (t : Option String)

/-- Neither a snapshot nor cursors nor a count concern the coordinator. -/
@[simp] theorem coordinator_absorb (now : Int64) (xs : List Instance) :
    (m.absorb now xs).coordinator = m.coordinator := rfl
@[simp] theorem coordinator_adopt (cursors : List (String × Int64)) :
    (m.adopt cursors).coordinator = m.coordinator := rfl
@[simp] theorem coordinator_count (k : Counter) : (m.count k).coordinator = m.coordinator := rfl

/-- A start that is over leaves the coordinator settled, -/
@[simp] theorem coordinator_settleOn :
    (m.settleOn a).member.coordinator = m.coordinator.settledOn a := by
  unfold settleOn; dsimp only; split <;> rfl

/-- the service as it was, -/
@[simp] theorem service_settleOn : (m.settleOn a).member.service = m.service := by
  unfold settleOn; dsimp only; split <;> rfl

/-- and nothing to go on with. -/
@[simp] theorem next_settleOn : (m.settleOn a).next = none := by
  unfold settleOn; dsimp only; split <;> rfl

/-- The end of a start is announced: the node is master itself, or it has found one. -/
@[simp] theorem events_settleOn :
    (m.settleOn a).events = [m.coordinator.membership.announcement a] := by
  unfold settleOn Membership.announcement; dsimp only; split <;> rfl

/-- All that a start can begin is a full sync from the master it has found. -/
theorem mem_begun_settleOn {e : Task} (he : e ∈ (m.settleOn a).begun) : e = .settle a := by
  unfold settleOn at he
  dsimp only at he
  split at he
  · exact absurd he List.not_mem_nil
  · exact List.mem_singleton.1 he

/-- A promotion points the coordinator at the node itself; -/
@[simp] theorem coordinator_promote :
    (m.promote t).member.coordinator = m.coordinator.failedOver (some m.coordinator.self) := rfl
/-- it is counted as a failover. -/
@[simp] theorem service_promote : (m.promote t).member.service = m.service.count .failovers := rfl
@[simp] theorem events_promote : (m.promote t).events = [.becameMaster] := rfl
@[simp] theorem next_promote : (m.promote t).next = none := rfl

/-- All that a promotion can begin is a greeting of the previous master. -/
theorem mem_begun_promote {e : Task} (he : e ∈ (m.promote t).begun) :
    ∃ previous, e = .greet previous := by
  obtain ⟨previous, -, rfl⟩ := List.mem_map.1 (show e ∈ t.toList.map Task.greet by
    simpa [promote] using he)
  exact ⟨previous, rfl⟩

/-- To follow is to point the coordinator at the candidate. -/
@[simp] theorem coordinator_follow :
    (m.follow a).member.coordinator = m.coordinator.failedOver (some a) := rfl
/-- It is counted as a failover as well. -/
@[simp] theorem service_follow : (m.follow a).member.service = m.service.count .failovers := rfl
@[simp] theorem events_follow : (m.follow a).events = [.masterChanged a] := rfl
@[simp] theorem begun_follow : (m.follow a).begun = [.pull a] := rfl
@[simp] theorem next_follow : (m.follow a).next = none := rfl

end Ends

/-- A member with a failover under way. -/
def entered (m : Member) : Member :=
  { m with coordinator := { m.coordinator with failingOver := true } }

@[simp] theorem service_entered (m : Member) : m.entered.service = m.service := rfl
@[simp] theorem membership_entered (m : Member) :
    m.entered.coordinator.membership = m.coordinator.membership := rfl
@[simp] theorem failedOver_entered (m : Member) (t : Option String) :
    m.entered.coordinator.failedOver t = m.coordinator.failedOver t := rfl
@[simp] theorem self_entered (m : Member) : m.entered.coordinator.self = m.coordinator.self := rfl

/-! ## The rules -/

/-- What the turn of a task leaves, by what it finds. -/
inductive Turn (m : Member) (now : Int64) : Underway → Progress → Prop
  -- the start: the peers are asked one after the other, and the node itself after them
  | adopt {peer rest r} (up : healthy r = true) :
      Turn m now ⟨.seekPeer peer rest, some r⟩ (m.settleOn peer)
  | seekNext {peer next rest r} (down : healthy r = false) :
      Turn m now ⟨.seekPeer peer (next :: rest), some r⟩
        { member := m, next := some (.seekPeer next rest) }
  | seekSelf {peer r} (down : healthy r = false) :
      Turn m now ⟨.seekPeer peer [], some r⟩
        { member := m, next := some (.seekSelf m.coordinator.self) }
  | begin {self r} :
      Turn m now ⟨.seekSelf self, some r⟩
        (m.settleOn (if healthy r then self else m.coordinator.membership.fallback))
  -- a check: it is too early, the node is master, or the master is asked
  | early (starting : m.coordinator.started = false) : Turn m now ⟨.check, none⟩ { member := m }
  | master {t} (started : m.coordinator.started = true) (points : m.coordinator.master = some t)
      (own : m.coordinator.membership.isSelf t = true) : Turn m now ⟨.check, none⟩ { member := m }
  | probe {t} (started : m.coordinator.started = true) (points : m.coordinator.master = some t)
      (other : m.coordinator.membership.isSelf t = false) :
      Turn m now ⟨.check, none⟩ { member := m, next := some (.probeMaster t) }
  | lost (started : m.coordinator.started = true) (nowhere : m.coordinator.master = none) :
      Turn m now ⟨.check, none⟩ { member := m, next := some (.awaitTurn none) }
  | fine {t r} (up : healthy r = true) : Turn m now ⟨.probeMaster t, some r⟩ { member := m }
  | failed {t r} (down : healthy r = false) :
      Turn m now ⟨.probeMaster t, some r⟩ { member := m, next := some (.awaitTurn (some t)) }
  -- a failover that has its turn: the pointer has moved meanwhile, or the candidates are tried
  | stale {f} (free : m.coordinator.failingOver = false) (moved : m.coordinator.master ≠ f) :
      Turn m now ⟨.awaitTurn f, none⟩ { member := m }
  | elect {f candidate rest} (free : m.coordinator.failingOver = false)
      (same : m.coordinator.master = f)
      (order : m.coordinator.membership.failoverOrder (f.getD "") = candidate :: rest)
      (own : m.coordinator.membership.isSelf candidate = true) :
      Turn m now ⟨.awaitTurn f, none⟩ (m.entered.promote f)
  | enter {f candidate rest} (free : m.coordinator.failingOver = false)
      (same : m.coordinator.master = f)
      (order : m.coordinator.membership.failoverOrder (f.getD "") = candidate :: rest)
      (other : m.coordinator.membership.isSelf candidate = false) :
      Turn m now ⟨.awaitTurn f, none⟩
        { member := m.entered, next := some (.scan f candidate rest) }
  | nobody {f} (free : m.coordinator.failingOver = false) (same : m.coordinator.master = f)
      (order : m.coordinator.membership.failoverOrder (f.getD "") = []) :
      Turn m now ⟨.awaitTurn f, none⟩ { member := (m.entered.point none).release }
  -- a failover that goes on: the candidate answered, or the next one is tried
  | follow {f candidate rest r} (up : healthy r = true) :
      Turn m now ⟨.scan f candidate rest, some r⟩ (m.follow candidate)
  | promote {f candidate next rest r} (down : healthy r = false)
      (own : m.coordinator.membership.isSelf next = true) :
      Turn m now ⟨.scan f candidate (next :: rest), some r⟩ (m.promote f)
  | scanNext {f candidate next rest r} (down : healthy r = false)
      (other : m.coordinator.membership.isSelf next = false) :
      Turn m now ⟨.scan f candidate (next :: rest), some r⟩
        { member := m, next := some (.scan f next rest) }
  | giveUp {f candidate r} (down : healthy r = false) :
      Turn m now ⟨.scan f candidate [], some r⟩ { member := (m.point none).release }
  -- what is pulled and pushed
  | greeted {previous r} (up : healthy r = true) :
      Turn m now ⟨.greet previous, some r⟩ { member := m, next := some (.pullCursors previous) }
  | gone {previous r} (down : healthy r = false) :
      Turn m now ⟨.greet previous, some r⟩ { member := m }
  | pulled {master r xs} (given : instancesIn r = some xs) :
      Turn m now ⟨.pull master, some r⟩
        { member := m.absorb now xs, next := some (.pullCursors master) }
  | notPulled {master r} (given : instancesIn r = none) :
      Turn m now ⟨.pull master, some r⟩ { member := m, next := some (.pullCursors master) }
  | adopted {master r cursors} (given : cursorsIn r = some cursors) :
      Turn m now ⟨.pullCursors master, some r⟩ { member := m.adopt cursors }
  | notAdopted {master r} (given : cursorsIn r = none) :
      Turn m now ⟨.pullCursors master, some r⟩ { member := m }
  | pushed {peer c r} (taken : accepted r = true) :
      Turn m now ⟨.push peer c, some r⟩ { member := m }
  | refused {peer c r} (lost : accepted r = false) :
      Turn m now ⟨.push peer c, some r⟩ { member := m.count .replicationFailures }

/-! ## The bridge to the program -/

variable {m : Member} {now : Int64} {p : Progress}

/-- What a failover leaves that has come so far in the order of the candidates. -/
theorem scan_cases {P : Progress → Prop} {f : Option String} {order : List String}
    (hNil : order = [] → P { member := (m.point none).release })
    (hOwn : ∀ a rest, order = a :: rest → m.coordinator.membership.isSelf a = true →
      P (m.promote f))
    (hOther : ∀ a rest, order = a :: rest → m.coordinator.membership.isSelf a = false →
      P { member := m, next := some (.scan f a rest) }) : P (m.scan f order) := by
  cases order with
  | nil => exact hNil rfl
  | cons a rest =>
    cases own : m.coordinator.membership.isSelf a with
    | true => simpa [scan, own] using hOwn a rest rfl own
    | false => simpa [scan, own] using hOther a rest rfl own

/-- Every turn after the reply to a call ends by one of the rules. -/
theorem turn_hear (m : Member) (now : Int64) {e : Task} {call : PeerCall}
    (calls : e.call = some call) (reply : Option Relayed) :
    m.Turn now ⟨e, some reply⟩ (m.hear now e reply) := by
  cases e with
  | seekPeer peer rest =>
    cases up : healthy reply with
    | true => simpa [hear, up] using Turn.adopt up
    | false =>
      cases rest with
      | nil => simpa [hear, up, seek] using Turn.seekSelf up
      | cons next rest => simpa [hear, up, seek] using Turn.seekNext up
  | seekSelf self => exact .begin
  | probeMaster t =>
    cases up : healthy reply with
    | true => simpa [hear, up] using Turn.fine up
    | false => simpa [hear, up] using Turn.failed up
  | scan f candidate rest =>
    cases up : healthy reply with
    | true => simpa [hear, up] using Turn.follow up
    | false =>
      -- the candidate is down, and the search goes on with whoever comes next
      have hScan : m.Turn now ⟨.scan f candidate rest, some reply⟩ (m.scan f rest) := by
        apply scan_cases
        · rintro rfl
          exact .giveUp up
        · rintro a rest rfl own
          exact .promote up own
        · rintro a rest rfl other
          exact .scanNext up other
      simpa [hear, up] using hScan
  | greet previous =>
    cases up : healthy reply with
    | true => simpa [hear, up] using Turn.greeted up
    | false => simpa [hear, up] using Turn.gone up
  | pull master =>
    cases given : instancesIn reply with
    | some xs => simpa [hear, given] using Turn.pulled given
    | none => simpa [hear, given] using Turn.notPulled given
  | pullCursors master =>
    cases given : cursorsIn reply with
    | some cursors => simpa [hear, given] using Turn.adopted given
    | none => simpa [hear, given] using Turn.notAdopted given
  | push peer c =>
    cases taken : accepted reply with
    | true => simpa [hear, taken] using Turn.pushed taken
    | false => simpa [hear, taken] using Turn.refused taken
  | check | awaitTurn | settle => cases calls

/-- Every turn of a task that waits for no reply ends by one of the rules. -/
theorem turn_run {e : Task} (now : Int64) (hRun : m.run e = some p) :
    m.Turn now { task := e } p := by
  cases e with
  | check =>
    obtain rfl := Option.some.inj hRun
    cases started : m.coordinator.started with
    | false => simpa [check, started] using Turn.early started
    | true =>
      cases points : m.coordinator.master with
      | none => simpa [check, started, points] using Turn.lost started points
      | some t =>
        cases own : m.coordinator.membership.isSelf t with
        | true => simpa [check, started, points, own] using Turn.master started points own
        | false => simpa [check, started, points, own] using Turn.probe started points own
  | awaitTurn f =>
    cases free : m.coordinator.failingOver with
    | true => simp [run, free] at hRun
    | false =>
      obtain rfl : m.enter f = p := by simpa [run, free] using hRun
      by_cases same : m.coordinator.master = f
      · -- the pointer is where the failover began, so the candidates are gone through
        have hScan : m.Turn now { task := .awaitTurn f }
            (m.entered.scan f (m.coordinator.membership.failoverOrder (f.getD ""))) := by
          apply scan_cases
          · exact .nobody free same
          · exact fun a rest => .elect free same
          · exact fun a rest => .enter free same
        simpa [enter, same, entered] using hScan
      · simpa [enter, same] using Turn.stale free same
  | seekPeer | seekSelf | probeMaster | scan | greet | settle | pull | pullCursors | push =>
    cases hRun

/-- Each rule after a reply is what the program does. -/
theorem Turn.eq_hear {e : Task} {reply : Option Relayed}
    (hTurn : m.Turn now ⟨e, some reply⟩ p) : m.hear now e reply = p := by
  cases hTurn with
  | adopt up | fine up | follow up | greeted up => simp [hear, up]
  | seekNext down | seekSelf down => simp [hear, down, seek]
  | begin => rfl
  | failed down | gone down => simp [hear, down]
  | promote down own | scanNext down own => simp [hear, down, scan, own]
  | giveUp down => simp [hear, down, scan]
  | pulled given | notPulled given | adopted given | notAdopted given => simp [hear, given]
  | pushed taken | refused taken => simp [hear, taken]

/-- Each rule of a task that waits for no reply is what the program does. -/
theorem Turn.eq_run {e : Task} (hTurn : m.Turn 0 { task := e } p) : m.run e = some p := by
  cases hTurn with
  | early starting => simp [run, check, starting]
  | master started points own | probe started points own =>
    simp [run, check, started, points, own]
  | lost started nowhere => simp [run, check, started, nowhere]
  | stale free moved => simp [run, free, Member.enter, moved]
  | elect free same order own | enter free same order own =>
    simp [run, free, Member.enter, same, order, scan, own, entered]
  | nobody free same order => simp [run, free, Member.enter, same, order, scan, entered]

end Member

end ServiceRegistry
