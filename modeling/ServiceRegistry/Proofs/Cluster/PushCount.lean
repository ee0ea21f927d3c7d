/-
  Nothing depends on how many pushes have failed.

  A node counts the pushes that fail, and shows the count in its metrics.  Give it another count,
  and whatever it does next comes to the same, with that other count.

  1. `Service.begin_withFailures`, `hear_withFailures`, `evict_withFailures` and so on: this is so
     of every turn of a service.
  2. `Member.Turn.recounted`: and of every task, except when the fate of a push is heard.
  3. `Node.unmoved_perform`: and of every input, where only the text of metrics differs.

  What goes for any other count goes for the count itself, so that none of this changes it.
-/
import ServiceRegistry.Proofs.Cluster.Acts
import ServiceRegistry.Proofs.Handling

namespace ServiceRegistry

open Http

/-! ## The count of failed pushes -/

namespace Service

/-- The failed pushes that a service has counted. -/
def failures (s : Service) : UInt64 := s.counters.replicationFailures

/-- The service with another count of failed pushes. -/
def withFailures (n : UInt64) (s : Service) : Service :=
  { s with counters := { s.counters with replicationFailures := n } }

variable (s : Service) (n : UInt64)

/-- The table is not concerned. -/
@[simp] theorem store_withFailures : (s.withFailures n).store = s.store := rfl

@[simp] theorem failures_withFailures : (s.withFailures n).failures = n := rfl

/-- The count itself is one of the others. -/
@[simp] theorem withFailures_failures : s.withFailures s.failures = s := rfl

/-- No other counter is concerned. -/
theorem count_withFailures {k : Counter} (other : k ≠ .replicationFailures) :
    (s.withFailures n).count k = (s.count k).withFailures n := by
  cases k with
  | replicationFailures => exact absurd rfl other
  | _ => rfl

/-- A counter that a write counts. -/
theorem ne_of_credit {o : Outcome} {k : Counter} {x : Instance}
    (credited : credit o = some (k, x)) : k ≠ .replicationFailures := by
  cases o <;> cases credited <;> decide

end Service

/-- The turn with another count of failed pushes. -/
def Turn.withFailures (n : UInt64) (t : Turn) : Turn :=
  { t with service := t.service.withFailures n }

namespace Service

variable (s : Service) (n : UInt64)

/-- A write goes by the table; what it counts is another counter. -/
@[simp] theorem writeHere_withFailures (now : Int64) (w : Write) :
    (s.withFailures n).writeHere now w = (s.writeHere now w).withFailures n := by
  unfold writeHere
  rw [store_withFailures]
  split
  · -- the write has failed, and nothing is counted
    rfl
  · dsimp only
    split
    · -- it is counted with the counter of its outcome, which is not that of pushes
      rename_i credited
      rw [Turn.withFailures, ← count_withFailures _ _ (ne_of_credit credited)]
      rfl
    · rfl

/-- So does a query that the node answers itself, -/
@[simp] theorem discoverHere_withFailures (name : String) :
    (s.withFailures n).discoverHere name = (s.discoverHere name).withFailures n := by
  unfold discoverHere
  rw [store_withFailures]
  split <;> rfl

/-- or that reads the role first. -/
@[simp] theorem seek_withFailures (isMaster : Bool) (name : String) (left : Nat) :
    (s.withFailures n).seek isMaster name left = (s.seek isMaster name left).withFailures n := by
  unfold seek
  cases isMaster with
  | true => exact s.discoverHere_withFailures n name
  | false => cases left <;> rfl

/-- The turn in which a call begins. -/
theorem begin_withFailures (isMaster : Bool) (now : Int64) (c : Call) :
    (s.withFailures n).begin isMaster now c = (s.begin isMaster now c).withFailures n := by
  cases c with
  | write w =>
    cases check : w.check with
    | error e =>
      rw [begin_of_unfit check, begin_of_unfit check]
      rfl
    | ok =>
      rw [begin_of_fit check, begin_of_fit check]
      cases isMaster with
      | true => exact s.writeHere_withFailures n now w
      | false => rfl -- it is passed on, and counted as such
  | discover name => exact s.seek_withFailures n isMaster name discoveryAttempts

/-- The turn in which a call hears the master's reply; it counts failures of another kind. -/
theorem hear_withFailures (stage : Stage) (reply : Except RegistryError Relayed) :
    (s.withFailures n).hear stage reply = (s.hear stage reply).withFailures n := by
  cases stage <;> cases reply <;> rfl

/-- The turn in which a query goes on after its rest. -/
theorem wake_withFailures (isMaster : Bool) (stage : Stage) :
    (s.withFailures n).wake isMaster stage = (s.wake isMaster stage).withFailures n := by
  cases stage with
  | resting name left => exact s.seek_withFailures n isMaster name left
  | forwarding | asking | done => rfl

/-- An eviction. -/
theorem evict_withFailures (isMaster : Bool) (now : Int64) (timeout : UInt64) (id : String) :
    (s.withFailures n).evict isMaster now timeout id
      = ((s.evict isMaster now timeout id).1,
          (s.evict isMaster now timeout id).2.1.withFailures n,
          (s.evict isMaster now timeout id).2.2) := by
  unfold evict
  rw [store_withFailures]
  split
  · rfl
  · split <;> rfl

/-- Evictions, one after another. -/
theorem evictAll_withFailures (isMaster : Bool) (now : Int64) (timeout : UInt64)
    (xs : List Instance) :
    evictAll isMaster now timeout xs (s.withFailures n)
      = ((evictAll isMaster now timeout xs s).1,
          (evictAll isMaster now timeout xs s).2.1.withFailures n,
          (evictAll isMaster now timeout xs s).2.2) := by
  -- the service after one eviction differs in the count alone, which is the hypothesis
  induction xs generalizing s with
  | nil => rfl
  | cons x xs ih =>
    unfold evictAll
    rw [evict_withFailures]
    dsimp only
    rw [ih]

/-- A sweep: the same records are found, since the table is the same. -/
theorem sweep_withFailures (isMaster : Bool) (now : Int64) (timeout : UInt64) :
    (s.withFailures n).sweep isMaster now timeout
      = ((s.sweep isMaster now timeout).1,
          (s.sweep isMaster now timeout).2.1.withFailures n,
          (s.sweep isMaster now timeout).2.2) := by
  unfold sweep
  split
  · rfl
  · exact s.evictAll_withFailures n isMaster now timeout _

end Service

/-! ## Members -/

namespace Member

/-- The node with another count of failed pushes. -/
def withFailures (n : UInt64) (m : Member) : Member :=
  { m with service := m.service.withFailures n }

end Member

/-- What a turn leaves, with another count of failed pushes. -/
def Progress.withFailures (n : UInt64) (p : Progress) : Progress :=
  { p with member := p.member.withFailures n }

namespace Member

variable (m : Member) (n : UInt64)

@[simp] theorem withFailures_failures : m.withFailures m.service.failures = m := rfl

/-- The coordinator is not concerned. -/
@[simp] theorem coordinator_withFailures : (m.withFailures n).coordinator = m.coordinator := rfl

/-- The end of a start. -/
theorem settleOn_withFailures (master : String) :
    (m.withFailures n).settleOn master = (m.settleOn master).withFailures n := by
  cases own : m.coordinator.membership.isSelf master <;>
    simp [settleOn, withFailures, Progress.withFailures, own]

/-- The turn of a task other than a push comes to the same on the node with another count. -/
theorem Turn.recounted {m : Member} {now : Int64} {u : Underway} {p : Progress}
    (hTurn : m.Turn now u p) (hPush : u.task.isPush = false) (n : UInt64) :
    (m.withFailures n).Turn now u (p.withFailures n) := by
  -- what a rule looks at is the coordinator, the reply and the table, and the count is in none
  cases hTurn with
  | adopt up => rw [← settleOn_withFailures]; exact .adopt up
  | seekNext down => exact .seekNext down
  | seekSelf down => exact .seekSelf down
  | begin => rw [← settleOn_withFailures]; exact .begin
  | early starting => exact .early starting
  | master started points own => exact .master started points own
  | probe started points other => exact .probe started points other
  | lost started nowhere => exact .lost started nowhere
  | fine up => exact .fine up
  | failed down => exact .failed down
  | stale free moved => exact .stale free moved
  | elect free same order own => exact .elect free same order own
  | enter free same order other => exact .enter free same order other
  | nobody free same order => exact .nobody free same order
  | follow up => exact .follow up
  | promote down own => exact .promote down own
  | scanNext down other => exact .scanNext down other
  | giveUp down => exact .giveUp down
  | greeted up => exact .greeted up
  | gone down => exact .gone down
  | pulled given => exact .pulled given
  | notPulled given => exact .notPulled given
  | adopted given => exact .adopted given
  | notAdopted given => exact .notAdopted given
  | pushed | refused => cases hPush

/-- A push has no turn until its fate is heard. -/
theorem isPush_of_run {m : Member} {e : Task} {progress : Progress}
    (turn : m.run e = some progress) : e.isPush = false := by
  cases e with
  | push => cases turn
  | _ => rfl

/-- What is heard, but for the fate of a push, does not depend on how many pushes have failed. -/
theorem hear_withFailures {e : Task} {call : PeerCall} (calls : e.call = some call)
    (other : e.isPush = false) (now : Int64) (reply : Option Relayed) :
    (m.withFailures n).hear now e reply = (m.hear now e reply).withFailures n :=
  ((m.turn_hear now calls reply).recounted other n).eq_hear

/-- Nor does the turn of a task that waits for no reply. -/
theorem run_withFailures {e : Task} {p : Progress} (hRun : m.run e = some p) :
    (m.withFailures n).run e = some (p.withFailures n) :=
  ((turn_run 0 hRun).recounted (isPush_of_run hRun) n).eq_run

/-- A push that another node sends, whether it is taken over or refused. -/
theorem handleSync_withFailures (now : Int64) (c : Change) :
    (m.withFailures n).handleSync now c
      = ((m.handleSync now c).1, (m.handleSync now c).2.withFailures n) := by
  -- the role is the same on both, and with it whether the push is refused
  cases master : m.isMaster with
  | true =>
    have master' : (m.withFailures n).isMaster = true := master
    rw [handleSync, handleSync, if_pos master, if_pos master']
    rfl
  | false =>
    have follower' : (m.withFailures n).isMaster = false := master
    rw [handleSync_of_follower master, handleSync_of_follower follower']
    rfl

end Member

/-! ## Inputs -/

/-- Two nodes show the same of an input, or the texts of their metrics. -/
inductive Input.Alike : Input → Shown → Shown → Prop
  | same (t : Input) (x : Shown) : Alike t x x
  | metrics {now : Int64} {uptime : Nat} {request : Request}
      (asks : request.inquiry = .ok .metrics) (text text' : String) :
      Alike (.receive now uptime request)
        (.handled (.answered (request.dress (metricsAnswer text))))
        (.handled (.answered (request.dress (metricsAnswer text'))))

/-- The node with another count of failed pushes. -/
def Node.withFailures (n : UInt64) : Node → Node
  | standalone a s => standalone a (s.withFailures n)
  | member m => member (m.withFailures n)

/-- An input leaves the same, but for the count of failed pushes and the text of metrics. -/
structure Input.Unmoved (t : Input) (n : UInt64) (p p' : Performance) : Prop where
  node : p'.node = p.node.withFailures n
  orders : p'.orders = p.orders
  shown : t.Alike p.shown p'.shown

namespace Node

/-- A request that can be read is carried out. -/
theorem receive_of_inquiry {n : Node} {now : Int64} {uptime : Nat} {request : Request}
    {inquiry : Inquiry} (asks : request.inquiry = .ok inquiry) :
    n.receive now uptime request = n.carryOut now uptime request inquiry := by
  simp only [receive, asks]

variable (m : Member) (n : UInt64)

/-- A turn of a service becomes a turn of the node. -/
theorem handling_withFailures (request : Request) (c : Call) (t : Turn) :
    (member (m.withFailures n)).handling request c (t.withFailures n)
      = { (member m).handling request c t with
          node := ((member m).handling request c t).node.withFailures n } := by
  obtain ⟨service, orders, stage⟩ := t
  cases stage <;> rfl

/-- A request leaves the same and is answered the same, unless it asks for metrics, where the count
    is shown. -/
theorem unmoved_receive (now : Int64) (uptime : Nat) (request : Request) :
    Input.Unmoved (.receive now uptime request) n
      ((member m).receive now uptime request).performance
      ((member (m.withFailures n)).receive now uptime request).performance := by
  cases asks : request.inquiry with
  | error answer =>
    rw [receive_of_refused asks, receive_of_refused asks]
    exact ⟨rfl, rfl, .same _ _⟩
  | ok inquiry =>
    rw [receive_of_inquiry asks, receive_of_inquiry asks]
    cases inquiry with
    | call c =>
      have begun := m.service.begin_withFailures n m.isMaster now c
      have handled : (member (m.withFailures n)).carryOut now uptime request (.call c) = _ :=
        (congrArg ((member (m.withFailures n)).handling request c) begun).trans
          (handling_withFailures m n request c _)
      rw [handled]
      exact ⟨rfl, rfl, .same _ _⟩
    | sync c =>
      have synced := m.handleSync_withFailures n now c
      unfold carryOut handleSync
      dsimp only
      rw [synced]
      exact ⟨rfl, rfl, .same _ _⟩
    | cursors | health => exact ⟨rfl, rfl, .same _ _⟩
    | metrics =>
      -- the texts may differ; nothing else is shown or ordered
      have silent (m : Member) :
          ((member m).carryOut now uptime request .metrics).performance.orders = [] := rfl
      exact ⟨rfl, (silent _).trans (silent _).symm, .metrics asks _ _⟩

/-- So does every input: it comes to a turn of the service, and each of these has its lemma. -/
theorem unmoved_perform (t : Input) :
    t.Unmoved n ((member m).perform t) ((member (m.withFailures n)).perform t) := by
  cases t with
  | receive now uptime request => exact unmoved_receive m n now uptime request
  | reply pending reply =>
    -- a request that waits goes on with the turn of its call
    have handled : (member (m.withFailures n)).hear pending reply = _ :=
      (congrArg ((member (m.withFailures n)).handling pending.request pending.call)
        (m.service.hear_withFailures n pending.stage reply)).trans (handling_withFailures m n _ _ _)
    unfold perform
    dsimp only
    rw [handled]
    exact ⟨rfl, rfl, .same _ _⟩
  | wake pending =>
    have handled : (member (m.withFailures n)).wake pending = _ :=
      (congrArg ((member (m.withFailures n)).handling pending.request pending.call)
        (m.service.wake_withFailures n m.isMaster pending.stage)).trans
          (handling_withFailures m n _ _ _)
    unfold perform
    dsimp only
    rw [handled]
    exact ⟨rfl, rfl, .same _ _⟩
  | evict now timeout id =>
    have evicted := m.service.evict_withFailures n m.isMaster now timeout id
    have same : (member (m.withFailures n)).service.evict
        (member (m.withFailures n)).isMaster now timeout id = _ := evicted
    unfold perform
    dsimp only
    rw [same]
    exact ⟨rfl, rfl, .same _ _⟩
  | sweep now timeout =>
    have swept := m.service.sweep_withFailures n m.isMaster now timeout
    have same : (member (m.withFailures n)).service.sweep
        (member (m.withFailures n)).isMaster now timeout = _ := swept
    unfold perform
    dsimp only
    rw [same]
    exact ⟨rfl, rfl, .same _ _⟩

end Node

end ServiceRegistry
