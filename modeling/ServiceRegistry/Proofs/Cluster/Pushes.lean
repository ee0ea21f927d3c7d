/-
  The accounts of pushes.

  A write that succeeds is pushed to every peer; each push is a task of its own, and when it is
  heard to have failed it is counted.  Nobody waits for it.

  1. `Node.changes_perform`: an input replicates as many changes as it shows writes to have
     succeeded.
  2. `Member.Turn.quiet`: no turn of a task begins a push; only inputs do.
  3. `Process.Accounts`: between two states of a node every push that was begun has been heard of or
     is still under way, and the failures have been counted.  Each act keeps these accounts, so each
     run does (`Performs.accounts`, `Passes.accounts`).
-/
import ServiceRegistry.Proofs.Cluster.PushCount
import ServiceRegistry.Proofs.Forwarding
import ServiceRegistry.Proofs.Service.Failures

namespace ServiceRegistry

open Http

/-! ## What is replicated -/

/-- Whether a request asks for a write. -/
def Http.Request.asksWrite (r : Request) : Bool :=
  match r.inquiry with
  | .ok (.call (.write _)) => true
  | _ => false

/-- The writes that an input shows to have succeeded: a write that is answered with 200, and each
    record that is evicted. -/
def Input.writes : Input → Shown → Nat
  | .receive _ _ request, .handled (.answered r) =>
    (request.asksWrite && decide (r.status = 200)).toNat
  | .evict _ _ _, .evicted gone => gone.toNat
  | .sweep _ _, .swept count => count
  | _, _ => 0

namespace Service

variable (s : Service) (isMaster : Bool)

/-- A query orders nothing, -/
@[simp] theorem orders_discoverHere (name : String) : (s.discoverHere name).orders = [] := by
  unfold discoverHere
  split <;> rfl

/-- whoever answers it. -/
theorem orders_seek (name : String) (left : Nat) : (s.seek isMaster name left).orders = [] := by
  unfold seek
  cases isMaster with
  | true => exact s.orders_discoverHere name
  | false => cases left <;> rfl

/-- A write here fails, or it succeeds and is replicated. -/
theorem writeHere_cases (now : Int64) (w : Write) :
    (∃ e, s.writeHere now w = s.fail e)
    ∨ ∃ service c o, s.writeHere now w = ⟨service, [.replicate c], .done (.ok (.here o))⟩ := by
  cases w with
  | register x =>
    rcases s.store.register_cases now x with
      ⟨e, eq⟩ | ⟨old, -, -, eq⟩ | ⟨-, -, -, eq⟩
    · exact .inl ⟨e, by simp only [writeHere, writeStore, eq]⟩
    · exact .inr ⟨_, _, _, by simp only [writeHere, writeStore, eq, credit]; rfl⟩
    · exact .inr ⟨_, _, _, by simp only [writeHere, writeStore, eq, credit]; rfl⟩
  | heartbeat c =>
    rcases s.store.heartbeat_cases now c with ⟨e, eq⟩ | ⟨x, -, -, eq⟩
    · exact .inl ⟨e, by simp only [writeHere, writeStore, eq]⟩
    · exact .inr ⟨_, _, _, by simp only [writeHere, writeStore, eq, credit]; rfl⟩
  | unregister c =>
    rcases s.store.unregister_cases c with ⟨e, eq⟩ | ⟨x, -, -, eq⟩
    · exact .inl ⟨e, by simp only [writeHere, writeStore, eq]⟩
    · exact .inr ⟨_, _, _, by simp only [writeHere, writeStore, eq, credit]; rfl⟩

/-- An eviction replicates as many changes as records go; -/
theorem changes_evict (now : Int64) (timeout : UInt64) (id : String) :
    (Order.changes (s.evict isMaster now timeout id).2.2).length
      = (s.evict isMaster now timeout id).1.toNat := by
  rcases s.evict_cases isMaster now timeout id with eq | ⟨x, -, -, eq⟩
  · rw [eq]
    rfl
  · rw [eq]
    rfl

/-- so do evictions one after another, -/
theorem changes_evictAll (now : Int64) (timeout : UInt64) (xs : List Instance) :
    (Order.changes (evictAll isMaster now timeout xs s).2.2).length
      = (evictAll isMaster now timeout xs s).1 := by
  induction xs generalizing s with
  | nil => rfl
  | cons x xs ih =>
    unfold evictAll
    dsimp only
    rw [Order.changes_append, List.length_append, changes_evict, ih, Nat.add_comm]

/-- and so does a sweep. -/
theorem changes_sweep (now : Int64) (timeout : UInt64) :
    (Order.changes (s.sweep isMaster now timeout).2.2).length
      = (s.sweep isMaster now timeout).1 := by
  unfold sweep
  split
  · rfl
  · exact s.changes_evictAll isMaster now timeout _

end Service

namespace Node

variable (m : Member)

/-- A failure is not answered with 200. -/
theorem status_callFailure (c : Call) (e : RegistryError) : (callFailure c e).status ≠ 200 := by
  obtain ⟨msg, data, eq⟩ := callFailure_enveloped c e
  have listed := e.status_mem
  rw [eq]
  intro fine
  have fine : e.status = 200 := fine
  rw [fine] at listed
  exact absurd listed (by decide)

/-- A request that asks for no write shows none. -/
theorem writes_of_reading {now : Int64} {uptime : Nat} {request : Request}
    (reads : request.asksWrite = false) (h : Handled) :
    (Input.receive now uptime request).writes (.handled h) = 0 := by
  cases h <;> simp [Input.writes, reads]

/-- A request is replicated just when it is a write that is answered with 200. -/
theorem changes_receive (now : Int64) (uptime : Nat) (request : Request) :
    (Order.changes ((member m).receive now uptime request).orders).length
      = (Input.receive now uptime request).writes
          (.handled ((member m).receive now uptime request).handled) := by
  cases asks : request.inquiry with
  | error answer =>
    rw [receive_of_refused asks, writes_of_reading (by simp [Request.asksWrite, asks])]
    rfl
  | ok inquiry =>
    cases inquiry with
    | call c =>
      rw [receive_of_call asks]
      cases c with
      | write w =>
        have asksWrite : request.asksWrite = true := by simp [Request.asksWrite, asks]
        -- a failure is answered with another status, and orders nothing
        have failed : ∀ e, (Order.changes ((member m).handling request (.write w)
            ((member m).service.fail e)).orders).length = (Input.receive now uptime request).writes
              (.handled ((member m).handling request (.write w)
                ((member m).service.fail e)).handled) := by
          intro e
          rw [handling_fail]
          simp [Input.writes, asksWrite, Order.changes, status_callFailure]
        cases check : w.check with
        | error e =>
          rw [Service.begin_of_unfit check]
          exact failed e
        | ok =>
          rw [Service.begin_of_fit check]
          cases (member m).isMaster with
          | false => rfl
          | true =>
            rw [if_pos rfl]
            rcases (member m).service.writeHere_cases now w with ⟨e, eq⟩ | ⟨service, c, o, eq⟩
            · rw [eq]
              exact failed e
            · have fine : (success (.write w) o).status = 200 := by cases o <;> rfl
              rw [eq, handling_of_done rfl]
              simp [Input.writes, asksWrite, sent, Order.changes, answerTo, fine]
      | discover name =>
        rw [writes_of_reading (by simp [Request.asksWrite, asks])]
        show (Order.changes (m.service.seek m.isMaster name discoveryAttempts).orders).length = 0
        rw [Service.orders_seek]
        rfl
    | sync | cursors | health | metrics =>
      rw [writes_of_reading (by simp [Request.asksWrite, asks])]
      simp [receive, carryOut, answering, asks, Order.changes]

/-- What is replicated is what the input shows to have been written. -/
theorem changes_perform (t : Input) :
    (Order.changes ((member m).perform t).orders).length
      = t.writes ((member m).perform t).shown := by
  cases t with
  | receive now uptime request => exact changes_receive m now uptime request
  | reply pending reply =>
    show (Order.changes (m.service.hear pending.stage reply).orders).length = 0
    cases pending.stage <;> cases reply <;> rfl
  | wake pending =>
    show (Order.changes (m.service.wake m.isMaster pending.stage).orders).length = 0
    cases pending.stage with
    | resting name left =>
      show (Order.changes (m.service.seek m.isMaster name left).orders).length = 0
      rw [Service.orders_seek]
      rfl
    | forwarding | asking | done => rfl
  | evict now timeout id => exact m.service.changes_evict m.isMaster now timeout id
  | sweep now timeout => exact m.service.changes_sweep m.isMaster now timeout

end Node

/-! ## What becomes of pushes -/

/-- The pushes of a change: one to each peer. -/
def Membership.pushesOf (m : Membership) (c : Change) : List Task := m.peers.map (.push · c)

namespace Episode

/-- The writes that an episode shows to have succeeded. -/
def writes (e : Episode) : Nat :=
  match e.act, e.shown with
  | .input t, some x => t.writes x
  | _, _ => 0

/-- The push whose fate is heard. -/
def ended (e : Episode) : List Task :=
  match e.act with
  | .hear _ (.push peer c) _ => [.push peer c]
  | _ => []

/-- Whether a push is heard to have been rejected, or not to have been delivered. -/
def fails (e : Episode) : Bool :=
  match e.act with
  | .hear _ (.push _ _) reply => !accepted reply
  | _ => false

end Episode

namespace Process

variable {p q r : Process} {a : Act} {shown : Option Shown} {es fs : List Episode}

/-- The pushes under way. -/
def pushes (p : Process) : List Task := (p.underway.map (·.task)).filter Task.isPush

/-- The accounts of pushes between two states of a node: each write that succeeded has been pushed
    once to each peer, each push is heard of once or still under way, and those that failed have
    been counted. -/
structure Accounts (p : Process) (es : List Episode) (q : Process) : Prop where
  membership : q.member.coordinator.membership = p.member.coordinator.membership
  failures : q.member.service.failures
    = p.member.service.failures + .ofNat (es.countP Episode.fails)
  pushes : ∃ sent : List (List Change), List.Forall₂ (fun e cs => cs.length = e.writes) es sent
    ∧ (p.pushes ++ sent.flatten.flatMap p.member.coordinator.membership.pushesOf).Perm
        (es.flatMap Episode.ended ++ q.pushes)

/-- Nothing done, nothing to account for. -/
theorem Accounts.refl (p : Process) : p.Accounts [] p where
  membership := rfl
  failures := (UInt64.add_zero _).symm
  pushes := ⟨[], .nil, by simp⟩

/-- Two stretches of acts are accounted for together: what was sent in the first is heard of in it,
    or is under way in the second. -/
theorem Accounts.trans (one : p.Accounts es q) (two : q.Accounts fs r) :
    p.Accounts (es ++ fs) r := by
  obtain ⟨sent, counts, balance⟩ := one.pushes
  obtain ⟨sent', counts', balance'⟩ := two.pushes
  rw [one.membership] at balance'
  refine ⟨two.membership.trans one.membership, ?_, sent ++ sent', ?_, ?_⟩
  · rw [two.failures, one.failures, List.countP_append, UInt64.ofNat_add, UInt64.add_assoc]
  · exact List.rel_append counts counts'
  · have both := (balance.append_right _).trans
      ((List.append_assoc ..).symm ▸ (balance'.append_left (es.flatMap Episode.ended)))
    simpa [List.append_assoc] using both

/-- An act that is not about a push: nothing is counted, and what it replicates is pushed. -/
theorem Accounts.of_changes {store : Store} (cs : List Change)
    (membership : q.member.coordinator.membership = p.member.coordinator.membership)
    (failures : q.member.service.failures = p.member.service.failures)
    (writes : cs.length = Episode.writes ⟨a, shown, store⟩)
    (common : a.isPush = false)
    (pushes : q.pushes = p.pushes ++ cs.flatMap p.member.coordinator.membership.pushesOf) :
    p.Accounts [⟨a, shown, store⟩] q := by
  have quiet : Episode.fails ⟨a, shown, store⟩ = false ∧ Episode.ended ⟨a, shown, store⟩ = [] := by
    cases a with
    | hear now e reply =>
      cases e with
      | push => cases common
      | _ => exact ⟨rfl, rfl⟩
    | _ => exact ⟨rfl, rfl⟩
  refine ⟨membership, ?_, [cs], .cons writes .nil, ?_⟩
  · rw [failures]
    simp [quiet.1]
  · simp [quiet.2, pushes]

/-- Serving adds the tasks of the orders. -/
theorem underway_served (p : Process) (m : Member) (orders : List Order) :
    (p.served m orders).underway
      = p.underway ++ (orders.flatMap m.tasksOf).map fun e => { task := e } := by
  simp [served, after]

/-- The pushes after a turn: those beside it, and those that it begins or goes on with. -/
theorem pushes_after (rest : List Underway) (progress : Progress) :
    (after rest progress).pushes = (rest.map (·.task)).filter Task.isPush
      ++ (progress.begun ++ progress.next.toList).filter Task.isPush := by
  simp [pushes, after, Function.comp_def]

/-- A task that is no push is not among the pushes. -/
theorem pushes_of_split {l r : List Underway} {u : Underway} (split : p.underway = l ++ u :: r)
    (common : u.task.isPush = false) :
    p.pushes = ((l ++ r).map (·.task)).filter Task.isPush := by
  simp [pushes, split, common]

end Process

/-- A turn begins no push. -/
def Progress.Quiet (p : Progress) : Prop := ∀ e ∈ p.begun ++ p.next.toList, e.isPush = false

namespace Member

variable {m : Member}

/-- No turn begins a push: pushes begin with what the service orders. -/
theorem Turn.quiet {now : Int64} {u : Underway} {p : Progress} (hTurn : m.Turn now u p) :
    p.Quiet := by
  intro e he
  cases hTurn with
  | adopt | begin =>
    rw [next_settleOn, Option.toList_none, List.append_nil] at he
    rw [mem_begun_settleOn m _ he]
    rfl
  | elect | promote =>
    rw [next_promote, Option.toList_none, List.append_nil] at he
    obtain ⟨previous, rfl⟩ := mem_begun_promote _ _ he
    rfl
  | _ =>
    -- at most one task is left, and it is of a kind other than a push
    simp at he <;> (subst he; rfl)

/-- Only the fate of a push changes the count of failed pushes. -/
theorem Turn.failures {now : Int64} {u : Underway} {p : Progress} (hTurn : m.Turn now u p)
    (hPush : u.task.isPush = false) : p.member.service.failures = m.service.failures := by
  cases hTurn with
  | adopt | begin => rw [service_settleOn]
  | refused => cases hPush
  | _ => rfl

end Member

/-- What a service replicates is pushed to every peer. -/
theorem Member.pushes_tasksOf (m : Member) (orders : List Order) :
    (orders.flatMap m.tasksOf).filter Task.isPush
      = (Order.changes orders).flatMap m.coordinator.membership.pushesOf := by
  induction orders with
  | nil => rfl
  | cons o orders ih =>
    rw [List.flatMap_cons, List.filter_append, ih]
    cases o with
    | replicate c =>
      have all : (m.tasksOf (.replicate c)).filter Task.isPush
          = m.coordinator.membership.pushesOf c := by
        refine List.filter_eq_self.2 fun e he => ?_
        obtain ⟨peer, -, rfl⟩ := List.mem_map.1 he
        rfl
      rw [all]
      rfl
    | checkMaster => rfl

namespace Process

variable {p q : Process} {a : Act} {shown : Option Shown} {es es' : List Episode}

/-- The turn of a task that is no push, beside the others. -/
theorem pushes_turned {l r : List Underway} {u : Underway} {progress : Progress}
    (split : p.underway = l ++ u :: r) (common : u.task.isPush = false)
    (quiet : progress.Quiet) : (after (l ++ r) progress).pushes = p.pushes ++ [] := by
  have none_begun : (progress.begun ++ progress.next.toList).filter Task.isPush = [] :=
    List.filter_eq_nil_iff.2 fun e he => by simp [quiet e he]
  rw [pushes_after, pushes_of_split split common, none_begun]

/-- Every act is accounted for. -/
theorem Performs.accounts (performs : p.Performs a shown q) :
    p.Accounts [⟨a, shown, q.member.store⟩] q := by
  have membership := performs.membership
  cases performs with
  | @input m t node =>
    -- an input counts no failed push: with the count it had it comes to the same
    refine .of_changes _ membership ?_ (Node.changes_perform p.member t) rfl ?_
    · have unmoved := (Node.unmoved_perform p.member p.member.service.failures t).node
      rw [p.member.withFailures_failures, node] at unmoved
      show m.service.failures = _
      rw [Node.member.inj unmoved]
      rfl
    · rw [served, pushes_after, ← membership]
      simp only [Option.toList_none, List.append_nil]
      rw [m.pushes_tasksOf]
      rfl
  | due => exact .of_changes [] rfl rfl rfl rfl (by simp [pushes, dueCheck, Task.isPush])
  | @answer l r e call reply split calls =>
    -- a push that is answered is still under way, until its fate is heard
    have kept : pushes { p with underway := l ++ ⟨e, some reply⟩ :: r } = p.pushes := by
      simp [pushes, split]
    refine ⟨membership, (UInt64.add_zero _).symm, [[]], .cons rfl .nil, ?_⟩
    rw [kept]
    simp [Episode.ended]
  | @hear l r e call reply now split calls =>
    cases common : e.isPush with
    | false =>
      have turned := p.member.turn_hear now calls reply
      exact .of_changes [] membership (turned.failures common) rfl common
        (pushes_turned split common turned.quiet)
    | true =>
      cases e with
      | push peer c =>
        refine ⟨membership, ?_, [[]], .cons rfl .nil, ?_⟩
        · cases fine : accepted reply with
          | true => simp [Member.hear, fine, Episode.fails]
          | false =>
            simp [Member.hear, fine, Episode.fails]
            rfl
        · have isPush : Task.isPush (.push peer c) = true := rfl
          simp [pushes, split, after, Member.hear, Episode.ended, isPush]
      | _ => cases common
  | @run l r e progress split turn =>
    have turned := Member.turn_run 0 turn
    have common := Member.isPush_of_run turn
    exact .of_changes [] membership (turned.failures common) rfl rfl
      (pushes_turned split common turned.quiet)
  | @rest l r master split =>
    exact .of_changes [] membership rfl rfl rfl
      (pushes_turned split rfl (by simp [Member.settled, Progress.Quiet, Task.isPush]))

/-- So is every run. -/
theorem Passes.accounts (run : p.Passes es q) : p.Accounts es q := by
  induction run with
  | nil => exact .refl _
  | cons performs passes ih => exact performs.accounts.trans ih

end Process

end ServiceRegistry
