/-
  A node that is none of its candidates.

  When such a node starts it warns that it can never become master.  But when none of the candidates
  answers its start it asks itself, and when it hears itself it stays with itself.

  1. `Aside`: all that the node points at or tries is another node.  Whoever has a turn, that stays
     so, unless the start has heard the node itself (`Member.Turn.aside`).
  2. `Member.Declines`: a node that is not master carries out no call and evicts nothing.
  3. `declines_of_outside`: until its start has heard the node itself, a node declines, whatever its
     calls are answered and whatever failovers it is asked for, before its start or after.
  4. `outsider_promoted`: after that it is master.  A node may also become master because a
     candidate is its own address in another form, for which the list is not searched.
-/
import ServiceRegistry.Proofs.Cluster.Life
import ServiceRegistry.Proofs.Cluster.Ring
import ServiceRegistry.Settings.Basic

namespace ServiceRegistry

/-! ## What is tried -/

/-- The candidates that a task tries, now or later. -/
def Task.tries : Task → List String
  | .seekPeer peer rest => peer :: rest
  | .scan _ candidate rest => candidate :: rest
  | _ => []

/-- The start has asked the node itself and hears that it is up. -/
def Underway.hearsItself : Underway → Bool
  | ⟨.seekSelf _, some r⟩ => healthy r
  | _ => false

/-- Neither a candidate nor the fallback is the node itself. -/
structure Membership.Outside (m : Membership) : Prop where
  candidates : ∀ a ∈ m.candidates, m.isSelf a = false
  fallback : m.isSelf m.fallback = false

namespace Membership.Outside

variable {m : Membership} (outside : m.Outside)
include outside

/-- The peers of such a node are other nodes. -/
theorem peers : ∀ a ∈ m.peers, m.isSelf a = false :=
  fun a ha => outside.candidates a (List.mem_filter.1 ha).1

/-- So are all that a failover tries. -/
theorem failoverOrder (f : String) : ∀ a ∈ m.failoverOrder f, m.isSelf a = false :=
  fun a ha => outside.candidates a (mem_candidates_of_mem_failoverOrder ha)

end Membership.Outside

/-- A coordinator points at nobody, or at another node. -/
structure Coordinator.Aside (m : Membership) (c : Coordinator) : Prop where
  membership : c.membership = m
  pointer : ∀ t, c.master = some t → m.isSelf t = false

/-- A turn leaves the pointer at another node, if anywhere, and goes on to others. -/
structure Progress.Aside (m : Membership) (p : Progress) : Prop where
  coordinator : p.member.coordinator.Aside m
  tries : ∀ e ∈ p.begun ++ p.next.toList, ∀ a ∈ e.tries, m.isSelf a = false

namespace Member

variable {m : Membership} {n : Member}

/-- What begins nothing that tries candidates. -/
theorem aside_quiet {p : Progress} (coordinator : p.member.coordinator.Aside m)
    (quiet : ∀ e ∈ p.begun ++ p.next.toList, e.tries = []) : p.Aside m := by
  refine ⟨coordinator, fun e he a ha => ?_⟩
  rw [quiet e he] at ha
  exact absurd ha List.not_mem_nil

/-- A start that ends with another node. -/
theorem aside_settleOn (aside : n.coordinator.Aside m) {a : String} (other : m.isSelf a = false) :
    (n.settleOn a).Aside m := by
  refine aside_quiet ⟨?_, fun t there => ?_⟩ fun e he => ?_
  · simpa using aside.membership
  · rw [coordinator_settleOn] at there
    obtain rfl := Option.some.inj there
    exact other
  · rw [next_settleOn, Option.toList_none, List.append_nil] at he
    rw [mem_begun_settleOn n a he]
    rfl

/-- A start that goes on to other nodes. -/
theorem aside_seek (aside : n.coordinator.Aside m) {peers : List String}
    (others : ∀ a ∈ peers, m.isSelf a = false) : (n.seek peers).Aside m := by
  cases peers with
  | nil => exact aside_quiet aside (by simp [seek, Task.tries])
  | cons peer rest => exact ⟨aside, by simpa [seek, Task.tries] using others⟩

/-- Whoever has a turn, the node stays aside, unless the start has heard the node itself. -/
theorem Turn.aside {now : Int64} {u : Underway} {p : Progress} (hTurn : n.Turn now u p)
    (outside : m.Outside) (aside : n.coordinator.Aside m)
    (others : ∀ a ∈ u.task.tries, m.isSelf a = false) (unheard : u.hearsItself = false) :
    p.Aside m := by
  cases hTurn with
  | adopt => exact aside_settleOn aside (others _ (.head _))
  | @seekNext peer next rest r down =>
    exact ⟨aside, by simpa [Task.tries] using (List.forall_mem_cons.1 others).2⟩
  | begin =>
    -- the node itself was not heard, so the start ends at the fallback
    have down : healthy _ = false := unheard
    rw [down, if_neg Bool.false_ne_true, aside.membership]
    exact aside_settleOn aside outside.fallback
  | @elect f candidate rest free same order own =>
    -- all candidates are others, so no failover comes to the node itself
    have away := outside.failoverOrder (f.getD "")
    rw [← aside.membership, order] at away
    exact absurd ((away _ (.head _)).symm.trans own) Bool.false_ne_true
  | @promote f candidate next rest r down own =>
    rw [aside.membership] at own
    exact absurd ((others next (.tail _ (.head _))).symm.trans own) Bool.false_ne_true
  | @enter f candidate rest free same order other =>
    refine ⟨⟨aside.membership, aside.pointer⟩, ?_⟩
    have away := outside.failoverOrder (f.getD "")
    rw [← aside.membership, order] at away
    simpa [Task.tries, aside.membership] using away
  | nobody | giveUp => exact aside_quiet ⟨aside.membership, nofun⟩ (by simp)
  | follow =>
    refine aside_quiet ⟨aside.membership, fun t there => ?_⟩ (by simp [Task.tries])
    obtain rfl := Option.some.inj there
    exact others _ (.head _)
  | @scanNext f candidate next rest r down other =>
    exact ⟨aside, by simpa [Task.tries] using (List.forall_mem_cons.1 others).2⟩
  | pulled | adopted | refused =>
    exact aside_quiet ⟨aside.membership, aside.pointer⟩ (by simp [Task.tries])
  | _ => exact aside_quiet aside (by simp [Task.tries])

end Member

/-! ## Lives -/

namespace Process

variable {m : Membership} {p q : Process} {u : Option Underway} {es : List ClusterEvent}

/-- A node points at others, and whatever it has under way tries others.  Once so, it stays so,
    unless its start asks the node itself and hears that it is up. -/
structure Aside (m : Membership) (p : Process) : Prop where
  coordinator : p.member.coordinator.Aside m
  tries : ∀ v ∈ p.underway, ∀ a ∈ v.task.tries, m.isSelf a = false

/-- What a turn leaves stays aside, beside others that are. -/
theorem aside_after {others : List Underway} {progress : Progress}
    (tries : ∀ v ∈ others, ∀ a ∈ v.task.tries, m.isSelf a = false) (aside : progress.Aside m) :
    (after others progress).Aside m := by
  refine ⟨aside.coordinator, fun v hv => ?_⟩
  rcases List.mem_append.1 hv with hv | hv
  · exact tries v hv
  · obtain ⟨e, he, rfl⟩ := List.mem_map.1 hv
    exact aside.tries e he

/-- The task that has its turn, and the others. -/
theorem Aside.of_split (aside : p.Aside m) {l r : List Underway} {v : Underway}
    (split : p.underway = l ++ v :: r) :
    (∀ a ∈ v.task.tries, m.isSelf a = false)
      ∧ ∀ w ∈ l ++ r, ∀ a ∈ w.task.tries, m.isSelf a = false := by
  have tries := aside.tries
  rw [split] at tries
  exact ⟨tries v (by simp), fun w hw => tries w (mem_of_mem_others hw)⟩

/-- What begins beside the others and tries nobody. -/
theorem Aside.append (aside : p.Aside m) {e : Task} (quiet : e.tries = []) :
    Aside m { p with underway := p.underway ++ [{ task := e }] } := by
  refine ⟨aside.coordinator, fun v hv a ha => ?_⟩
  rcases List.mem_append.1 hv with hv | hv
  · exact aside.tries v hv a ha
  · rw [List.mem_singleton.1 hv, quiet] at ha
    exact absurd ha List.not_mem_nil

/-- What a service orders tries nobody. -/
theorem tries_tasksOf (n : Member) (orders : List Order) :
    ∀ e ∈ orders.flatMap n.tasksOf, e.tries = [] := by
  intro e he
  obtain ⟨o, -, he⟩ := List.mem_flatMap.1 he
  cases o with
  | replicate c =>
    obtain ⟨peer, -, rfl⟩ := List.mem_map.1 he
    rfl
  | checkMaster =>
    obtain rfl := List.mem_singleton.1 he
    rfl

/-- Whatever happens to it, a node stays aside until its start has heard the node itself. -/
theorem Aside.happens (aside : p.Aside m) (outside : m.Outside) (happens : p.Happens u es q)
    (unheard : ∀ v ∈ u.toList, v.hearsItself = false) : q.Aside m := by
  cases happens with
  | check => exact aside.append rfl
  | @answer l r e call reply split calls =>
    obtain ⟨first, others⟩ := aside.of_split split
    refine ⟨aside.coordinator, fun v hv => ?_⟩
    rcases mem_split.1 hv with rfl | hv
    · exact first
    · exact others v hv
  | hear now split calls =>
    obtain ⟨first, others⟩ := aside.of_split split
    exact aside_after others
      ((Member.turn_hear _ now calls _).aside outside aside.coordinator first (unheard _ (.head _)))
  | run split turn =>
    obtain ⟨first, others⟩ := aside.of_split split
    exact aside_after others
      ((Member.turn_run 0 turn).aside outside aside.coordinator first (unheard _ (.head _)))
  | rest split =>
    exact aside_after (aside.of_split split).2
      (Member.aside_quiet aside.coordinator (by simp [Member.settled, Task.tries]))
  | serve service orders counted =>
    have still : p.member.coordinator.Aside m := aside.coordinator
    refine aside_after aside.tries (Member.aside_quiet still ?_)
    simpa using tries_tasksOf _ orders

/-- So it does all its life. -/
theorem Life.aside {asked : Option String → Prop} {begun : Bool} {turns : List Underway}
    {events : List ClusterEvent} (life : Life asked m begun turns events p) (outside : m.Outside)
    (unheard : ∀ v ∈ turns, v.hearsItself = false) : p.Aside m := by
  induction life with
  | fresh => exact ⟨⟨rfl, fun t there => nomatch there⟩, fun v hv => absurd hv List.not_mem_nil⟩
  | @start turns events p life ih =>
    have aside := ih unheard
    refine aside_after aside.tries (Member.aside_seek aside.coordinator ?_)
    rw [aside.coordinator.membership]
    exact outside.peers
  | failover life allowed ih => exact (ih unheard).append rfl
  | step life happens ih =>
    have earlier := fun v hv => unheard v (List.mem_append_left _ hv)
    have now := fun v hv => unheard v (List.mem_append_right _ hv)
    exact (ih earlier).happens outside happens now

end Process

/-! ## Nothing is carried out -/

/-- A turn that does not find the node to be master carries nothing out. -/
theorem Turn.Came.of_slave {s : Service} {t : Turn} (came : t.Came false s) :
    t.service.store = s.store ∧ t.orders = [] := by
  cases came with
  | failed | forwarded => exact ⟨rfl, rfl⟩
  | wrote master | found master => exact nomatch master

/-- A node is not master: no call of a client changes its table or has anything replicated, neither
    when it begins nor later, and nothing is evicted. -/
structure Member.Declines (n : Member) : Prop where
  role : n.isMaster = false
  begins : ∀ now c, (n.service.begin n.isMaster now c).service.store = n.store
    ∧ (n.service.begin n.isMaster now c).orders = []
  wakes : ∀ name left, (n.service.wake n.isMaster (.resting name left)).service.store = n.store
    ∧ (n.service.wake n.isMaster (.resting name left)).orders = []
  evicts : ∀ now timeout id, n.service.evict n.isMaster now timeout id = (false, n.service, [])
  sweeps : ∀ now timeout, n.service.sweep n.isMaster now timeout = (0, n.service, [])

/-- A node that is not master declines. -/
theorem Member.declines_of_slave {n : Member} (slave : n.isMaster = false) : n.Declines where
  role := slave
  begins now c := by
    rw [slave]
    exact (n.service.came_begin false now c).of_slave
  wakes name left := by
    rw [slave]
    exact (n.service.came_wake false name left).of_slave
  evicts now timeout id := by
    rw [slave]
    rfl
  sweeps now timeout := by
    rw [slave]
    rfl

/-- A node for which neither a candidate nor the fallback is the node itself, declines until its
    start has heard itself: whatever its calls are answered, whenever it starts and its master is
    checked, and whatever failovers it is asked for. -/
theorem declines_of_outside {asked : Option String → Prop} {m : Membership} {begun : Bool}
    {turns : List Underway} {events : List ClusterEvent} {p : Process}
    (others : ∀ a ∈ m.candidates, m.isSelf a = false) (fallback : m.isSelf m.fallback = false)
    (life : Process.Life asked m begun turns events p)
    (unheard : ∀ v ∈ turns, v.hearsItself = false) : p.member.Declines := by
  obtain ⟨⟨membership, pointer⟩, -⟩ := life.aside ⟨others, fallback⟩ unheard
  refine Member.declines_of_slave (Bool.eq_false_iff.2 fun master => ?_)
  obtain ⟨-, t, points, own⟩ := Coordinator.isMaster_iff.1 master
  rw [membership] at own
  exact Bool.false_ne_true ((pointer t points).symm.trans own)

namespace Process

/-- When no peer answers the start, the node comes to ask itself. -/
theorem Life.exists_unanswered {asked : Option String → Prop} {m : Membership}
    {peers : List String} {turns : List Underway}
    (life : Life asked m true turns [] (after [] ((Member.fresh m).seek peers)))
    (unheard : ∀ v ∈ turns, v.hearsItself = false) :
    ∃ turns, Life asked m true turns [] ⟨.fresh m, [{ task := .seekSelf m.self }]⟩
      ∧ ∀ v ∈ turns, v.hearsItself = false := by
  induction peers generalizing turns with
  | nil => exact ⟨turns, life, unheard⟩
  | cons peer rest ih =>
    have next : (Member.fresh m).hear 0 (.seekPeer peer rest) none = (Member.fresh m).seek rest :=
      rfl
    have silent : ((Member.fresh m).seek rest).events = [] := by cases rest <;> rfl
    have passed := (life.step (.answer (l := []) (r := []) none rfl rfl)).told
      (l := []) (r := []) rfl rfl next
    rw [silent] at passed
    refine ih passed fun v hv => ?_
    rcases List.mem_append.1 hv with hv | hv
    · rw [Option.toList_none, List.append_nil] at hv
      exact unheard v hv
    · rw [List.mem_singleton.1 hv]
      rfl

/-- Then it settles on itself if it answers, and on the fallback otherwise. -/
theorem Life.exists_settled (asked : Option String → Prop) (m : Membership)
    (reply : Option Relayed) :
    ∃ turns events, Life asked m true turns events
        (after [] ((Member.fresh m).settleOn (if healthy reply then m.self else m.fallback)))
      ∧ (healthy reply = false → ∀ v ∈ turns, v.hearsItself = false) := by
  obtain ⟨turns, life, unheard⟩ := (@Life.fresh asked m).start.exists_unanswered
    fun v hv => absurd hv List.not_mem_nil
  refine ⟨_, _, (life.step (.answer (l := []) (r := []) reply rfl rfl)).told
    (l := []) (r := []) rfl rfl rfl, fun down v hv => ?_⟩
  rcases List.mem_append.1 hv with hv | hv
  · rw [Option.toList_none, List.append_nil] at hv
    exact unheard v hv
  · rw [List.mem_singleton.1 hv]
    exact down

/-- Nobody answers the start of a node that is not listed, not even the node itself: it falls back
    to the first candidate, and declines. -/
theorem declines_of_outside_unanswered :
    ∃ turns events p, Life (fun _ => True) ⟨"c", ["a", "b"], "a"⟩ true turns events p
      ∧ p.member.coordinator.role = .slave ∧ p.member.Declines := by
  obtain ⟨turns, events, life, unheard⟩ :=
    Life.exists_settled (fun _ => True) ⟨"c", ["a", "b"], "a"⟩ none
  exact ⟨turns, events, _, life, by decide,
    declines_of_outside (by decide) (by decide) life (unheard rfl)⟩

/-- The settings of a node whose address stands among the candidates with a blank between slashes
    behind it. -/
def blurred : NodeSettings where
  nodeAddress := some "http://c:8182"
  cluster := ["http://a:8180", "http://c:8182 / /"]
  defaultMaster := some "http://a:8180"

/-- A node that is not in its list becomes master when its start hears itself.  It also does when
    nobody ever answers, if a candidate is its own address in another form. -/
theorem outsider_promoted :
    (∃ turns events p, Life unasked ⟨"c", ["a", "b"], "a"⟩ true turns events p
      ∧ p.member.coordinator.membership.containsSelf = false ∧ p.member.isMaster = true)
    ∧ ∃ turns events p, Life unasked blurred.membership true turns events p
      ∧ p.member.coordinator.membership.containsSelf = false
      ∧ (∀ v ∈ turns, v.hearsItself = false) ∧ p.member.isMaster = true := by
  constructor
  · obtain ⟨turns, events, life, -⟩ :=
      Life.exists_settled unasked ⟨"c", ["a", "b"], "a"⟩ (some ⟨200, []⟩)
    exact ⟨turns, events, _, life, by decide, by decide⟩
  · let n : Membership := ⟨"http://c:8182", ["http://a:8180", "http://c:8182 "], "http://a:8180"⟩
    let slave : Member :=
      { coordinator := { membership := n, master := some "http://a:8180", started := true } }
    let elected : Member := slave.entered
    have read : blurred.membership = n := by decide +kernel
    have other : n.isSelf "http://a:8180" = false := by decide +kernel
    have own : n.isSelf "http://c:8182 " = true := by decide +kernel
    have order : n.failoverOrder "http://a:8180" = ["http://c:8182 "] := by decide +kernel
    have falls : (Member.fresh n).settleOn "http://a:8180"
        = { member := slave, events := [.masterChanged "http://a:8180"],
            begun := [.settle "http://a:8180"] } := Member.settleOn_of_other other
    have checks : slave.run .check
        = some { member := slave, next := some (.probeMaster "http://a:8180") } :=
      Member.Turn.eq_run (.probe rfl rfl other)
    have fails : slave.hear 0 (.probeMaster "http://a:8180") none
        = { member := slave, next := some (.awaitTurn (some "http://a:8180")) } :=
      Member.Turn.eq_hear (.failed rfl)
    have promotes : slave.run (.awaitTurn (some "http://a:8180"))
        = some (elected.promote (some "http://a:8180")) :=
      Member.Turn.eq_run (.elect rfl rfl order own)
    obtain ⟨turns, events, settled, unheard⟩ := Life.exists_settled unasked n none
    change Life unasked n true turns events
      (after [] ((Member.fresh n).settleOn "http://a:8180")) at settled
    rw [falls] at settled
    let rest : Underway := { task := .settle "http://a:8180" }
    have dead := (((settled.step .check).step (.run (l := [rest]) (r := []) rfl checks)).step
      (.answer (l := [rest]) (r := []) none rfl rfl)).told (l := [rest]) (r := []) rfl rfl fails
    have promoted := dead.step (.run (l := [rest]) (r := []) rfl promotes)
    rw [read]
    refine ⟨_, _, _, promoted, by decide +kernel, fun v hv => ?_, by decide +kernel⟩
    -- the turns after the start are those of a check and its failover
    simp only [Option.toList_none, Option.toList_some, List.append_nil, List.append_assoc,
      List.mem_append, List.mem_singleton] at hv
    rcases hv with hv | rfl | rfl | rfl
    · exact unheard rfl v hv
    all_goals rfl

end Process

end ServiceRegistry
