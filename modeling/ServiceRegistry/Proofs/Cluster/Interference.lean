/-
  Pushes do not interfere with what a node does.

  Two runs of a node are compared in which it does the same, except that its pushes are answered in
  two ways.

  1. `Process.Level`: two processes differ in the pushes under way and in the count of failed pushes
     alone.  An act of a push leaves a process level with itself (`Performs.level_of_push`); any
     other act, done by two level processes, shows the same and leaves them level
     (`Level.performs`).
  2. `Level.passes`: so do whole runs, whose pushes may come in between at different places.
  3. `pushes_do_not_interfere` adds the accounts of the pushes in each run.
-/
import ServiceRegistry.Proofs.Cluster.Pushes

namespace ServiceRegistry

/-! ## Processes that differ in their pushes -/

/-- Two runs have an act in common: they show the same of it, or texts of metrics, and leave the
    same table. -/
inductive Episode.Alike : Episode → Episode → Prop
  | task (a : Act) (store : Store) : Alike ⟨a, none, store⟩ ⟨a, none, store⟩
  | input {t : Input} {x x' : Shown} (alike : t.Alike x x') (store : Store) :
      Alike ⟨.input t, some x, store⟩ ⟨.input t, some x', store⟩

namespace Process

variable {p p' q q' : Process} {a : Act} {shown shown' : Option Shown}

/-- What is under way, without the pushes. -/
def others (p : Process) : List Underway := p.underway.filter (!·.task.isPush)

/-- The members differ at most in how many pushes have failed, and the same is under way, in
    whatever order, but for pushes.  The order must be open: where one run still has a push between
    two tasks, the other may have none. -/
structure Level (p p' : Process) : Prop where
  member : ∃ n, p'.member = p.member.withFailures n
  others : p'.others.Perm p.others

namespace Level

/-- A process is level with itself. -/
theorem refl (p : Process) : p.Level p := ⟨⟨p.member.service.failures, rfl⟩, .refl _⟩

/-- The counts can be told from either side. -/
theorem symm (level : p.Level p') : p'.Level p := by
  obtain ⟨n, same⟩ := level.member
  exact ⟨⟨p.member.service.failures, by rw [same]; rfl⟩, level.others.symm⟩

/-- Levels are passed on. -/
theorem trans (level : p.Level p') (level' : p'.Level q) : p.Level q := by
  obtain ⟨n, same⟩ := level.member
  obtain ⟨n', same'⟩ := level'.member
  exact ⟨⟨n', by rw [same', same]; rfl⟩, level'.others.trans level.others⟩

end Level

/-- What is under way after a turn, without the pushes. -/
theorem others_after (rest : List Underway) (progress : Progress) :
    (after rest progress).others = rest.filter (!·.task.isPush)
      ++ ((progress.begun ++ progress.next.toList).map fun e => ({ task := e } : Underway)).filter
          (!·.task.isPush) := List.filter_append ..

/-- What is under way beside the task that has its turn. -/
theorem others_of_split {l r : List Underway} {u : Underway} (split : p.underway = l ++ u :: r)
    (common : u.task.isPush = false) :
    p.others.Perm (u :: (l ++ r).filter (!·.task.isPush)) := by
  rw [others, split, List.filter_append, List.filter_cons_of_pos (by simp [common]),
    List.filter_append]
  exact List.perm_middle

/-- An act of a push shows nothing, and changes nothing but its count. -/
theorem Performs.level_of_push (performs : p.Performs a shown q) (push : a.isPush = true) :
    shown = none ∧ p.Level q := by
  cases performs with
  | input | due | run | rest => cases push
  | @answer l r e call reply split calls =>
    refine ⟨rfl, ⟨p.member.service.failures, rfl⟩, ?_⟩
    have isPush : e.isPush = true := push
    simp [others, split, isPush]
  | @hear l r e call reply now split calls =>
    cases e with
    | push peer c =>
      refine ⟨rfl, ?_, ?_⟩
      · rw [after_member]
        cases fine : accepted reply with
        | true => exact ⟨p.member.service.failures, by simp [Member.hear, fine]⟩
        | false => exact ⟨p.member.service.failures + 1, by simp [Member.hear, fine]; rfl⟩
      · simp [others, split, after, Member.hear, Task.isPush]
    | _ => cases push

/-- The same turn, beside the same others. -/
theorem Level.after {rest rest' : List Underway} {progress progress' : Progress} {n : UInt64}
    (beside : (rest'.filter (!·.task.isPush)).Perm (rest.filter (!·.task.isPush)))
    (same : progress' = progress.withFailures n) :
    (Process.after rest progress).Level (Process.after rest' progress') := by
  subst same
  refine ⟨⟨n, rfl⟩, ?_⟩
  rw [others_after, others_after]
  exact beside.append (.refl _)

/-- Level processes hold the same table. -/
theorem Level.store (level : p.Level p') : p'.member.store = p.member.store := by
  obtain ⟨n, same⟩ := level.member
  rw [same]
  rfl

/-- The same is under way beside a task that has its turn in both. -/
theorem Level.beside (level : p.Level p') {l r l' r' : List Underway} {u : Underway}
    (split : p.underway = l ++ u :: r) (split' : p'.underway = l' ++ u :: r')
    (common : u.task.isPush = false) :
    ((l' ++ r').filter (!·.task.isPush)).Perm ((l ++ r).filter (!·.task.isPush)) := by
  have both := level.others.trans (others_of_split split common)
  exact ((others_of_split split' common).symm.trans both).cons_inv

/-- Level processes that do the same thing show the same of it and remain level. -/
theorem Level.performs (level : p.Level p') (one : p.Performs a shown q)
    (other : p'.Performs a shown' q') (common : a.isPush = false) :
    q.Level q' ∧ Episode.Alike ⟨a, shown, q.member.store⟩ ⟨a, shown', q'.member.store⟩ := by
  obtain ⟨n, same⟩ := level.member
  have others := level.others
  -- what belongs to no input shows nothing, so being level is all there is to say
  have quietly : q.Level q' → shown = none → shown' = none →
      q.Level q' ∧ Episode.Alike ⟨a, shown, q.member.store⟩ ⟨a, shown', q'.member.store⟩ := by
    rintro level rfl rfl
    refine ⟨level, ?_⟩
    rw [level.store]
    exact .task a _
  cases one with
  | @input m t node =>
    cases other with
    | @input m' _ node' =>
      -- an input is carried out by the member, which differs in its count alone
      have unmoved := Node.unmoved_perform p.member n t
      rw [← same] at unmoved
      have moved : m' = m.withFailures n := by
        have both := node'.symm.trans (unmoved.node.trans (congrArg _ node))
        exact Node.member.inj both
      have level : (p.served m ((Node.member p.member).perform t).orders).Level
          (p'.served m' ((Node.member p'.member).perform t).orders) := by
        rw [unmoved.orders, moved]
        exact .after others rfl
      refine ⟨level, ?_⟩
      rw [level.store]
      exact .input unmoved.shown _
  | due =>
    cases other
    refine quietly ⟨⟨n, same⟩, ?_⟩ rfl rfl
    simpa [Process.others, dueCheck, List.filter_append] using others.append_right _
  | @answer l r e call reply split calls =>
    cases other with
    | @answer l' r' _ call' _ split' calls' =>
      refine quietly ⟨⟨n, same⟩, ?_⟩ rfl rfl
      have quiet : (Underway.mk e (some reply)).task.isPush = false := common
      -- the answer waits beside the same others in both
      have answered := (level.beside split split' common).cons ⟨e, some reply⟩
      exact ((others_of_split rfl quiet).trans answered).trans (others_of_split rfl quiet).symm
  | @hear l r e call reply now split calls =>
    cases other with
    | @hear l' r' _ call' _ _ split' calls' =>
      have heard : p'.member.hear now e reply = (p.member.hear now e reply).withFailures n := by
        rw [same]
        exact p.member.hear_withFailures n calls common now reply
      exact quietly (.after (level.beside split split' common) heard) rfl rfl
  | @run l r e progress split turn =>
    cases other with
    | @run l' r' _ progress' split' turn' =>
      have beside := level.beside split split' (Member.isPush_of_run turn)
      rw [same, p.member.run_withFailures n turn] at turn'
      exact quietly (.after beside (Option.some.inj turn').symm) rfl rfl
  | @rest l r master split =>
    cases other with
    | rest split' =>
      have settled : p'.member.settled (.settle master)
          = (p.member.settled (.settle master)).withFailures n := by
        rw [same]
        rfl
      exact quietly (.after (level.beside split split' rfl) settled) rfl rfl

end Process

/-! ## Runs that differ in their pushes -/

/-- The episodes of a run that belong to no push. -/
def commons (es : List Episode) : List Episode := es.filter (!·.act.isPush)

namespace Process

variable {p p' q q' : Process} {es es' : List Episode}

/-- A run of nothing but pushes. -/
theorem Passes.level_of_pushes (run : p.Passes es q) (pushes : commons es = []) : p.Level q := by
  induction run with
  | nil => exact .refl _
  | @cons p q r a shown es performs passes ih =>
    cases push : a.isPush with
    | false => simp [commons, push] at pushes
    | true =>
      rw [commons, List.filter_cons_of_neg (by simp [push])] at pushes
      exact (performs.level_of_push push).2.trans (ih pushes)

/-- A run up to the first act that belongs to no push. -/
theorem Passes.exists_common {e : Episode} {rest : List Episode} (run : p.Passes es q)
    (first : commons es = e :: rest) :
    ∃ p₁ p₂ later, p.Level p₁ ∧ p₁.Performs e.act e.shown p₂ ∧ e.store = p₂.member.store
      ∧ p₂.Passes later q ∧ commons later = rest := by
  induction run with
  | nil => cases first
  | @cons p q r a shown es performs passes ih =>
    cases push : a.isPush with
    | false =>
      rw [commons, List.filter_cons_of_pos (by simp [push])] at first
      obtain ⟨rfl, rfl⟩ := List.cons.inj first
      exact ⟨p, q, es, .refl p, performs, rfl, passes, rfl⟩
    | true =>
      rw [commons, List.filter_cons_of_neg (by simp [push])] at first
      obtain ⟨p₁, p₂, later, level, performs', store, passes', same⟩ := ih first
      exact ⟨p₁, p₂, later, (performs.level_of_push push).2.trans level, performs', store, passes',
        same⟩

/-- Two runs from level processes with the same acts, but for pushes, show the same. -/
theorem Level.passes (level : p.Level p') (run : p.Passes es q) (run' : p'.Passes es' q')
    (same : (commons es).map (·.act) = (commons es').map (·.act)) :
    q.Level q' ∧ List.Forall₂ Episode.Alike (commons es) (commons es') := by
  induction run generalizing p' es' with
  | nil =>
    have none_left : commons es' = [] := List.map_eq_nil_iff.1 same.symm
    rw [none_left]
    exact ⟨level.trans (run'.level_of_pushes none_left), .nil⟩
  | @cons p q r a shown es performs passes ih =>
    cases push : a.isPush with
    | true =>
      rw [commons, List.filter_cons_of_neg (by simp [push])] at same ⊢
      exact ih ((performs.level_of_push push).2.symm.trans level) run' same
    | false =>
      rw [commons, List.filter_cons_of_pos (by simp [push])] at same ⊢
      obtain ⟨⟨_, shown', store⟩, rest, first, rfl, later⟩ := List.map_eq_cons_iff.1 same.symm
      obtain ⟨p₁, p₂, more, before, performs', rfl, passes', rfl⟩ := run'.exists_common first
      obtain ⟨after, alike⟩ := (level.trans before).performs performs performs' push
      obtain ⟨ends, rest_alike⟩ := ih after passes' later.symm
      rw [first]
      exact ⟨ends, .cons alike rest_alike⟩

end Process

namespace Process

/-- Let a node do the same things twice, with the same requests, replies, clock readings and sweeps,
    while its pushes are answered in two ways, each at any time or not at all.  All that it shows is
    the same, but for the texts of its metrics, and so is its table after each act; an act of a push
    shows nothing and leaves the table alone.  In the end the node differs in its count of failed
    pushes alone, and in each run this has grown by the pushes that were rejected or not delivered,
    where each write that succeeded has been pushed to each peer once. -/
theorem pushes_do_not_interfere {p q q' : Process} {es es' : List Episode} (run : p.Passes es q)
    (run' : p.Passes es' q') (same : (commons es).map (·.act) = (commons es').map (·.act)) :
    List.Forall₂ Episode.Alike (commons es) (commons es')
    ∧ (∃ n, q'.member = q.member.withFailures n)
    ∧ p.Accounts es q ∧ p.Accounts es' q'
    ∧ ∀ {r s : Process} {a : Act} {shown : Option Shown}, r.Performs a shown s → a.isPush = true →
        shown = none ∧ s.member.store = r.member.store := by
  obtain ⟨level, alike⟩ := (Level.refl p).passes run run' same
  refine ⟨alike, level.member, run.accounts, run'.accounts, fun performs push => ?_⟩
  obtain ⟨silent, still⟩ := performs.level_of_push push
  exact ⟨silent, still.store⟩

/-- A push that is alone under way is answered, and its fate is heard. -/
private theorem exists_told {p : Process} {peer : String} {c : Change}
    (split : p.underway = [] ++ { task := .push peer c } :: []) (reply : Option Relayed) :
    ∃ q, p.Passes
      [⟨.answer (.push peer c) reply, none, p.member.store⟩,
        ⟨.hear 0 (.push peer c) reply, none,
          (p.member.hear 0 (.push peer c) reply).member.store⟩] q :=
  let answered : Process := { p with underway := [] ++ ⟨.push peer c, some reply⟩ :: [] }
  have first : p.Performs (.answer (.push peer c) reply) none answered := .answer reply split rfl
  have second : answered.Performs (.hear 0 (.push peer c) reply) none
    (after [] (p.member.hear 0 (.push peer c) reply)) := .hear (l := []) (r := []) 0 rfl rfl
  ⟨_, .cons (q := answered) first (.cons second .nil)⟩

/-- A master of two nodes is asked for a registration, and pushes it.  The push is accepted in one
    run and cannot be delivered in the other. -/
theorem pushes_do_not_interfere_registering :
    ∃ (p q q' : Process) (es es' : List Episode), p.member.isMaster = true
      ∧ p.Passes es q ∧ p.Passes es' q' ∧ (commons es).length = 1
      ∧ List.Forall₂ Episode.Alike (commons es) (commons es')
      ∧ q.member.service.failures = 0 ∧ q'.member.service.failures = 1 := by
  let m : Member :=
    { coordinator := { membership := ⟨"a", ["a", "b"], "a"⟩, master := some "a", started := true } }
  let x : Instance := { id := "i", identity := ⟨"s", "h", 80⟩ }
  let request := (PeerCall.write "a" ⟨.register, x⟩).request
  have asks : request.inquiry = .ok (.call (.write (.register x))) :=
    PeerCall.inquiry_write (w := .register x) "a" (by decide +kernel)
  let t : Input := .receive 5 0 request
  obtain ⟨service, node⟩ := Node.node_perform m t
  let served := Process.served { member := m } { m with service } ((Node.member m).perform t).orders
  have wrote : Performs { member := m } (.input t) _ served := .input t node
  let c : Change := ⟨.register, { x with registered := .ofSecs 5, heartbeat := .ofSecs 5 }⟩
  have orders : ((Node.member m).perform t).orders = [.replicate c] := by
    rw [Node.perform_receive, Node.receive_of_call asks]
    show (m.service.begin true 5 (.write (.register x))).orders = _
    decide +kernel
  have push : served.underway = [] ++ { task := .push "b" c } :: [] := by
    rw [underway_served, orders]
    rfl
  obtain ⟨q, taken⟩ := exists_told push (some ⟨200, []⟩)
  obtain ⟨q', lost⟩ := exists_told push none
  obtain ⟨alike, -, accounts, accounts', -⟩ :=
    pushes_do_not_interfere (.cons wrote taken) (.cons wrote lost) rfl
  exact ⟨_, q, q', _, _, by decide, .cons wrote taken, .cons wrote lost, rfl, alike,
    accounts.failures, accounts'.failures⟩

end Process

end ServiceRegistry
