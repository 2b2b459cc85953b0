import ActorCluster.Node.Sources

/-! # The order of execution

One goroutine serves a stream: it takes the envelopes of a batch one by one and reads
the next batch when it is through. Whatever else goes on in the node, the requests of a
stream that an actor has executed, holds and has in its mailbox are in the order in
which they came, and those that the goroutine has not passed on come after them.
-/

namespace ActorCluster.Node

open Remote Wallet Transition ActorCluster.Runtime
open scoped List

/-- The envelopes that a call has neither answered nor put into a mailbox. -/
def Thread.waiting : Thread → List RemoteEnvelope
  | .idle => []
  | .gate _ rest | .reject _ rest | .next _ rest | .push _ rest _ => rest
  | .serving call pc => if pc.sent then call.rest else call.env :: call.rest

/-- The envelopes that an actor was given, the oldest first. -/
def LocalActor.history (actor : LocalActor) : List RemoteEnvelope :=
  actor.executed ++ actor.envelopes

section Moves

variable {n : NodeState} {db : Database} {action : Action}

theorem ThreadMove.waiting {p : Nat} {t : Thread} (h : ThreadMove n db action p t)
    (harrive : ∀ sender batch, action ≠ .arrive p sender batch) :
    t.waiting <+ (n.thread p).waiting := by
  cases h with
  | stay => exact List.Sublist.refl _
  | arrive sender batch haction => exact absurd haction (harrive sender batch)
  | finish => exact List.nil_sublist _
  | overload _ _ hp | accept _ _ hp | serve _ _ _ hp | push _ _ _ hp | wake _ _ hp =>
      rw [hp]
      exact List.Sublist.refl _
  | reject _ _ _ hp | refuse _ _ _ hp | noSnapshot _ _ _ hp | noEvents _ _ _ _ hp | nobody _ hp
  | spawn _ _ _ hp =>
      rw [hp]
      exact List.sublist_cons_self _ _
  | go call pc pc' hp hmove =>
      rw [hp]
      cases hmove with
      | swap => exact List.sublist_cons_self _ _
      | _ => exact List.Sublist.refl _

/-- Until something is swapped in, an actor only goes on with what it has. -/
theorem ActorMove.history {a : Nat} {actor : LocalActor} (h : ActorMove n db action a actor)
    (hswap : ∀ p call, action ≠ .swap p call a) : actor.history <+ (n.actor a).history := by
  have hsame {actor' : LocalActor} (hexecuted : actor'.executed = (n.actor a).executed)
      (hrequest : actor'.loop.request = (n.actor a).loop.request)
      (hqueue : actor'.mailbox.queue.map Entry.msg <+ (n.actor a).mailbox.queue.map Entry.msg) :
      actor'.history <+ (n.actor a).history := by
    rw [LocalActor.history, LocalActor.envelopes, hexecuted, hrequest]
    exact (hqueue.append_left _).append_left _
  cases h with
  | stay => exact List.Sublist.refl _
  | install => exact List.nil_sublist _
  | stop =>
      unfold LocalActor.stop
      split <;> exact hsame rfl rfl (List.Sublist.refl _)
  | signal => exact hsame rfl rfl (List.Sublist.refl _)
  | swap p call haction => exact absurd haction (hswap p call)
  | link p =>
      refine hsame rfl rfl ?_
      rw [Mailbox.link, map_msg_linkEntry]
  | collect => exact hsame rfl rfl ((List.tail_sublist _).map _)
  | dequeue hloop =>
      unfold LocalActor.dequeue
      split
      next env hfront =>
        obtain ⟨rest, hqueue⟩ := Mailbox.front_eq_some_iff.mp hfront
        simp [LocalActor.history, LocalActor.envelopes, hloop, Loop.request, Mailbox.pop, hqueue]
      next => exact hsame rfl (by rw [hloop]; rfl) (List.Sublist.refl _)
  | uncount env hloop | handle env _ hloop =>
      exact hsame rfl (by rw [hloop]; rfl) (List.Sublist.refl _)
  | execute env now outcome _ hloop =>
      rw [NodeState.execute, NodeState.setActor_actor_self]
      simp [LocalActor.history, LocalActor.envelopes, hloop, Loop.request]
  | emit res hloop =>
      refine hsame rfl ?_ (List.Sublist.refl _)
      rw [hloop]
      cases n.replyRoutes (resultKey res) <;> rfl
  | checkStatus hloop =>
      refine hsame rfl ?_ (List.Sublist.refl _)
      rw [hloop]
      dsimp only
      split <;> rfl
  | deliver _ hloop => exact hsame rfl (by rw [hloop]; rfl) (List.Sublist.refl _)
  | wakeUp hloop | exit hloop => exact hsame rfl (by rw [hloop]; rfl) (List.Sublist.refl _)

end Moves

namespace NodeState

/-- The envelopes that arrived on a stream, in their order. -/
def arrivedOn (n : NodeState) (sender : BatchSender) : List RemoteEnvelope :=
  (n.arrived.filter fun arrival => arrival.2 = sender).map Prod.fst

theorem mem_arrivedOn {n : NodeState} {sender : BatchSender} {env : RemoteEnvelope} :
    env ∈ n.arrivedOn sender ↔ (env, sender) ∈ n.arrived := by
  simp [arrivedOn]

section Arrive

variable {cfg : Config} {n : NodeState} {db : Database} {batch : List RemoteEnvelope}

theorem arrivedOn_arrive_self {p : Nat} {sender : BatchSender} :
    (n.apply cfg db (.arrive p sender batch)).arrivedOn sender = n.arrivedOn sender ++ batch := by
  change ((n.arrived ++ batch.map fun env => (env, sender)).filter _).map Prod.fst = _
  rw [List.filter_append, List.map_append]
  refine congrArg (n.arrivedOn sender ++ ·) ?_
  simp [List.filter_map, Function.comp_def]

theorem arrivedOn_arrive_of_ne {p : Nat} {sender other : BatchSender} (hne : other ≠ sender) :
    (n.apply cfg db (.arrive p sender batch)).arrivedOn other = n.arrivedOn other := by
  change ((n.arrived ++ batch.map fun env => (env, sender)).filter _).map Prod.fst = _
  rw [List.filter_append, List.map_append]
  refine (congrArg (n.arrivedOn other ++ ·) ?_).trans (List.append_nil _)
  simp [List.filter_map, Function.comp_def, Ne.symm hne]

end Arrive

/-- The part of a list that came on a stream. -/
def cameOn (n : NodeState) (sender : BatchSender) (envs : List RemoteEnvelope) :
    List RemoteEnvelope :=
  envs.filter fun env => (env, sender) ∈ n.arrived

/-- The order of the requests of a stream is kept. -/
structure InOrder (n : NodeState) : Prop where
  known : ∀ a, ∀ env ∈ (n.actor a).history, env ∈ n.envelopes
  order : ∀ p a, n.cameOn p (n.actor a).history ++ (n.thread p).waiting <+ n.arrivedOn p

theorem inOrder_newNode : newNode.InOrder where
  known _ _ h := by cases h
  order _ _ := List.Sublist.refl _

/-- The goroutine that serves a stream serves no other one. -/
def OwnStream : Action → Prop
  | .arrive p sender _ => p = sender
  | _ => True

namespace InOrder

variable {cfg : Config} {n : NodeState} {db : Database} {action : Action}

theorem arrived_of_waiting (h : n.InOrder) {p : Nat} {env : RemoteEnvelope}
    (henv : env ∈ (n.thread p).waiting) : (env, p) ∈ n.arrived :=
  mem_arrivedOn.mp ((h.order p 0).subset (List.mem_append_right _ henv))

theorem arrive (h : n.InOrder) {p : Nat} {batch : List RemoteEnvelope}
    (henabled : n.enabled cfg (.arrive p p batch) = true)
    (hfresh : n.FreshRequests (.arrive p p batch)) :
    (n.apply cfg db (.arrive p p batch)).InOrder where
  known a env henv := envelopes_mono cfg n db _ (h.known a env henv)
  order q a := by
    have hidle : n.thread p = .idle := of_decide_eq_true henabled
    -- what the actor has came before, and not in this batch
    have hcame : (n.apply cfg db (.arrive p p batch)).cameOn q (n.actor a).history =
        n.cameOn q (n.actor a).history := by
      apply List.filter_congr
      intro env henv
      refine decide_eq_decide.mpr ⟨fun hmem => ?_, fun hmem => List.mem_append_left _ hmem⟩
      rcases List.mem_append.mp hmem with hold | hnew
      · exact hold
      · obtain ⟨env', henv', heq⟩ := List.mem_map.mp hnew
        cases heq
        obtain ⟨arrival, harrival, rfl⟩ := List.mem_map.mp (h.known a env henv)
        exact absurd (List.mem_map_of_mem harrival) (hfresh.2 arrival.1 henv')
    change (n.apply cfg db (.arrive p p batch)).cameOn q (n.actor a).history ++ _ <+ _
    rw [hcame]
    by_cases hqp : q = p
    · subst hqp
      have hthread : (n.apply cfg db (.arrive q q batch)).thread q = .gate q batch :=
        setThread_thread_self _ _ _
      have horder := h.order q a
      rw [hidle, Thread.waiting, List.append_nil] at horder
      rw [hthread, arrivedOn_arrive_self]
      exact horder.append_right _
    · have hthread : (n.apply cfg db (.arrive p p batch)).thread q = n.thread q :=
        n.setThread_thread_of_ne _ hqp
      rw [hthread, arrivedOn_arrive_of_ne hqp]
      exact h.order q a

theorem swap (h : n.InOrder) (hserved : n.Served) {p b : Nat} {call : Call}
    (henabled : n.enabled cfg (.swap p call b) = true) :
    (n.apply cfg db (.swap p call b)).InOrder := by
  have hp : n.thread p = .serving call (.swap b) := of_decide_eq_true henabled
  have hwaiting : (n.thread p).waiting = call.env :: call.rest := by
    rw [hp]
    rfl
  have harrived : (call.env, p) ∈ n.arrived :=
    h.arrived_of_waiting (by rw [hwaiting]; exact List.mem_cons_self)
  have hself : ((n.apply cfg db (.swap p call b)).actor b).history =
      (n.actor b).history ++ [call.env] := by
    have hactor : (n.apply cfg db (.swap p call b)).actor b =
        { n.actor b with mailbox := (n.actor b).mailbox.swap p call.env } :=
      setActor_actor_self _ _ _
    rw [hactor]
    simp [LocalActor.history, LocalActor.envelopes, Mailbox.swap]
  have hother {a : Nat} (hab : a ≠ b) :
      (n.apply cfg db (.swap p call b)).actor a = n.actor a := n.setActor_actor_of_ne _ hab
  have hthread : (n.apply cfg db (.swap p call b)).thread p = .serving call (.link b) :=
    setThread_thread_self _ _ _
  refine ⟨fun a env henv => ?_, fun q a => ?_⟩
  · by_cases hab : a = b
    · subst hab
      rw [hself] at henv
      rcases List.mem_append.mp henv with hold | hnew
      · exact h.known a env hold
      · cases List.mem_singleton.mp hnew
        exact List.mem_map_of_mem harrived
    · rw [hother hab] at henv
      exact h.known a env henv
  · have horder := h.order q a
    change n.cameOn q _ ++ _ <+ n.arrivedOn q
    by_cases hqp : q = p
    · -- the envelope leaves the call and goes to the end of the mailbox
      subst hqp
      have hnext : (Thread.serving call (.link b)).waiting = call.rest := rfl
      rw [hthread, hnext]
      rw [hwaiting] at horder
      by_cases hab : a = b
      · subst hab
        rw [hself, cameOn, List.filter_append, List.filter_singleton, decide_eq_true harrived]
        simpa [cameOn] using horder
      · rw [hother hab]
        exact ((List.sublist_cons_self _ _).append_left _).trans horder
    · have hthread' : (n.apply cfg db (.swap p call b)).thread q = n.thread q :=
        setThread_thread_of_ne _ _ hqp
      rw [hthread']
      by_cases hab : a = b
      · -- the envelope came on one stream only
        subst hab
        have hnot : (call.env, q) ∉ n.arrived := fun hmem =>
          hqp (hserved.unique.stream harrived ⟨call.env, hmem, rfl⟩)
        rw [hself, cameOn, List.filter_append, List.filter_singleton, decide_eq_false hnot]
        simpa [cameOn] using horder
      · rw [hother hab]
        exact horder

theorem step (h : n.InOrder) (hserved : n.Served) (henabled : n.enabled cfg action = true)
    (hfresh : n.FreshRequests action) (hown : OwnStream action) :
    (n.apply cfg db action).InOrder := by
  by_cases harrive : ∃ p sender batch, action = .arrive p sender batch
  · obtain ⟨p, sender, batch, rfl⟩ := harrive
    obtain rfl : p = sender := hown
    exact h.arrive henabled hfresh
  by_cases hswap : ∃ p call b, action = .swap p call b
  · obtain ⟨p, call, b, rfl⟩ := hswap
    exact h.swap hserved henabled
  have harrived : (n.apply cfg db action).arrived = n.arrived :=
    arrived_apply cfg n db fun p sender batch haction => harrive ⟨p, sender, batch, haction⟩
  have hhistory (a : Nat) : ((n.apply cfg db action).actor a).history <+ (n.actor a).history :=
    (actorMove_apply henabled a).history fun p call haction => hswap ⟨p, call, a, haction⟩
  refine ⟨fun a env henv => ?_, fun p a => ?_⟩
  · rw [envelopes, harrived]
    exact h.known a env ((hhistory a).subset henv)
  · have hwaiting : ((n.apply cfg db action).thread p).waiting <+ (n.thread p).waiting :=
      (threadMove_apply henabled p).waiting fun sender batch haction =>
        harrive ⟨p, sender, batch, haction⟩
    rw [cameOn, arrivedOn, harrived]
    exact (((hhistory a).filter _).append hwaiting).trans (h.order p a)

/-- An actor executes the requests of a stream in the order in which they came. -/
theorem executed_sublist (h : n.InOrder) (p a : Nat) :
    n.cameOn p (n.actor a).executed <+ n.arrivedOn p :=
  (((List.sublist_append_left _ _).filter _).trans (List.sublist_append_left _ _)).trans
    (h.order p a)

end InOrder

end NodeState

end ActorCluster.Node
