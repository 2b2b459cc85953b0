import ActorCluster.Node.Moves

/-! # Well-formed nodes

What holds of a node in every reachable state, whatever the requests and the
schedule: the status of an actor agrees with its loop, the envelopes an actor
holds are addressed to it, the maps and the goroutines refer to actors of the
right key, and a shard lock has the holder that believes to hold it.
-/

namespace ActorCluster.Node

open Remote Wallet Transition ActorCluster.Runtime

/-- The envelope that the loop has taken and not executed yet. -/
def Loop.request : Loop → Option RemoteEnvelope
  | .uncount env | .handle env | .execute env _ => some env
  | _ => none

namespace LocalActor

structure Lawful (actor : LocalActor) : Prop where
  ended : actor.Dead ↔ actor.loop = .dead
  exiting : actor.loop = .exit → actor.mailbox.status = .stopping

/-- The actor serves the wallet of its key only. -/
structure Addressed (actor : LocalActor) : Prop where
  queued : ∀ entry ∈ actor.mailbox.queue, actorKey entry.msg = actor.key
  inHand : ∀ env, actor.loop.request = some env → actorKey env = actor.key
  identity : actor.state.tenantID = actor.key.tenantID ∧ actor.state.uid = actor.key.uid

variable {actor : LocalActor}

/-- A move that keeps the status, into or out of no final position. -/
theorem Lawful.move (h : actor.Lawful) {actor' : LocalActor}
    (hstatus : actor'.mailbox.status = actor.mailbox.status)
    (hdead : actor'.loop = .dead ↔ actor.loop = .dead)
    (hexit : actor'.loop = .exit → actor.mailbox.status = .stopping) : actor'.Lawful := by
  refine ⟨?_, fun hloop => hstatus.trans (hexit hloop)⟩
  rw [Dead, hstatus, hdead]
  exact h.ended

theorem Lawful.stop (h : actor.Lawful) : actor.stop.Lawful := by
  unfold LocalActor.stop
  split
  next haccepts =>
    have hne := Status.accepts_iff.mp haccepts
    refine ⟨iff_of_false nofun fun hloop => ?_, fun _ => rfl⟩
    exact hne.2 (h.ended.mpr hloop)
  next => exact h

theorem Lawful.dequeue (h : actor.Lawful) (hloop : actor.loop = .dequeue) :
    actor.dequeue.Lawful := by
  unfold LocalActor.dequeue
  split <;> exact h.move rfl (by rw [hloop]; exact iff_of_false nofun nofun) nofun

/-- Fewer queued entries, the same wallet. -/
theorem Addressed.move (h : actor.Addressed) {actor' : LocalActor}
    (hkey : actor'.key = actor.key)
    (hqueue : ∀ entry ∈ actor'.mailbox.queue, ∃ entry' ∈ actor.mailbox.queue,
      entry.msg = entry'.msg)
    (hhand : ∀ env, actor'.loop.request = some env → actor.loop.request = some env ∨
      actor.mailbox.front = some env)
    (hidentity : actor'.state.tenantID = actor.state.tenantID ∧
      actor'.state.uid = actor.state.uid) : actor'.Addressed where
  queued entry hentry := by
    obtain ⟨entry', hentry', hmsg⟩ := hqueue entry hentry
    rw [hmsg, hkey]
    exact h.queued entry' hentry'
  inHand env henv := by
    rw [hkey]
    rcases hhand env henv with hhand | hfront
    · exact h.inHand env hhand
    · obtain ⟨rest, hqueue⟩ := Mailbox.front_eq_some_iff.mp hfront
      exact h.queued ⟨env, none⟩ (by rw [hqueue]; exact List.mem_cons_self)
  identity := by
    rw [hkey, hidentity.1, hidentity.2]
    exact h.identity

theorem Addressed.dequeue (h : actor.Addressed) : actor.dequeue.Addressed := by
  unfold LocalActor.dequeue
  split
  next env hfront =>
    refine h.move rfl (fun entry hentry => ⟨entry, List.mem_of_mem_tail hentry, rfl⟩) ?_ ⟨rfl, rfl⟩
    rintro _ ⟨⟩
    exact Or.inr hfront
  next => exact h.move rfl (fun entry hentry => ⟨entry, hentry, rfl⟩) nofun ⟨rfl, rfl⟩

end LocalActor

/-- The actor that a goroutine is busy with. -/
def Serving.target : Serving → Option Nat
  | .close a | .killSignal a | .spawn a | .route a | .send a | .count a | .swap a | .link a
  | .wake a | .unroute a | .forget a => some a
  | _ => none

/-- The identity belongs to an actor of the key. -/
def NodeState.Refers (n : NodeState) (key : ActorKey) (a : Nat) : Prop :=
  a < n.started ∧ (n.actor a).key = key

/-- A goroutine refers to an actor of the key it serves. -/
def NodeState.Targets (n : NodeState) (t : Thread) : Prop :=
  ∀ call pc a, t = .serving call pc → pc.target = some a → n.Refers call.key a

namespace ActorMove

variable {n : NodeState} {db : Database} {action : Action} {a : Nat} {actor : LocalActor}

/-- Only an actor that has just been started has a new key. -/
theorem key_or_start (h : ActorMove n db action a actor) :
    actor.key = (n.actor a).key ∨ a = n.started ∧ ∃ key b, actor = .start key b := by
  cases h with
  | install p call now snapshot closeErr b hfresh => exact Or.inr ⟨hfresh, call.key, b, rfl⟩
  | stop =>
      unfold LocalActor.stop
      split <;> exact Or.inl rfl
  | dequeue =>
      unfold LocalActor.dequeue
      split <;> exact Or.inl rfl
  | execute =>
      rw [NodeState.execute, NodeState.setActor_actor_self]
      exact Or.inl rfl
  | stay | signal | swap | link | collect | uncount | handle | emit | deliver | checkStatus
  | wakeUp | exit => exact Or.inl rfl

theorem key (h : ActorMove n db action a actor) (ha : a < n.started) :
    actor.key = (n.actor a).key :=
  h.key_or_start.resolve_right fun hfresh => ha.ne hfresh.1

theorem lawful (h : ActorMove n db action a actor) (hlawful : (n.actor a).Lawful) :
    actor.Lawful := by
  -- between two positions that are not final
  have hmove {actor' : LocalActor} (hstatus : actor'.mailbox.status = (n.actor a).mailbox.status)
      (hdead : (n.actor a).loop ≠ .dead) (hdead' : actor'.loop ≠ .dead)
      (hexit : actor'.loop ≠ .exit) : actor'.Lawful :=
    hlawful.move hstatus (iff_of_false hdead' hdead) fun hloop => absurd hloop hexit
  cases h with
  | stay => exact hlawful
  | install => exact ⟨iff_of_false nofun nofun, nofun⟩
  | stop => exact hlawful.stop
  | signal | swap | link | collect => exact hlawful.move rfl Iff.rfl hlawful.exiting
  | dequeue hloop => exact hlawful.dequeue hloop
  | uncount env hloop | handle env now hloop | deliver queued hloop | wakeUp hloop =>
      exact hmove rfl (by rw [hloop]; nofun) nofun nofun
  | execute env now outcome _ hloop =>
      rw [NodeState.execute, NodeState.setActor_actor_self]
      exact hmove rfl (by rw [hloop]; nofun) nofun nofun
  | emit res hloop =>
      refine hmove rfl (by rw [hloop]; nofun) ?_ ?_ <;>
        cases n.replyRoutes (resultKey res) <;> nofun
  | checkStatus hloop =>
      refine hlawful.move rfl (iff_of_false ?_ (by rw [hloop]; nofun)) fun hexit => ?_
      · split <;> nofun
      · by_contra hstatus
        rw [if_neg hstatus] at hexit
        cases hexit
  | exit => exact ⟨iff_of_true rfl rfl, nofun⟩

theorem addressed (h : ActorMove n db action a actor) (haddressed : (n.actor a).Addressed)
    (htargets : ∀ p, n.Targets (n.thread p)) : actor.Addressed := by
  have hkept {actor' : LocalActor} (hkey : actor'.key = (n.actor a).key)
      (hqueue : actor'.mailbox.queue = (n.actor a).mailbox.queue)
      (hhand : ∀ env, actor'.loop.request = some env → (n.actor a).loop.request = some env)
      (hstate : actor'.state.tenantID = (n.actor a).state.tenantID ∧
        actor'.state.uid = (n.actor a).state.uid) : actor'.Addressed :=
    haddressed.move hkey (fun entry hentry => ⟨entry, hqueue ▸ hentry, rfl⟩)
      (fun env henv => Or.inl (hhand env henv)) hstate
  cases h with
  | stay => exact haddressed
  | install p call now snapshot closeErr b _ _ _ hload =>
      have hidentity := (newBusinessActor call.key.tenantID call.key.uid now).loadEvents_identity
        snapshot ⟨(db.wallet call.key).eventsAfter snapshot.lastVersion, closeErr⟩
      rw [hload] at hidentity
      exact ⟨nofun, nofun, hidentity⟩
  | stop =>
      unfold LocalActor.stop
      split
      · exact hkept rfl rfl (fun _ => id) ⟨rfl, rfl⟩
      · exact haddressed
  | signal => exact hkept rfl rfl (fun _ => id) ⟨rfl, rfl⟩
  | swap p call _ hp =>
      obtain ⟨_, hkey⟩ := htargets p call _ a hp rfl
      refine ⟨fun entry hentry => ?_, haddressed.inHand, haddressed.identity⟩
      rcases List.mem_append.mp hentry with hentry | hentry
      · exact haddressed.queued entry hentry
      · cases List.mem_singleton.mp hentry
        exact hkey.symm
  | link p call hp =>
      refine haddressed.move rfl (fun entry hentry => ?_) (fun _ => Or.inl) ⟨rfl, rfl⟩
      have hmsg : entry.msg ∈ (n.actor a).mailbox.queue.map Entry.msg := by
        rw [← map_msg_linkEntry p]
        exact List.mem_map_of_mem hentry
      obtain ⟨entry', hentry', heq⟩ := List.mem_map.mp hmsg
      exact ⟨entry', hentry', heq.symm⟩
  | collect =>
      exact haddressed.move rfl (fun entry hentry => ⟨entry, List.mem_of_mem_tail hentry, rfl⟩)
        (fun _ => Or.inl) ⟨rfl, rfl⟩
  | dequeue => exact haddressed.dequeue
  | uncount env hloop | handle env now hloop =>
      refine hkept rfl rfl ?_ ⟨rfl, rfl⟩
      rw [hloop]
      exact fun _ => id
  | execute env now outcome _ hloop =>
      rw [NodeState.execute, NodeState.setActor_actor_self]
      obtain ⟨htenant, huid, _⟩ :=
        (n.actor a).state.handle_identity (db.wallet (n.actor a).key) env now outcome
      exact hkept rfl rfl nofun ⟨htenant, huid⟩
  | emit res =>
      refine hkept rfl rfl ?_ ⟨rfl, rfl⟩
      cases n.replyRoutes (resultKey res) <;> nofun
  | checkStatus =>
      refine hkept rfl rfl ?_ ⟨rfl, rfl⟩
      intro env
      dsimp only
      split <;> nofun
  | deliver | wakeUp | exit => exact hkept rfl rfl nofun ⟨rfl, rfl⟩

end ActorMove

def Thread.holding : Thread → Option UInt64
  | .serving call (.loadSnapshot _) | .serving call (.loadEvents _ _) => some call.key.shardIndex
  | _ => none

def Sweeper.holding : Sweeper → Option UInt64
  | .scan _ i _ | .close _ i _ _ | .signal _ i _ _ => some (UInt64.ofNat i)
  | _ => none

def Stopper.holding : Stopper → Option UInt64
  | .scan i _ _ | .signal i _ _ _ => some (UInt64.ofNat i)
  | _ => none

namespace NodeState

/-- The shard whose lock a goroutine believes to hold. -/
def holding (n : NodeState) : Holder → Option UInt64
  | .thread p => (n.thread p).holding
  | .sweeper => n.sweeper.holding
  | .stopper => n.stopper.holding

/-- A lock has the holder that believes to hold it. -/
def Locked (n : NodeState) : Prop :=
  ∀ holder i, n.holding holder = some i → n.lock i = some holder

namespace Locked

variable {n n' : NodeState}

theorem keep (h : n.Locked) (hlock : n'.lock = n.lock)
    (hholding : ∀ holder i, n'.holding holder = some i → n.holding holder = some i) :
    n'.Locked := by
  intro holder i hheld
  rw [hlock]
  exact h holder i (hholding holder i hheld)

theorem acquire (h : n.Locked) (holder : Holder) {i : UInt64} (hfree : n.lock i = none)
    (hlock : n'.lock = Function.update n.lock i (some holder))
    (hgot : n'.holding holder = some i)
    (hother : ∀ other, other ≠ holder → n'.holding other = n.holding other) : n'.Locked := by
  intro other j hheld
  rw [hlock]
  by_cases ho : other = holder
  · subst ho
    cases hgot.symm.trans hheld
    exact Function.update_self _ _ _
  · have hj := h other j (hother other ho ▸ hheld)
    have hne : j ≠ i := by
      rintro rfl
      rw [hfree] at hj
      cases hj
    rw [Function.update_of_ne hne]
    exact hj

theorem release (h : n.Locked) (holder : Holder) {i : UInt64}
    (hheld : n.holding holder = some i) (hlock : n'.lock = Function.update n.lock i none)
    (hgone : n'.holding holder = none)
    (hother : ∀ other, other ≠ holder → n'.holding other = n.holding other) : n'.Locked := by
  intro other j hj
  rw [hlock]
  have ho : other ≠ holder := by
    rintro rfl
    rw [hgone] at hj
    cases hj
  have hlocked := h other j (hother other ho ▸ hj)
  have hne : j ≠ i := by
    rintro rfl
    exact ho (Option.some.inj (hlocked.symm.trans (h holder j hheld)))
  rw [Function.update_of_ne hne]
  exact hlocked

end Locked

theorem holding_setThread_of_ne (n : NodeState) (p : Nat) (t : Thread) {other : Holder}
    (h : other ≠ .thread p) : (n.setThread p t).holding other = n.holding other := by
  cases other with
  | thread r =>
      have hr : r ≠ p := fun hr => h (by rw [hr])
      simp only [holding, n.setThread_thread_of_ne t hr]
  | sweeper | stopper => rfl

theorem holding_setThread_self (n : NodeState) (p : Nat) (t : Thread) :
    (n.setThread p t).holding (.thread p) = t.holding := by
  simp only [holding, setThread_thread_self]

/-- A goroutine that did not hold a lock moves on without one. -/
theorem Locked.setThread {n : NodeState} (h : n.Locked) (p : Nat) {t : Thread}
    (ht : t.holding = none ∨ t.holding = (n.thread p).holding) : (n.setThread p t).Locked := by
  refine h.keep rfl fun holder i hheld => ?_
  by_cases hp : holder = .thread p
  · subst hp
    rw [holding_setThread_self] at hheld
    rcases ht with ht | ht
    · rw [ht] at hheld
      cases hheld
    · exact ht.symm.trans hheld
  · rwa [holding_setThread_of_ne n p t hp] at hheld

variable {cfg : Config} {n : NodeState} {db : Database}

theorem Locked.giveUp (h : n.Locked) {p : Nat} {call : Call}
    (hp : (n.thread p).holding = some call.key.shardIndex) (err : RehydrateError) :
    (n.giveUp p call err).Locked :=
  h.release (.thread p) hp rfl (holding_setThread_self _ _ _)
    fun _ ho => holding_setThread_of_ne _ _ _ ho

theorem Locked.step (h : n.Locked) {action : Action} (henabled : n.enabled cfg action = true) :
    (n.apply cfg db action).Locked := by
  have hthread (n' : NodeState) (hlock : n'.lock = n.lock) (hholding : n'.holding = n.holding)
      (p : Nat) {t : Thread} (ht : t.holding = none) : (n'.setThread p t).Locked := by
    refine Locked.setThread (h.keep hlock fun holder i hheld => ?_) p (Or.inl ht)
    rwa [hholding] at hheld
  have hkeep (n' : NodeState) (hlock : n'.lock = n.lock) (hholding : n'.holding = n.holding) :
      n'.Locked := h.keep hlock fun holder i hheld => by rwa [hholding] at hheld
  have hsweeper (n' : NodeState) (hlock : n'.lock = n.lock) (hthread : n'.thread = n.thread)
      (hstopper : n'.stopper = n.stopper)
      (hs : n'.sweeper.holding = none ∨ n'.sweeper.holding = n.sweeper.holding) : n'.Locked := by
    refine h.keep hlock fun holder i hheld => ?_
    cases holder <;> simp_all [holding]
  have hstopper (n' : NodeState) (hlock : n'.lock = n.lock) (hthread : n'.thread = n.thread)
      (hsweeper : n'.sweeper = n.sweeper)
      (hs : n'.stopper.holding = none ∨ n'.stopper.holding = n.stopper.holding) : n'.Locked := by
    refine h.keep hlock fun holder i hheld => ?_
    cases holder <;> simp_all [holding]
  cases action with
  | loadSnapshot p call now closeErr =>
      have hp : n.thread p = .serving call (.loadSnapshot now) := by
        simpa [enabled] using henabled
      simp only [apply]
      split
      next => exact h.giveUp (by rw [hp]; rfl) _
      next => exact h.setThread p (Or.inr (by rw [hp]; rfl))
  | loadEvents p call now snapshot closeErr =>
      have hp : n.thread p = .serving call (.loadEvents now snapshot) := by
        simpa [enabled] using henabled
      have hheld : n.holding (.thread p) = some call.key.shardIndex := by
        rw [holding, hp]
        rfl
      simp only [apply]
      split
      next => exact h.giveUp (by rw [hp]; rfl) _
      next =>
        exact h.release (.thread p) hheld rfl (holding_setThread_self _ _ _) fun _ ho =>
          holding_setThread_of_ne _ _ _ ho
  | create p call now =>
      have hp : n.thread p = .serving call .create ∧ n.lock call.key.shardIndex = none := by
        simpa [enabled, unlocked] using henabled
      cases hentry : n.shards call.key with
      | none =>
          simp only [apply, hentry]
          exact h.acquire (.thread p) hp.2 rfl (holding_setThread_self _ _ _) fun _ ho =>
            holding_setThread_of_ne _ _ _ ho
      | some a =>
          simp only [apply, hentry]
          refine hthread _ ?_ ?_ p ?_
          · rw [setLock, Option.elim_some, ← hp.2]
            exact Function.update_eq_self _ _
          · rfl
          · rfl
  | sweepLock now i =>
      have hi : (n.sweeper = .lock now i ∧ i < shardCount) ∧ n.lock (UInt64.ofNat i) = none := by
        simpa [enabled] using henabled
      refine h.acquire .sweeper hi.2 rfl rfl fun other ho => ?_
      cases other <;> first | rfl | exact absurd rfl ho
  | sweepUnlock now i =>
      have hi : n.sweeper = .scan now i [] := by simpa [enabled] using henabled
      refine h.release .sweeper ?_ rfl rfl fun other ho => ?_
      · rw [holding, hi]
        rfl
      · cases other <;> first | rfl | exact absurd rfl ho
  | stopLock i stopping =>
      have hi : (n.stopper = .lock i stopping ∧ i < shardCount) ∧
          n.lock (UInt64.ofNat i) = none := by
        simpa [enabled] using henabled
      refine h.acquire .stopper hi.2 rfl rfl fun other ho => ?_
      cases other <;> first | rfl | exact absurd rfl ho
  | stopUnlock i stopping =>
      have hi : n.stopper = .scan i [] stopping := by simpa [enabled] using henabled
      refine h.release .stopper ?_ rfl rfl fun other ho => ?_
      · rw [holding, hi]
        rfl
      · cases other <;> first | rfl | exact absurd rfl ho
  | sweepScan now i todo a =>
      have hi : n.sweeper = .scan now i todo ∧ a ∈ todo := by simpa [enabled] using henabled
      refine hsweeper _ rfl rfl rfl (Or.inr ?_)
      rw [hi.1, apply]
      dsimp only
      split <;> rfl
  | sweepClose now i todo a =>
      have hi : n.sweeper = .close now i todo a := by simpa [enabled] using henabled
      refine hsweeper _ rfl rfl rfl (Or.inr ?_)
      rw [hi, apply]
      dsimp only
      split <;> rfl
  | sweepSignal now i todo a =>
      have hi : n.sweeper = .signal now i todo a := by simpa [enabled] using henabled
      exact hsweeper _ rfl rfl rfl (Or.inr (by rw [hi]; rfl))
  | sweep | sweepRest | sweepReturn => exact hsweeper _ rfl rfl rfl (Or.inl rfl)
  | stopScan i todo stopping a =>
      have hi : n.stopper = .scan i todo stopping ∧ a ∈ todo := by simpa [enabled] using henabled
      refine hstopper _ rfl rfl rfl (Or.inr ?_)
      rw [hi.1, apply]
      dsimp only
      split <;> rfl
  | stopSignal i todo stopping a =>
      have hi : n.stopper = .signal i todo stopping a := by simpa [enabled] using henabled
      exact hstopper _ rfl rfl rfl (Or.inr (by rw [hi]; rfl))
  | stop | stopAwait | stopNext | closeDone | stopReturn =>
      exact hstopper _ rfl rfl rfl (Or.inl rfl)
  | gate p sender batch | next p sender env rest | send p call a | close p call a =>
      refine hthread _ rfl rfl p ?_
      split <;> rfl
  | owner p call answer =>
      refine hthread _ rfl rfl p ?_
      cases cfg.owns answer <;> rfl
  | lookup p call | kill p call =>
      refine hthread _ rfl rfl p ?_
      cases n.shards call.key <;> rfl
  | arrive p | reject p | push p | finish p | route p | count p | swap p | link p | wake p
  | unroute p | forget p | killSignal p | spawn p => exact hthread _ rfl rfl p rfl
  | await | collect | drainUncount | answer | drainPush | drainEnd | dequeue | uncount | handle
  | execute | emit | deliver | checkStatus | wakeUp | exit | receive | tick | takeDone | flush
  | respond | flushEnd => exact hkeep _ rfl rfl

theorem started_le_apply (cfg : Config) (n : NodeState) (db : Database) (action : Action) :
    n.started ≤ (n.apply cfg db action).started := by
  cases action with
  | loadSnapshot p call now closeErr =>
      simp only [apply]
      split <;> exact Nat.le_refl _
  | loadEvents p call now snapshot closeErr =>
      simp only [apply]
      split
      · exact Nat.le_refl _
      · exact Nat.le_succ _
  | _ => exact Nat.le_refl _

/-- An actor keeps its key. -/
theorem Refers.apply {key : ActorKey} {a : Nat} (h : n.Refers key a) {action : Action}
    (henabled : n.enabled cfg action = true) : (n.apply cfg db action).Refers key a :=
  ⟨Nat.lt_of_lt_of_le h.1 (started_le_apply cfg n db action),
    ((actorMove_apply henabled a).key h.1).trans h.2⟩

theorem refers_install (n : NodeState) (p : Nat) (call : Call) (b : BusinessActor) :
    (n.install p call b).Refers call.key n.started :=
  ⟨Nat.lt_succ_self _, congrArg LocalActor.key (setActor_actor_self _ _ _)⟩

/-- Every entry of the shard maps is an actor of its key. -/
def Mapped (n : NodeState) : Prop := ∀ key a, n.shards key = some a → n.Refers key a

theorem shards_setShard {key key' : ActorKey} {entry : Option Nat} {a : Nat}
    (hentry : entry = none ∨ entry = n.shards key')
    (h : (n.setShard key' entry).shards key = some a) : n.shards key = some a := by
  by_cases hkey : key = key'
  · subst hkey
    rw [setShard_shards_self] at h
    rcases hentry with rfl | rfl
    · cases h
    · exact h
  · rwa [n.setShard_shards_of_ne entry hkey] at h

end NodeState

/-- A call is busy with an actor that it found in the map, or has just made. -/
theorem ThreadMove.target {n : NodeState} {db : Database} {action : Action} {r : Nat} {t : Thread}
    (h : ThreadMove n db action r t) (htargets : n.Targets (n.thread r)) (hmapped : n.Mapped)
    {call : Call} {pc : Serving} {a : Nat} (ht : t = .serving call pc) (ha : pc.target = some a) :
    n.Refers call.key a ∨
      ∃ now snapshot closeErr b, action = .loadEvents r call now snapshot closeErr ∧
        (newBusinessActor call.key.tenantID call.key.uid now).loadEvents snapshot
          ⟨(db.wallet call.key).eventsAfter snapshot.lastVersion, closeErr⟩ = (b, none) ∧
        a = n.started := by
  cases h with
  | stay => exact Or.inl (htargets call pc a ht ha)
  | serve =>
      cases ht
      cases ha
  | go call' pc₀ pc' hp hmove =>
      cases ht
      cases hmove with
      | found b hentry | present b hentry | kill b _ hentry =>
          cases ha
          exact Or.inl (hmapped _ _ hentry)
      | install now snapshot closeErr haction b hload =>
          cases ha
          exact Or.inr ⟨now, snapshot, closeErr, b, haction, hload, rfl⟩
      | own | disown | missing | create | loaded | forget => cases ha
      | route | accept | turnAway | count | swap | link | unroute | close | closed | signal =>
          cases ha
          exact Or.inl (htargets call _ a hp rfl)
  | _ => cases ht

namespace NodeState

variable {cfg : Config} {n : NodeState} {db : Database}

/-- Only an installation enters an actor into the maps. -/
theorem shards_back {action : Action} {key : ActorKey} {a : Nat}
    (h : (n.apply cfg db action).shards key = some a) :
    n.shards key = some a ∨
      ∃ p call now snapshot closeErr b, action = .loadEvents p call now snapshot closeErr ∧
        n.apply cfg db action = n.install p call b ∧ key = call.key ∧ a = n.started := by
  cases action with
  | loadSnapshot p call now closeErr =>
      simp only [apply] at h
      split at h <;> exact Or.inl h
  | loadEvents p call now snapshot closeErr =>
      simp only [apply] at h ⊢
      split at h
      next => exact Or.inl h
      next b _ =>
        by_cases hkey : key = call.key
        · subst hkey
          cases (Function.update_self _ _ _).symm.trans h
          exact Or.inr ⟨p, call, now, snapshot, closeErr, b, rfl, rfl, rfl, rfl⟩
        · exact Or.inl ((Function.update_of_ne hkey _ _).symm.trans h)
  | forget p call b =>
      refine Or.inl (shards_setShard ?_ h)
      split
      · exact Or.inl rfl
      · exact Or.inr rfl
  | kill p call => exact Or.inl (shards_setShard (Or.inl rfl) h)
  | sweepClose now i todo b | stopScan i todo stopping b =>
      refine Or.inl (shards_setShard ?_ h)
      split
      · exact Or.inr rfl
      · exact Or.inl rfl
  | sweepSignal now i todo b | stopSignal i todo stopping b =>
      exact Or.inl (shards_setShard (Or.inl rfl) h)
  | _ => exact Or.inl h

theorem Mapped.step (h : n.Mapped) {action : Action} (henabled : n.enabled cfg action = true) :
    (n.apply cfg db action).Mapped := by
  intro key a hentry
  rcases shards_back hentry with hold | ⟨p, call, _, _, _, b, -, happly, rfl, rfl⟩
  · exact (h key a hold).apply henabled
  · rw [happly]
    exact refers_install n p call b

theorem targets_step (h : ∀ r, n.Targets (n.thread r)) (hmapped : n.Mapped) {action : Action}
    (henabled : n.enabled cfg action = true) (r : Nat) :
    (n.apply cfg db action).Targets ((n.apply cfg db action).thread r) := by
  intro call pc a hr ha
  have hmove : ThreadMove n db action r ((n.apply cfg db action).thread r) :=
    threadMove_apply henabled r
  rcases hmove.target (h r) hmapped hr ha with
    hrefers | ⟨now, snapshot, closeErr, b, rfl, hload, rfl⟩
  · exact hrefers.apply henabled
  · simp only [apply, hload]
    exact refers_install n r call b

/-- The facts above, as one invariant. -/
structure Wellformed (n : NodeState) : Prop where
  lawful : ∀ a, (n.actor a).Lawful
  addressed : ∀ a, (n.actor a).Addressed
  targets : ∀ p, n.Targets (n.thread p)
  mapped : n.Mapped
  locked : n.Locked

theorem wellformed_newNode : newNode.Wellformed where
  lawful _ := ⟨iff_of_true rfl rfl, nofun⟩
  addressed _ := ⟨nofun, nofun, rfl, rfl⟩
  targets _ := nofun
  mapped := nofun
  locked holder i h := by cases holder <;> cases h

theorem Wellformed.step (h : n.Wellformed) {action : Action}
    (henabled : n.enabled cfg action = true) : (n.apply cfg db action).Wellformed where
  lawful a := (actorMove_apply henabled a).lawful (h.lawful a)
  addressed a := (actorMove_apply henabled a).addressed (h.addressed a) h.targets
  targets r := targets_step h.targets h.mapped henabled r
  mapped := h.mapped.step henabled
  locked := h.locked.step henabled

end NodeState

end ActorCluster.Node
