import ActorCluster.Node.SoleWriter

/-! # The migration of a wallet

Any number of nodes work on the same tables, and the topology gives every wallet
an owner. A node learns of a new topology only from the envelopes it serves: it
evicts an actor when an envelope for the wallet reaches it and the resolver names
another owner. Under perfect views no such envelope comes, so the old owner keeps
its actor, idle but alive, and works on with what that actor remembers when the
wallet comes back. If the new owner has no actor of the wallet left, every
acknowledged event stays in the table, whatever the number of migrations.
-/

namespace ActorCluster.Node

open Remote Wallet Transition ActorCluster.Runtime

/-- The nodes, the tables that they share, and the owner of every wallet. -/
structure Cluster where
  node : Nat → NodeState
  db : Database
  owner : ActorKey → Nat

inductive ClusterEvent where
  | act (i : Nat) (action : Action)
  | land (key : ActorKey) (snapshot : Snapshot)
  -- all resolvers switch to a new topology at once
  | switch (owner : ActorKey → Nat)

namespace Cluster

def enabled (cfg : Nat → Config) (c : Cluster) : ClusterEvent → Bool
  | .act i action => (c.node i).enabled (cfg i) action
  | .land key snapshot => decide (snapshot ∈ c.db.inFlight key)
  | .switch _ => true

def apply (cfg : Nat → Config) (c : Cluster) : ClusterEvent → Cluster
  | .act i action =>
      { c with
        node := Function.update c.node i ((c.node i).apply (cfg i) c.db action)
        db := c.db.apply (c.node i) action }
  | .land key snapshot => { c with db := c.db.land key snapshot }
  | .switch owner => { c with owner := owner }

end Cluster

/-- Nodes that start on empty tables. -/
def cluster (cfg : Nat → Config) (owner : ActorKey → Nat) : System Cluster ClusterEvent :=
  System.guarded ⟨fun _ => newNode, .empty, owner⟩ (Cluster.enabled cfg) (Cluster.apply cfg)

/-! ## A node that is done with a wallet -/

/-- The envelopes that a call may still send to an actor. -/
def Thread.undispatched : Thread → List RemoteEnvelope
  | .idle | .reject _ _ => []
  | .gate _ batch => batch
  | .next _ rest | .push _ rest _ | .serving ⟨_, _, rest⟩ (.wake _) => rest
  | .serving call _ => call.env :: call.rest

/-- Nothing is queued and nothing is in hand. -/
structure LocalActor.Idle (actor : LocalActor) : Prop where
  queue : actor.mailbox.queue = []
  request : actor.loop.request = none

/-- The node has no work on the wallet: no call brings an envelope for it, and
its actors have executed all of theirs. They need not be dead. -/
structure NodeState.Quiet (n : NodeState) (key : ActorKey) : Prop where
  calls : ∀ p, ∀ env ∈ (n.thread p).undispatched, actorKey env ≠ key
  actors : ∀ a, (n.actor a).key = key → (n.actor a).Idle

section

variable {cfg : Config} {n : NodeState} {db : Database} {action : Action} {key : ActorKey}

theorem ThreadMove.undispatched_back {p : Nat} {t : Thread} (h : ThreadMove n db action p t)
    {env : RemoteEnvelope} (henv : env ∈ t.undispatched) :
    env ∈ (n.thread p).undispatched ∨
      ∃ sender batch, action = .arrive p sender batch ∧ env ∈ batch := by
  cases h with
  | stay => exact Or.inl henv
  | arrive sender batch haction => exact Or.inr ⟨sender, batch, haction, henv⟩
  | overload | reject | finish => cases henv
  | accept _ _ hp | serve _ _ _ hp | push _ _ _ hp | wake _ _ hp =>
      rw [hp]
      exact Or.inl henv
  | refuse _ _ _ hp | noSnapshot _ _ _ hp | noEvents _ _ _ _ hp | nobody _ hp | spawn _ _ _ hp =>
      rw [hp]
      exact Or.inl (List.mem_cons_of_mem _ henv)
  | go call pc pc' hp hmove =>
      rw [hp]
      cases hmove with
      | link => exact Or.inl (List.mem_cons_of_mem _ henv)
      | _ => exact Or.inl henv

/-- An idle actor stays idle unless an envelope is swapped into its queue. -/
theorem ActorMove.idle {a : Nat} {actor : LocalActor} (h : ActorMove n db action a actor)
    (hidle : (n.actor a).Idle) (hswap : ∀ p call, n.thread p ≠ .serving call (.swap a)) :
    actor.Idle := by
  have hfront : (n.actor a).mailbox.front = none := by simp [Mailbox.front, hidle.queue]
  cases h with
  | stay => exact hidle
  | install => exact ⟨rfl, rfl⟩
  | signal => exact ⟨hidle.queue, hidle.request⟩
  | stop =>
      unfold LocalActor.stop
      split <;> exact ⟨hidle.queue, hidle.request⟩
  | swap p call _ hp => exact absurd hp (hswap p call)
  | link p => exact ⟨by simp [Mailbox.link, linkEntry, hidle.queue], hidle.request⟩
  | collect _ _ _ _ hsome => simp [hfront] at hsome
  | dequeue =>
      unfold LocalActor.dequeue
      rw [hfront]
      exact ⟨hidle.queue, rfl⟩
  | uncount _ hloop | handle _ _ hloop | execute _ _ _ _ hloop =>
      have hrequest := hidle.request
      rw [hloop] at hrequest
      cases hrequest
  | emit res => exact ⟨hidle.queue, by cases n.replyRoutes (resultKey res) <;> rfl⟩
  | checkStatus => exact ⟨hidle.queue, by dsimp only; split <;> rfl⟩
  | deliver | wakeUp | exit => exact ⟨hidle.queue, rfl⟩

namespace NodeState.Quiet

theorem start (key : ActorKey) : newNode.Quiet key where
  calls _ := nofun
  actors _ _ := ⟨rfl, rfl⟩

/-- Without new envelopes the node stays quiet. -/
theorem step (h : n.Quiet key) (hw : n.Wellformed) (henabled : n.enabled cfg action = true)
    (harrive : ∀ p sender batch, action = .arrive p sender batch →
      ∀ env ∈ batch, actorKey env ≠ key) : (n.apply cfg db action).Quiet key where
  calls p env henv := by
    rcases (threadMove_apply henabled p).undispatched_back henv with hbefore | ⟨_, _, haction, hmem⟩
    · exact h.calls p env hbefore
    · exact harrive _ _ _ haction env hmem
  actors a ha := by
    have hmove : ActorMove n db action a ((n.apply cfg db action).actor a) :=
      actorMove_apply henabled a
    rcases hmove.key_or_start with hkey | ⟨_, _, _, hstart⟩
    · refine hmove.idle (h.actors a (hkey.symm.trans ha)) fun p call hp => ?_
      -- the call would bring an envelope for the wallet
      obtain ⟨_, htarget⟩ := hw.targets p call _ a hp rfl
      refine h.calls p call.env ?_ (htarget.symm.trans (hkey.symm.trans ha))
      rw [hp]
      exact List.mem_cons_self
    · rw [hstart]
      exact ⟨rfl, rfl⟩

/-- The actors of the wallet execute nothing. -/
theorem not_execute (h : n.Quiet key) (henabled : n.enabled cfg action = true) (a : Nat)
    (env : RemoteEnvelope) (now : Int) (outcome : WriteOutcome)
    (haction : action = .execute a env now outcome) : (n.actor a).key ≠ key := by
  intro hkey
  subst haction
  have hloop : (n.actor a).loop = .execute env now := by simpa [enabled] using henabled
  have hrequest := (h.actors a hkey).request
  rw [hloop] at hrequest
  cases hrequest

/-- No call rehydrates the wallet. -/
theorem not_loading (h : n.Quiet key) (p : Nat) (snapshot : Option Snapshot) :
    (n.thread p).loading ≠ some (key, snapshot) := by
  intro hp
  unfold Thread.loading at hp
  split at hp
  next heq =>
    cases hp
    exact h.calls p _ (by rw [heq]; exact List.mem_cons_self) rfl
  next heq =>
    cases hp
    exact h.calls p _ (by rw [heq]; exact List.mem_cons_self) rfl
  next => cases hp

end NodeState.Quiet

end

/-! ## Runs under perfect views -/

/-- Envelopes for the wallet are delivered to its owner only, and every resolver
names the owner. -/
def SeesOwner (cfg : Nat → Config) (key : ActorKey) (owner i : Nat) : Action → Prop
  | .arrive _ _ batch => ∀ env ∈ batch, actorKey env = key → i = owner
  | .owner _ call answer => call.key = key → answer = some (.ok (cfg owner).myIP)
  | _ => True

instance (cfg : Nat → Config) (key : ActorKey) (owner i : Nat) :
    DecidablePred (SeesOwner cfg key owner i) := by
  intro action
  induction action using Action.casesOn <;> unfold SeesOwner <;> infer_instance

namespace Cluster

/-- Perfect views: every node knows the owner of the wallet at any time, and the
owner changes only when the old one is done with the wallet. -/
def PerfectViews (cfg : Nat → Config) (key : ActorKey) (c : Cluster) : ClusterEvent → Prop
  | .act i action => SeesOwner cfg key (c.owner key) i action
  | .land _ _ => True
  | .switch owner => owner key ≠ c.owner key → (c.node (c.owner key)).Quiet key

/-- The condition on a whole run: a node that the wallet comes to, or that begins
to rehydrate it, has no actor of the wallet that is not dead; and the store's
partition limit is kept. -/
def LeavesNoActor (maxRows : Nat) (key : ActorKey) (c : Cluster) : ClusterEvent → Prop
  | .act i action => (c.node i).WritesAlone maxRows c.db key action
  | .land _ _ => True
  | .switch owner => owner key ≠ c.owner key → (c.node (owner key)).Vacant key

/-- A run under perfect views in which migrations leave no actor behind. -/
def Migrates (cfg : Nat → Config) (maxRows : Nat) (key : ActorKey) (c : Cluster)
    (event : ClusterEvent) : Prop :=
  c.PerfectViews cfg key event ∧ c.LeavesNoActor maxRows key event

/-- The owner is the only node with work on the wallet, and has at most one
writer. -/
structure OwnerWrites (maxRows : Nat) (c : Cluster) (key : ActorKey)
    (ledger : Ledger EventRow) : Prop where
  wellformed : ∀ i, (c.node i).Wellformed
  sole : SoleWriter maxRows (c.node (c.owner key)) c.db key ledger
  quiet : ∀ i, i ≠ c.owner key → (c.node i).Quiet key

namespace OwnerWrites

variable {cfg : Nat → Config} {maxRows : Nat} {c : Cluster} {key : ActorKey}
variable {ledger : Ledger EventRow} {i : Nat} {action : Action}

theorem wellformed_act (h : c.OwnerWrites maxRows key ledger)
    (henabled : (c.node i).enabled (cfg i) action = true) (j : Nat) :
    ((c.apply cfg (.act i action)).node j).Wellformed := by
  simp only [apply]
  by_cases hj : j = i
  · subst hj
    rw [Function.update_self]
    exact (h.wellformed j).step henabled
  · rw [Function.update_of_ne hj]
    exact h.wellformed j

/-- The owner takes a step. -/
theorem act_owner (h : c.OwnerWrites maxRows key ledger) (hmax : maxRows < 2 ^ 63)
    (howner : i = c.owner key) (henabled : (c.node i).enabled (cfg i) action = true)
    (halone : (c.node i).WritesAlone maxRows c.db key action) :
    ∃ next, (c.apply cfg (.act i action)).OwnerWrites maxRows key next := by
  subst howner
  obtain ⟨next, hsole⟩ := h.sole.step hmax (h.wellformed _) henabled halone
  refine ⟨next, h.wellformed_act henabled, ?_, fun j (hj : j ≠ c.owner key) => ?_⟩
  · simp only [apply, Function.update_self]
    exact hsole
  · simp only [apply, Function.update_of_ne hj]
    exact h.quiet j hj

/-- Another node takes a step: it has no work on the wallet. -/
theorem act_other (h : c.OwnerWrites maxRows key ledger) (hother : i ≠ c.owner key)
    (henabled : (c.node i).enabled (cfg i) action = true)
    (hsees : SeesOwner cfg key (c.owner key) i action) :
    (c.apply cfg (.act i action)).OwnerWrites maxRows key ledger where
  wellformed := h.wellformed_act henabled
  sole := by
    simp only [apply, Function.update_of_ne hother.symm]
    obtain ⟨hwallet, hinFlight, hacked⟩ :=
      c.db.apply_of_ne (c.node i) action ((h.quiet i hother).not_execute henabled)
    exact h.sole.keep hwallet hinFlight hacked
      (fun _ ha hlive => ⟨ha, hlive, _, rfl⟩) h.sole.vacant
  quiet j hj := by
    simp only [apply]
    by_cases hji : j = i
    · subst hji
      rw [Function.update_self]
      refine (h.quiet j hj).step (h.wellformed j) henabled ?_
      rintro p sender batch rfl env henv hkey
      exact hj (hsees env henv hkey)
    · rw [Function.update_of_ne hji]
      exact h.quiet j hj

/-- The wallet moves from an owner that is done with it to a node that has no
actor of it. -/
theorem switch (h : c.OwnerWrites maxRows key ledger) {owner : ActorKey → Nat}
    (hquiet : owner key ≠ c.owner key → (c.node (c.owner key)).Quiet key)
    (hvacant : owner key ≠ c.owner key → (c.node (owner key)).Vacant key) :
    (c.apply cfg (.switch owner)).OwnerWrites maxRows key ledger := by
  by_cases howner : owner key = c.owner key
  · refine ⟨h.wellformed, ?_, fun i hi => h.quiet i (howner ▸ hi)⟩
    simp only [apply, howner]
    exact h.sole
  · refine ⟨h.wellformed, ?_, fun i hi => ?_⟩
    · have hdead := hvacant howner
      exact ⟨h.sole.backs, h.sole.acked, fun a _ ha _ hlive => absurd (hdead a ha) hlive,
        fun a ha hlive => absurd (hdead a ha) hlive,
        fun p snapshot hp => absurd hp ((h.quiet _ howner).not_loading p snapshot)⟩
    · by_cases hi' : i = c.owner key
      · subst hi'
        exact hquiet howner
      · exact h.quiet i hi'

theorem step (h : c.OwnerWrites maxRows key ledger) (hmax : maxRows < 2 ^ 63)
    {event : ClusterEvent} (henabled : c.enabled cfg event = true)
    (hmigrates : c.Migrates cfg maxRows key event) :
    ∃ next, (c.apply cfg event).OwnerWrites maxRows key next := by
  obtain ⟨hviews, hleaves⟩ := hmigrates
  cases event with
  | act i action =>
      by_cases howner : i = c.owner key
      · exact h.act_owner hmax howner henabled hleaves
      · exact ⟨ledger, h.act_other howner henabled hviews⟩
  | land other snapshot =>
      exact ⟨ledger, h.wellformed, h.sole.land (of_decide_eq_true henabled), h.quiet⟩
  | switch owner => exact ⟨ledger, h.switch hviews hleaves⟩

end OwnerWrites

end Cluster

/-- Under perfect views, if a node that the wallet comes to has no live actor of
it, acknowledged events of the wallet have different versions, on whatever nodes
they were written, and all of them stay in the table, each as one row. -/
theorem migration_keeps_acked {cfg : Nat → Config} {owner : ActorKey → Nat} {maxRows : Nat}
    (hmax : maxRows < 2 ^ 63) {key : ActorKey} {c : Cluster}
    (hc : (cluster cfg owner).ReachableIf (Cluster.Migrates cfg maxRows key) c) :
    ((c.db.acked key).map EventRow.version).Nodup ∧
      (c.db.acked key).Sublist (c.db.wallet key).events := by
  have hinv : ∃ ledger, c.OwnerWrites maxRows key ledger := by
    refine System.ReachableIf.invariant (P := fun c => ∃ ledger, c.OwnerWrites maxRows key ledger)
      ?_ ?_ hc
    · refine ⟨Ledger.empty, fun _ => NodeState.wellformed_newNode, ?_,
        fun _ _ => NodeState.Quiet.start key⟩
      exact SoleWriter.start maxRows key
    · rintro c event t ⟨ledger, h⟩ hguard hstep
      obtain ⟨henabled, rfl⟩ := System.guarded_step_eq_some_iff.mp hstep
      exact h.step hmax henabled hguard
  obtain ⟨ledger, h⟩ := hinv
  exact ⟨h.sole.nodup_acked, h.sole.acked_sublist_events⟩

/-! ## Away and back -/

def nodeB : Config := ⟨0, true, "node-b"⟩

def twoNodes (i : Nat) : Config := if i = 0 then nodeA else nodeB

/-- Two nodes, the first of which owns every wallet. -/
abbrev pair : System Cluster ClusterEvent := cluster twoNodes fun _ => 0

/-- The steps of one node in a cluster. -/
def stepsOf (i : Nat) (events : List Event) : List ClusterEvent :=
  events.map fun
    | .act action => .act i action
    | .land key snapshot => .land key snapshot

/-- An actor executes the deposit that it has taken, hands over the result, finds
nothing more in its mailbox and waits. -/
def completion (env : RemoteEnvelope) (balance : UInt8) : List Event :=
  [.act (.execute 0 env 0 .applied), .act (.emit 0 (depositResult env.txId env.requestId balance)),
    .act (.deliver 0 ⟨depositResult env.txId env.requestId balance, 0⟩), .act (.dequeue 0),
    .act (.checkStatus 0)]

/-- The first envelope of a wallet at a node finds no actor. -/
def coming (i : Nat) (env : RemoteEnvelope) : List ClusterEvent :=
  stepsOf i (arrival 0 env (twoNodes i).myIP ++ [Event.act (.lookup 0 ⟨0, env, []⟩)])

def beginning (i : Nat) (env : RemoteEnvelope) : ClusterEvent :=
  .act i (.create 0 ⟨0, env, []⟩ 0)

/-- The node rehydrates the wallet, serves the envelope and has nothing more to do. -/
def serving (i : Nat) (env : RemoteEnvelope) (balance : UInt8) : List ClusterEvent :=
  stepsOf i (rehydration 0 env ++ dispatch 0 env 0 ++ taking 0 env ++ completion env balance)

/-- The wallet gets its first deposit at node 0. -/
def servedHome : List ClusterEvent :=
  coming 0 (deposit "1" 1) ++ [beginning 0 (deposit "1" 1)] ++ serving 0 (deposit "1" 1) 10

/-- It moves to node 1 and gets its second deposit there. -/
def servedAway : List ClusterEvent :=
  servedHome ++ [ClusterEvent.switch fun _ => 1] ++ coming 1 (deposit "2" 2) ++
    [beginning 1 (deposit "2" 2)] ++ serving 1 (deposit "2" 2) 20

/-- The wallet moves back, and the actor that node 0 has kept gets the third deposit. -/
def comingBack : List ClusterEvent :=
  servedAway ++ [ClusterEvent.switch fun _ => 0] ++
    stepsOf 0 (arrival 1 (deposit "3" 3) "node-a" ++
      [Event.act (.lookup 1 ⟨1, deposit "3" 3, []⟩)] ++
      dispatch 1 (deposit "3" 3) 0 ++ [Event.act (.wakeUp 0)] ++ taking 0 (deposit "3" 3) ++
      [Event.act (.execute 0 (deposit "3" 3) 0 .applied)])

/-- A decidable part of the guards: steps of the nodes that do not begin a rehydration. -/
def Cluster.Checked (maxRows : Nat) (key : ActorKey) (c : Cluster) : ClusterEvent → Prop
  | .act i action => SeesOwner twoNodes key (c.owner key) i action ∧
      match action with
      | .create _ _ _ => False
      | .execute a _ _ outcome =>
          WriteFits maxRows (c.db.wallet key) ((c.node i).actor a).state outcome
      | _ => True
  | _ => False

instance (maxRows : Nat) (key : ActorKey) (c : Cluster) (event : ClusterEvent) :
    Decidable (c.Checked maxRows key event) := by
  induction event using ClusterEvent.casesOn with
  | act i action =>
      induction action using Action.casesOn <;> unfold Cluster.Checked <;>
        dsimp only [WriteFits, WalletStore.HasRoom] <;> infer_instance
  | _ => exact isFalse id

theorem Cluster.Checked.migrates {maxRows : Nat} {key : ActorKey} (c : Cluster)
    (event : ClusterEvent) (h : c.Checked maxRows key event) :
    c.Migrates twoNodes maxRows key event := by
  cases event with
  | act i action =>
      refine ⟨h.1, ?_⟩
      cases action with
      | create => exact h.2.elim
      | execute => exact fun _ => h.2
      | _ => trivial
  | _ => exact h.elim

/-- Node 0 is done with its wallet before it moves away. -/
theorem quiet_servedHome : ((pair.after servedHome).node 0).Quiet ⟨1, 42⟩ where
  calls p := by
    have hidle : ((pair.after servedHome).node 0).thread p = .idle := by rcases p with _ | p <;> rfl
    rw [hidle]
    nofun
  actors a _ := by rcases a with _ | a <;> exact ⟨rfl, rfl⟩

/-- Node 1 is done with it before it moves back. -/
theorem quiet_servedAway : ((pair.after servedAway).node 1).Quiet ⟨1, 42⟩ where
  calls p := by
    have hidle : ((pair.after servedAway).node 1).thread p = .idle := by rcases p with _ | p <;> rfl
    rw [hidle]
    nofun
  actors a _ := by rcases a with _ | a <;> exact ⟨rfl, rfl⟩

theorem reachable_servedHome :
    pair.ReachableIf (Cluster.Migrates twoNodes 1000 ⟨1, 42⟩) (pair.after servedHome) := by
  have hcoming : pair.ReachableIf (Cluster.Migrates twoNodes 1000 ⟨1, 42⟩)
      (pair.after ([] ++ coming 0 (deposit "1" 1))) :=
    System.ReachableIf.append_of_admits Relation.ReflTransGen.refl Cluster.Checked.migrates
      (by decide +kernel)
  have hbeginning : pair.ReachableIf (Cluster.Migrates twoNodes 1000 ⟨1, 42⟩)
      (pair.after (coming 0 (deposit "1" 1) ++ [beginning 0 (deposit "1" 1)])) :=
    hcoming.concat ⟨trivial, fun _ _ _ _ => rfl⟩
  exact hbeginning.append_of_admits Cluster.Checked.migrates (by decide +kernel)

/-- The first migration meets all conditions: node 1 has no actor yet. -/
theorem reachable_servedAway :
    pair.ReachableIf (Cluster.Migrates twoNodes 1000 ⟨1, 42⟩) (pair.after servedAway) := by
  have hswitch : pair.ReachableIf (Cluster.Migrates twoNodes 1000 ⟨1, 42⟩)
      (pair.after (servedHome ++ [ClusterEvent.switch fun _ => 1])) :=
    reachable_servedHome.concat ⟨fun _ => quiet_servedHome, fun _ _ _ => rfl⟩
  have hcoming : pair.ReachableIf (Cluster.Migrates twoNodes 1000 ⟨1, 42⟩)
      (pair.after (servedHome ++ [ClusterEvent.switch fun _ => 1] ++ coming 1 (deposit "2" 2))) :=
    hswitch.append_of_admits Cluster.Checked.migrates (by decide +kernel)
  have hbeginning : pair.ReachableIf (Cluster.Migrates twoNodes 1000 ⟨1, 42⟩)
      (pair.after (servedHome ++ [ClusterEvent.switch fun _ => 1] ++ coming 1 (deposit "2" 2) ++
        [beginning 1 (deposit "2" 2)])) :=
    hcoming.concat ⟨trivial, fun _ _ _ _ => rfl⟩
  exact hbeginning.append_of_admits Cluster.Checked.migrates (by decide +kernel)

theorem migration_keeps_acked_servedAway :
    ((pair.after servedAway).db.acked ⟨1, 42⟩).map EventRow.version = [1, 2] ∧
      ((pair.after servedAway).db.acked ⟨1, 42⟩).Sublist
        ((pair.after servedAway).db.wallet ⟨1, 42⟩).events :=
  ⟨by decide +kernel, (migration_keeps_acked (by decide) reachable_servedAway).2⟩

/-- The wallet moves away and back under perfect views. Both nodes acknowledge a
deposit at version 2, and the one that node 1 acknowledged is overwritten. -/
theorem migration_overwrites_acked :
    ∃ c, pair.ReachableIf (Cluster.PerfectViews twoNodes ⟨1, 42⟩) c ∧
      (c.db.acked ⟨1, 42⟩).map (fun row => (row.version, row.txID)) =
        [(1, "1"), (2, "2"), (2, "3")] ∧
      (c.db.wallet ⟨1, 42⟩).events.map (fun row => (row.version, row.txID)) =
        [(1, "1"), (2, "3")] := by
  have haway : pair.ReachableIf (Cluster.PerfectViews twoNodes ⟨1, 42⟩)
      (pair.after servedAway) := reachable_servedAway.mono fun _ _ h => h.1
  have hback : pair.ReachableIf (Cluster.PerfectViews twoNodes ⟨1, 42⟩)
      (pair.after (servedAway ++ [ClusterEvent.switch fun _ => 0])) :=
    haway.concat fun _ => quiet_servedAway
  have hcheck (c : Cluster) (event : ClusterEvent) (h : c.Checked 1000 ⟨1, 42⟩ event) :
      c.PerfectViews twoNodes ⟨1, 42⟩ event := (h.migrates c event).1
  refine ⟨pair.after comingBack, ?_, by decide +kernel, by decide +kernel⟩
  exact hback.append_of_admits hcheck (by decide +kernel)

end ActorCluster.Node
