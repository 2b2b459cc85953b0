import ActorCluster.Deployment.Streams
import ActorCluster.Node.SoleWriter
import ActorCluster.Wallet.Lifetime

/-! # The wallets of a deployment

A wallet moves from node to node: its actor is evicted or passivated, or its node crashes,
and another node rehydrates it. If a rehydration begins only when no node serves the wallet
any more, then whatever the deployment does, the tables of the wallet and the actor in charge
go through a run of a single wallet that is stopped and rehydrated. All that holds of such a
run holds of the wallets of the deployment.
-/

namespace ActorCluster.Deployment

open Remote Wallet Transition Client Node ActorCluster.Runtime

variable {clientCfg : MachineID → Client.Config} {nodeCfg : String → Node.Config} {maxRows : Nat}
variable {w : World}

namespace World

/-- The actor is one of the wallet and has not ended. -/
def Live (w : World) (key : ActorKey) (ip : String) (a : Nat) : Prop :=
  ((w.node ip).actor a).key = key ∧ ¬ ((w.node ip).actor a).Dead

/-- The call rehydrates the wallet, and has read the snapshot. -/
def Loads (w : World) (key : ActorKey) (ip : String) (p : Nat) (snapshot : Option Snapshot) :
    Prop :=
  ((w.node ip).thread p).loading = some (key, snapshot)

/-- No node serves the wallet. -/
def Vacant (w : World) (key : ActorKey) : Prop :=
  (∀ ip a, ¬ w.Live key ip a) ∧ ∀ ip p snapshot, ¬ w.Loads key ip p snapshot

/-- A rehydration begins only when no node serves the wallet, and the partition limit of the
store is kept. -/
def Alone (maxRows : Nat) (w : World) : WorldAction → Prop
  | .node ip (.create _ call _) => (w.node ip).shards call.key = none → w.Vacant call.key
  | .node ip (.execute a _ _ outcome) =>
      WriteFits maxRows (w.db.wallet ((w.node ip).actor a).key) ((w.node ip).actor a).state outcome
  | _ => True

/-- In addition no process has used up its request ids. -/
def Orderly (maxRows : Nat) (w : World) (action : WorldAction) : Prop :=
  w.InSequence action ∧ w.Alone maxRows action

/-- The run has the tables of the wallet, and its phase is that of the actor or of the call in
charge. Only the activity clock of the actor may be ahead. -/
structure Presents (w : World) (key : ActorKey) (s : WalletRun) : Prop where
  store : s.store = w.db.wallet key
  inFlight : s.inFlight = w.db.inFlight key
  live : ∀ ip a, w.Live key ip a →
    ∃ b now, s.phase = .live b ∧ ((w.node ip).actor a).state = { b with lastActive := now }
  loading : ∀ ip p snapshot, w.Loads key ip p snapshot → s.phase = snapshot.elim .down .loading
  idle : w.Vacant key → s.phase = .down
  single : ∀ ip a jp b, w.Live key ip a → w.Live key jp b → ip = jp ∧ a = b
  loader : ∀ ip p snapshot jp q other, w.Loads key ip p snapshot → w.Loads key jp q other →
    ip = jp ∧ p = q

theorem presents_newWorld (key : ActorKey) :
    newWorld.Presents key (wallet key.tenantID key.uid).init where
  store := rfl
  inFlight := rfl
  live _ _ h := absurd rfl h.2
  loading _ _ _ h := by cases h
  idle _ := rfl
  single _ _ _ _ h := absurd rfl h.2
  loader _ _ _ _ _ _ h := by cases h

namespace Presents

variable {w' : World} {key : ActorKey} {s : WalletRun}

/-- An actor in charge and a rehydration exclude each other. -/
theorem not_loads (h : w.Presents key s) {ip : String} {a : Nat} (hlive : w.Live key ip a)
    (jp : String) (p : Nat) (snapshot : Option Snapshot) : ¬ w.Loads key jp p snapshot := by
  intro hloads
  obtain ⟨b, now, hphase, _⟩ := h.live ip a hlive
  have hother := hphase.symm.trans (h.loading jp p snapshot hloads)
  cases snapshot <;> cases hother

/-- One actor is in charge, and nobody rehydrates the wallet. -/
theorem of_live {ip : String} {a : Nat} {b : BusinessActor} {now : Int}
    (hstore : s.store = w.db.wallet key) (hinFlight : s.inFlight = w.db.inFlight key)
    (hphase : s.phase = .live b) (hlive : w.Live key ip a)
    (hstate : ((w.node ip).actor a).state = { b with lastActive := now })
    (honly : ∀ jp c, w.Live key jp c → jp = ip ∧ c = a)
    (hnone : ∀ jp p snapshot, ¬ w.Loads key jp p snapshot) : w.Presents key s where
  store := hstore
  inFlight := hinFlight
  live jp c hc := by
    obtain ⟨rfl, rfl⟩ := honly jp c hc
    exact ⟨b, now, hphase, hstate⟩
  loading jp p snapshot hp := absurd hp (hnone jp p snapshot)
  idle hvacant := absurd hlive (hvacant.1 ip a)
  single jp c kp d hc hd := by
    obtain ⟨rfl, rfl⟩ := honly jp c hc
    obtain ⟨rfl, rfl⟩ := honly kp d hd
    exact ⟨rfl, rfl⟩
  loader jp p snapshot _ _ _ hp := absurd hp (hnone jp p snapshot)

/-- One call rehydrates the wallet, and no actor is in charge. -/
theorem of_loads {ip : String} {p : Nat} {snapshot : Option Snapshot}
    (hstore : s.store = w.db.wallet key) (hinFlight : s.inFlight = w.db.inFlight key)
    (hphase : s.phase = snapshot.elim .down .loading) (hloads : w.Loads key ip p snapshot)
    (honly : ∀ jp q other, w.Loads key jp q other → jp = ip ∧ q = p)
    (hnone : ∀ jp a, ¬ w.Live key jp a) : w.Presents key s where
  store := hstore
  inFlight := hinFlight
  live jp a ha := absurd ha (hnone jp a)
  loading jp q other hq := by
    obtain ⟨rfl, rfl⟩ := honly jp q other hq
    cases hloads.symm.trans hq
    exact hphase
  idle hvacant := absurd hloads (hvacant.2 ip p snapshot)
  single jp a _ _ ha := absurd ha (hnone jp a)
  loader jp q other kp r third hq hr := by
    obtain ⟨rfl, rfl⟩ := honly jp q other hq
    obtain ⟨rfl, rfl⟩ := honly kp r third hr
    exact ⟨rfl, rfl⟩

/-- Nobody writes the wallet or begins to serve it. Whoever was in charge may have gone. -/
theorem keep (h : w.Presents key s) (hwallet : w'.db.wallet key = w.db.wallet key)
    (hinFlight : w'.db.inFlight key = w.db.inFlight key)
    (hlive : ∀ ip a, w'.Live key ip a → w.Live key ip a ∧ ∃ now,
      ((w'.node ip).actor a).state = { ((w.node ip).actor a).state with lastActive := now })
    (hloads : ∀ ip p snapshot, w'.Loads key ip p snapshot → w.Loads key ip p snapshot) :
    ∃ t, (wallet key.tenantID key.uid).RunIf (Fits maxRows) s t ∧ w'.Presents key t := by
  have hsingle (ip : String) (a : Nat) (jp : String) (b : Nat) (ha : w'.Live key ip a)
      (hb : w'.Live key jp b) : ip = jp ∧ a = b :=
    h.single ip a jp b (hlive ip a ha).1 (hlive jp b hb).1
  have hloader (ip : String) (p : Nat) (snapshot : Option Snapshot) (jp : String) (q : Nat)
      (other : Option Snapshot) (hp : w'.Loads key ip p snapshot) (hq : w'.Loads key jp q other) :
      ip = jp ∧ p = q :=
    h.loader ip p snapshot jp q other (hloads ip p snapshot hp) (hloads jp q other hq)
  by_cases hvacant : w'.Vacant key
  · -- the actor has ended, or the rehydration has failed
    refine ⟨{ s with phase := .down }, .single ⟨.stop, trivial, rfl⟩, ?_⟩
    exact ⟨h.store.trans hwallet.symm, h.inFlight.trans hinFlight.symm,
      fun ip a ha => absurd ha (hvacant.1 ip a),
      fun ip p snapshot hp => absurd hp (hvacant.2 ip p snapshot), fun _ => rfl, hsingle, hloader⟩
  · refine ⟨s, .refl, h.store.trans hwallet.symm, h.inFlight.trans hinFlight.symm,
      fun ip a ha => ?_, fun ip p snapshot hp => h.loading ip p snapshot (hloads ip p snapshot hp),
      fun hnone => absurd hnone hvacant, hsingle, hloader⟩
    obtain ⟨hbefore, now, hstate⟩ := hlive ip a ha
    obtain ⟨b, now', hphase, hb⟩ := h.live ip a hbefore
    exact ⟨b, now, hphase, by rw [hstate, hb]⟩

end Presents

/-- A step of one node, with its effect on the tables. -/
structure NodeStep (cfg : Node.Config) (w : World) (ip : String) (action : Node.Action)
    (w' : World) : Prop where
  enabled : (w.node ip).enabled cfg action = true
  node : w'.node = Function.update w.node ip ((w.node ip).apply cfg w.db action)
  db : w'.db = w.db.apply (w.node ip) action

namespace NodeStep

variable {cfg : Node.Config} {w' : World} {ip : String} {action : Node.Action}

theorem of_node (henabled : w.enabled clientCfg nodeCfg (.node ip action) = true) :
    NodeStep (nodeCfg ip) w ip action (w.apply clientCfg nodeCfg (.node ip action)) :=
  ⟨(of_enabled_node henabled).2, rfl, rfl⟩

/-- The server calls the node. -/
theorem of_accept {stream : Stream} {batch : List RemoteEnvelope}
    (henabled : w.enabled clientCfg nodeCfg (.accept ip stream batch) = true) :
    NodeStep (nodeCfg ip) w ip (arrival stream batch)
      (w.apply clientCfg nodeCfg (.accept ip stream batch)) := by
  simp only [World.enabled, Bool.and_eq_true] at henabled
  exact ⟨henabled.2, rfl, rfl⟩

theorem self (h : NodeStep cfg w ip action w') :
    w'.node ip = (w.node ip).apply cfg w.db action := by
  rw [h.node, Function.update_self]

theorem other (h : NodeStep cfg w ip action w') {jp : String} (hjp : jp ≠ ip) :
    w'.node jp = w.node jp := by
  rw [h.node, Function.update_of_ne hjp]

theorem wellformed (h : NodeStep cfg w ip action w') (hw : ∀ jp, (w.node jp).Wellformed)
    (jp : String) : (w'.node jp).Wellformed := by
  by_cases hjp : jp = ip
  · subst hjp
    rw [h.self]
    exact (hw jp).step h.enabled
  · rw [h.other hjp]
    exact hw jp

variable {key : ActorKey} {s : WalletRun}

/-- An actor in charge was in charge before, unless it has just been started. -/
theorem live_back (h : NodeStep cfg w ip action w') (hw : (w.node ip).Wellformed) {jp : String}
    {a : Nat} (hlive : w'.Live key jp a) :
    (jp = ip ∧ a = (w.node ip).started ∧ ∃ p call now snapshot closeErr b,
        action = .loadEvents p call now snapshot closeErr ∧
        (newBusinessActor call.key.tenantID call.key.uid now).loadEvents snapshot
          ⟨(w.db.wallet call.key).eventsAfter snapshot.lastVersion, closeErr⟩ = (b, none) ∧
        call.key = key) ∨
      (w.Live key jp a ∧
        ((jp = ip ∧ ∃ env now outcome, action = .execute a env now outcome) ∨
          ∃ now, ((w'.node jp).actor a).state =
            { ((w.node jp).actor a).state with lastActive := now })) := by
  obtain ⟨hkey, halive⟩ := hlive
  by_cases hjp : jp = ip
  · subst hjp
    rw [h.self] at hkey halive
    rcases (NodeState.actorMove_apply h.enabled a).live (hw.lawful a) halive with
      ⟨p, call, now, snapshot, closeErr, b, hfresh, haction, hload, hactor⟩ |
      ⟨hbefore, hsame, ⟨env, now, outcome, haction, _⟩ | hstate⟩
    · rw [hactor] at hkey
      exact .inl ⟨rfl, hfresh, p, call, now, snapshot, closeErr, b, haction, hload, hkey⟩
    · exact .inr ⟨⟨hsame.symm.trans hkey, hbefore⟩, .inl ⟨rfl, env, now, outcome, haction⟩⟩
    · rw [h.self]
      exact .inr ⟨⟨hsame.symm.trans hkey, hbefore⟩, .inr hstate⟩
  · rw [h.other hjp] at hkey halive
    rw [h.other hjp]
    exact .inr ⟨⟨hkey, halive⟩, .inr ⟨_, rfl⟩⟩

/-- How a call comes to rehydrate a wallet. -/
theorem loads_back (h : NodeStep cfg w ip action w') {jp : String} {p : Nat}
    {snapshot : Option Snapshot} (hloads : w'.Loads key jp p snapshot) :
    w.Loads key jp p snapshot ∨
      (jp = ip ∧ ∃ call now, action = .create p call now ∧ call.key = key ∧
        (w.node ip).shards key = none ∧ snapshot = none) ∨
      (jp = ip ∧ ∃ call now closeErr snap, action = .loadSnapshot p call now closeErr ∧
        call.key = key ∧ w.Loads key ip p none ∧ snapshot = some snap ∧
        BusinessActor.loadSnapshot ⟨(w.db.wallet key).snapshot.toList, closeErr⟩ = .ok snap) := by
  unfold Loads at hloads
  by_cases hjp : jp = ip
  · subst hjp
    rw [h.self] at hloads
    rcases (NodeState.threadMove_apply h.enabled p).loading_back hloads with
      hbefore | hcreate | hload
    · exact .inl hbefore
    · exact .inr (.inl ⟨rfl, hcreate⟩)
    · exact .inr (.inr ⟨rfl, hload⟩)
  · rw [h.other hjp] at hloads
    exact .inl hloads

/-- The loop of an actor in charge is not at its end. -/
theorem live_of_execute {a : Nat} {env : RemoteEnvelope} {now : Int} {outcome : WriteOutcome}
    (h : NodeStep cfg w ip (.execute a env now outcome) w') (hw : (w.node ip).Wellformed) :
    w.Live ((w.node ip).actor a).key ip a := by
  have hloop : ((w.node ip).actor a).loop = .execute env now := of_decide_eq_true h.enabled
  refine ⟨rfl, fun hdead => ?_⟩
  rw [(hw.lawful a).ended.mp hdead] at hloop
  cases hloop

/-- An execution changes what the actor holds, and leaves it in charge. -/
theorem actor_execute {a : Nat} {env : RemoteEnvelope} {now : Int} {outcome : WriteOutcome}
    (h : NodeStep cfg w ip (.execute a env now outcome) w') (hw : (w.node ip).Wellformed) :
    w'.Live ((w.node ip).actor a).key ip a ∧
      ((w'.node ip).actor a).state = (((w.node ip).actor a).state.handle
        (w.db.wallet ((w.node ip).actor a).key) env now outcome).actor := by
  have hactor : (w'.node ip).actor a =
      ((w.node ip).execute w.db a env now outcome).actor a := by
    rw [h.self]
    rfl
  rw [NodeState.execute, NodeState.setActor_actor_self] at hactor
  rw [Live, hactor]
  exact ⟨⟨rfl, (h.live_of_execute hw).2⟩, rfl⟩

/-- The actor in charge executes an envelope. -/
theorem execute {a : Nat} {env : RemoteEnvelope} {now : Int} {outcome : WriteOutcome}
    (h : NodeStep cfg w ip (.execute a env now outcome) w') (hw : (w.node ip).Wellformed)
    (hs : w.Presents key s) (hkey : ((w.node ip).actor a).key = key)
    (hfits : WriteFits maxRows (w.db.wallet key) ((w.node ip).actor a).state outcome) :
    ∃ t, (wallet key.tenantID key.uid).RunIf (Fits maxRows) s t ∧ w'.Presents key t := by
  subst hkey
  have hlive := h.live_of_execute hw
  obtain ⟨b, clock, hphase, hstate⟩ := hs.live ip a hlive
  rw [← hs.store, hstate] at hfits
  -- the activity clock plays no part in `Handle`
  have hhandle : ((w.node ip).actor a).state.handle (w.db.wallet ((w.node ip).actor a).key)
      env now outcome = b.handle s.store env now outcome := by
    rw [← hs.store, hstate]
    rfl
  obtain ⟨hafter, hactor⟩ := h.actor_execute hw
  rw [hhandle] at hactor
  have honly (jp : String) (c : Nat) (hc : w'.Live ((w.node ip).actor a).key jp c) :
      jp = ip ∧ c = a := by
    rcases h.live_back hw hc with ⟨_, _, _, _, _, _, _, _, haction, _⟩ | ⟨hbefore, _⟩
    · cases haction
    · exact hs.single jp c ip a hbefore hlive
  have hnone (jp : String) (p : Nat) (snapshot : Option Snapshot) :
      ¬ w'.Loads ((w.node ip).actor a).key jp p snapshot := by
    intro hloads
    rcases h.loads_back hloads with hbefore | ⟨_, _, _, haction, _⟩ | ⟨_, _, _, _, _, haction, _⟩
    · exact hs.not_loads hlive jp p snapshot hbefore
    · cases haction
    · cases haction
  refine ⟨⟨(b.handle s.store env now outcome).store,
    (b.handle s.store env now outcome).snapshot.toList ++ s.inFlight,
    .live (b.handle s.store env now outcome).actor⟩,
    .single ⟨.handle env now outcome, ?_, ?_⟩, .of_live ?_ ?_ rfl hafter hactor honly hnone⟩
  · intro b' hb'
    cases hphase.symm.trans hb'
    exact hfits
  · simp only [wallet, WalletRun.handleStep, hphase]
  · simp only [h.db, Database.apply, Database.execute, hhandle, Function.update_self]
  · simp only [h.db, Database.apply, Database.execute, hhandle, Function.update_self,
      hs.inFlight]

/-- A rehydration begins, and nobody else serves the wallet. -/
theorem create {p : Nat} {call : Call} {now : Int}
    (h : NodeStep cfg w ip (.create p call now) w') (hw : (w.node ip).Wellformed)
    (hs : w.Presents key s) (hkey : call.key = key) (hentry : (w.node ip).shards key = none)
    (hvacant : w.Vacant key) : w'.Presents key s := by
  have hafter : (w'.node ip).thread p = .serving call (.loadSnapshot now) := by
    rw [h.self]
    simp only [NodeState.apply, hkey, hentry]
    exact NodeState.setThread_thread_self _ _ _
  have hloads : w'.Loads key ip p none := by
    rw [Loads, hafter, ← hkey]
    rfl
  have hdown : s.phase = (none : Option Snapshot).elim .down .loading := hs.idle hvacant
  have hdb : w'.db = w.db := h.db
  refine .of_loads (hdb ▸ hs.store) (hdb ▸ hs.inFlight) hdown hloads
    (fun jp q other hq => ?_) fun jp a ha => ?_
  · rcases h.loads_back hq with hbefore | ⟨hjp, _, _, haction, _⟩ | ⟨_, _, _, _, _, haction, _⟩
    · exact absurd hbefore (hvacant.2 jp q other)
    · cases haction
      exact ⟨hjp, rfl⟩
    · cases haction
  · rcases h.live_back hw ha with ⟨_, _, _, _, _, _, _, _, haction, _⟩ | ⟨hbefore, _⟩
    · cases haction
    · exact hvacant.1 jp a hbefore

/-- The first query of a rehydration succeeds. -/
theorem loadSnapshot {p : Nat} {call : Call} {now : Int} {closeErr : Option String}
    {snap : Snapshot} (h : NodeStep cfg w ip (.loadSnapshot p call now closeErr) w')
    (hw : (w.node ip).Wellformed) (hs : w.Presents key s) (hkey : call.key = key)
    (hload : BusinessActor.loadSnapshot ⟨(w.db.wallet key).snapshot.toList, closeErr⟩ = .ok snap) :
    ∃ t, (wallet key.tenantID key.uid).RunIf (Fits maxRows) s t ∧ w'.Presents key t := by
  have hp : (w.node ip).thread p = .serving call (.loadSnapshot now) := of_decide_eq_true h.enabled
  have hbefore : w.Loads key ip p none := by
    rw [Loads, hp, ← hkey]
    rfl
  have hdown : s.phase = .down := hs.loading ip p none hbefore
  have hafter : (w'.node ip).thread p = .serving call (.loadEvents now snap) := by
    rw [h.self]
    simp only [NodeState.apply, hkey, hload]
    exact NodeState.setThread_thread_self _ _ _
  have hloads : w'.Loads key ip p (some snap) := by
    rw [Loads, hafter, ← hkey]
    rfl
  have hdb : w'.db = w.db := h.db
  refine ⟨{ s with phase := .loading snap }, .single ⟨.loadSnapshot closeErr, trivial, ?_⟩,
    .of_loads (hdb ▸ hs.store) (hdb ▸ hs.inFlight) rfl hloads (fun jp q other hq => ?_)
      fun jp a ha => ?_⟩
  · simp only [wallet, WalletRun.loadSnapshotStep, hdown, hs.store, hload]
  · rcases h.loads_back hq with hold | ⟨_, _, _, haction, _⟩ | ⟨hjp, _, _, _, _, _, _, hold, _⟩
    · exact hs.loader jp q other ip p none hold hbefore
    · cases haction
    · exact ⟨hjp, (hs.loader ip q none ip p none hold hbefore).2⟩
  · rcases h.live_back hw ha with ⟨_, _, _, _, _, _, _, _, haction, _⟩ | ⟨hlive, _⟩
    · cases haction
    · exact hs.not_loads hlive ip p none hbefore

/-- The second query of a rehydration succeeds, and an actor is started. -/
theorem install {p : Nat} {call : Call} {now : Int} {snapshot : Snapshot}
    {closeErr : Option String} {b : BusinessActor}
    (h : NodeStep cfg w ip (.loadEvents p call now snapshot closeErr) w')
    (hw : (w.node ip).Wellformed) (hs : w.Presents key s) (hkey : call.key = key)
    (hload : (newBusinessActor call.key.tenantID call.key.uid now).loadEvents snapshot
      ⟨(w.db.wallet call.key).eventsAfter snapshot.lastVersion, closeErr⟩ = (b, none)) :
    ∃ t, (wallet key.tenantID key.uid).RunIf (Fits maxRows) s t ∧ w'.Presents key t := by
  have hp : (w.node ip).thread p = .serving call (.loadEvents now snapshot) :=
    of_decide_eq_true h.enabled
  have hbefore : w.Loads key ip p (some snapshot) := by
    rw [Loads, hp, ← hkey]
    rfl
  have hphase : s.phase = .loading snapshot := hs.loading ip p _ hbefore
  have hafter : w'.node ip = (w.node ip).install p call b := by
    rw [h.self]
    simp only [NodeState.apply, hload]
  have hactor : (w'.node ip).actor (w.node ip).started = .start call.key b := by
    rw [hafter]
    exact NodeState.setActor_actor_self _ _ _
  have hlive : w'.Live key ip (w.node ip).started := by
    rw [Live, hactor]
    exact ⟨hkey, fun hdead => by cases hdead⟩
  have hdb : w'.db = w.db := h.db
  refine ⟨{ s with phase := .live b }, .single ⟨.loadEvents now closeErr, trivial, ?_⟩,
    .of_live (hdb ▸ hs.store) (hdb ▸ hs.inFlight) rfl hlive (congrArg LocalActor.state hactor)
      (fun jp a ha => ?_) fun jp q other hq => ?_⟩
  · rw [hkey] at hload
    simp only [wallet, WalletRun.loadEventsStep, hphase, hs.store, hload]
  · rcases h.live_back hw ha with ⟨hjp, ha, _⟩ | ⟨hold, _⟩
    · exact ⟨hjp, ha⟩
    · exact absurd hbefore (hs.not_loads hold ip p _)
  · rcases h.loads_back hq with hold | ⟨_, _, _, haction, _⟩ | ⟨_, _, _, _, _, haction, _⟩
    · -- the call that has rehydrated the wallet goes on to send
      obtain ⟨rfl, rfl⟩ := hs.loader jp q other ip p _ hold hbefore
      rw [Loads, hafter, show ((w.node jp).install q call b).thread q = _ from
        NodeState.setThread_thread_self _ _ _] at hq
      cases hq
    · cases haction
    · cases haction

/-- Whatever a node does, the wallet takes at most one step of its own. -/
theorem presents (h : NodeStep cfg w ip action w') (hw : (w.node ip).Wellformed)
    (hs : w.Presents key s) (halone : w.Alone maxRows (.node ip action)) :
    ∃ t, (wallet key.tenantID key.uid).RunIf (Fits maxRows) s t ∧ w'.Presents key t := by
  by_cases hexecute : ∃ a env now outcome, action = .execute a env now outcome ∧
      ((w.node ip).actor a).key = key
  · obtain ⟨a, env, now, outcome, rfl, rfl⟩ := hexecute
    exact h.execute hw hs rfl halone
  by_cases hcreate : ∃ p call now, action = .create p call now ∧ call.key = key ∧
      (w.node ip).shards key = none
  · obtain ⟨p, call, now, rfl, rfl, hentry⟩ := hcreate
    exact ⟨s, .refl, h.create hw hs rfl hentry (halone hentry)⟩
  by_cases hload : ∃ p call now closeErr snap, action = .loadSnapshot p call now closeErr ∧
      call.key = key ∧
      BusinessActor.loadSnapshot ⟨(w.db.wallet key).snapshot.toList, closeErr⟩ = .ok snap
  · obtain ⟨p, call, now, closeErr, snap, rfl, hkey, hload⟩ := hload
    exact h.loadSnapshot hw hs hkey hload
  by_cases hinstall : ∃ p call now snapshot closeErr b,
      action = .loadEvents p call now snapshot closeErr ∧
      (newBusinessActor call.key.tenantID call.key.uid now).loadEvents snapshot
        ⟨(w.db.wallet call.key).eventsAfter snapshot.lastVersion, closeErr⟩ = (b, none) ∧
      call.key = key
  · obtain ⟨p, call, now, snapshot, closeErr, b, rfl, hload, hkey⟩ := hinstall
    exact h.install hw hs hkey hload
  -- otherwise the wallet is left alone, or given up
  obtain ⟨hwallet, hinFlight, _⟩ := w.db.apply_of_ne (w.node ip) action
    fun a env now outcome haction hkey => hexecute ⟨a, env, now, outcome, haction, hkey⟩
  rw [← h.db] at hwallet hinFlight
  refine hs.keep hwallet hinFlight (fun jp a ha => ?_) fun jp p snapshot hp => ?_
  · rcases h.live_back hw ha with ⟨_, _, hfresh⟩ |
      ⟨hlive, ⟨rfl, env, now, outcome, haction⟩ | hstate⟩
    · exact absurd hfresh hinstall
    · exact absurd ⟨a, env, now, outcome, haction, hlive.1⟩ hexecute
    · exact ⟨hlive, hstate⟩
  · rcases h.loads_back hp with hbefore | ⟨_, call, now, haction, hkey, hentry, _⟩ |
      ⟨_, call, now, closeErr, snap, haction, hkey, _, _, hsnap⟩
    · exact hbefore
    · exact absurd ⟨p, call, now, haction, hkey, hentry⟩ hcreate
    · exact absurd ⟨p, call, now, closeErr, snap, haction, hkey, hsnap⟩ hload

end NodeStep

namespace Presents

variable {key : ActorKey} {s : WalletRun}

/-- A snapshot write of any wallet lands. -/
theorem land (h : w.Presents key s) {other : ActorKey} {snapshot : Snapshot}
    (hsnapshot : snapshot ∈ w.db.inFlight other) :
    ∃ t, (wallet key.tenantID key.uid).RunIf (Fits maxRows) s t ∧
      (w.apply clientCfg nodeCfg (.land other snapshot)).Presents key t := by
  by_cases hkey : key = other
  · subst hkey
    rw [← h.inFlight] at hsnapshot
    obtain ⟨index, hindex⟩ := List.mem_iff_getElem?.mp hsnapshot
    refine ⟨{ s with store := s.store.upsertSnapshot snapshot },
      .single ⟨.land index, trivial, ?_⟩, ?_, h.inFlight, h.live, h.loading, h.idle, h.single,
      h.loader⟩
    · simp only [wallet, hindex, Option.map_some]
    · simp only [apply, Database.land, Function.update_self, h.store]
  · refine ⟨s, .refl, ?_, h.inFlight, h.live, h.loading, h.idle, h.single, h.loader⟩
    simp only [apply, Database.land, Function.update_of_ne hkey, h.store]

/-- A crash takes the actors and the calls of a node. -/
theorem crash (h : w.Presents key s) (ip : String) :
    ∃ t, (wallet key.tenantID key.uid).RunIf (Fits maxRows) s t ∧
      (w.apply clientCfg nodeCfg (.crash ip)).Presents key t := by
  have hself : (w.apply clientCfg nodeCfg (.crash ip)).node ip = newNode :=
    Function.update_self _ _ _
  have hother {jp : String} (hjp : jp ≠ ip) :
      (w.apply clientCfg nodeCfg (.crash ip)).node jp = w.node jp := Function.update_of_ne hjp _ _
  refine h.keep rfl rfl (fun jp a ha => ?_) fun jp p snapshot hp => ?_
  · by_cases hjp : jp = ip
    · subst hjp
      rw [Live, hself] at ha
      exact absurd rfl ha.2
    · rw [Live, hother hjp] at ha
      rw [hother hjp]
      exact ⟨ha, _, rfl⟩
  · by_cases hjp : jp = ip
    · subst hjp
      rw [Loads, hself] at hp
      cases hp
    · rwa [Loads, hother hjp] at hp

/-- Whatever the deployment does, the wallet takes at most one step of its own. -/
theorem step (h : w.Presents key s) (hw : ∀ ip, (w.node ip).Wellformed) {action : WorldAction}
    (halone : w.Alone maxRows action) (henabled : w.enabled clientCfg nodeCfg action = true) :
    ∃ t, (wallet key.tenantID key.uid).RunIf (Fits maxRows) s t ∧
      (w.apply clientCfg nodeCfg action).Presents key t := by
  cases action with
  | gateway | sever =>
      exact ⟨s, .refl, h.store, h.inFlight, h.live, h.loading, h.idle, h.single, h.loader⟩
  | accept ip stream batch =>
      exact (NodeStep.of_accept henabled).presents (hw ip) h trivial
  | node ip action => exact (NodeStep.of_node henabled).presents (hw ip) h halone
  | land other snapshot => exact h.land (of_decide_eq_true henabled)
  | crash ip => exact h.crash ip

end Presents

theorem wellformed_step (hw : ∀ ip, (w.node ip).Wellformed) {action : WorldAction}
    (henabled : w.enabled clientCfg nodeCfg action = true) (ip : String) :
    ((w.apply clientCfg nodeCfg action).node ip).Wellformed := by
  cases action with
  | gateway | sever | land => exact hw ip
  | accept jp stream batch =>
      exact (NodeStep.of_accept henabled).wellformed hw ip
  | node jp action => exact (NodeStep.of_node henabled).wellformed hw ip
  | crash jp =>
      change (Function.update w.node jp newNode ip).Wellformed
      by_cases hip : ip = jp
      · rw [hip, Function.update_self]
        exact NodeState.wellformed_newNode
      · rw [Function.update_of_ne hip]
        exact hw ip

/-- Each wallet goes on from where it is. -/
def Continues (maxRows : Nat) (runs later : ActorKey → WalletRun) : Prop :=
  ∀ key : ActorKey, (wallet key.tenantID key.uid).RunIf (Fits maxRows) (runs key) (later key)

/-- The wallets of the deployment have the given runs. -/
structure Separate (maxRows : Nat) (w : World) (runs : ActorKey → WalletRun) : Prop where
  wellformed : ∀ ip, (w.node ip).Wellformed
  reachable : ∀ key : ActorKey,
    (wallet key.tenantID key.uid).ReachableIf (Fits maxRows) (runs key)
  presents : ∀ key, w.Presents key (runs key)

theorem separate_newWorld (maxRows : Nat) :
    newWorld.Separate maxRows fun key => (wallet key.tenantID key.uid).init where
  wellformed _ := NodeState.wellformed_newNode
  reachable _ := .refl
  presents := presents_newWorld

/-- A step of the deployment continues the runs of the wallets. -/
theorem Separate.step {runs : ActorKey → WalletRun} (h : w.Separate maxRows runs)
    {action : WorldAction} (halone : w.Alone maxRows action)
    (henabled : w.enabled clientCfg nodeCfg action = true) :
    ∃ later, Continues maxRows runs later ∧
      (w.apply clientCfg nodeCfg action).Separate maxRows later := by
  choose later hrun hpresents using fun key => (h.presents key).step h.wellformed halone henabled
  exact ⟨later, hrun, wellformed_step h.wellformed henabled,
    fun key => (h.reachable key).trans (hrun key), hpresents⟩

end World

/-- If a rehydration begins only when no node serves the wallet, then in every run of the
deployment every wallet is in a state of a single wallet that is stopped and rehydrated: it has
the same tables, one actor at most is in charge of it, on one node, and that actor is the one
of the single wallet. -/
theorem wallets_run_alone
    (hw : (deployment clientCfg nodeCfg).ReachableIf (World.Alone maxRows) w) (key : ActorKey) :
    ∃ s, (wallet key.tenantID key.uid).ReachableIf (Fits maxRows) s ∧ w.Presents key s := by
  obtain ⟨runs, h⟩ : ∃ runs, w.Separate maxRows runs := by
    refine hw.invariant (P := fun w => ∃ runs, w.Separate maxRows runs)
      ⟨_, World.separate_newWorld maxRows⟩ ?_
    rintro w action t ⟨runs, h⟩ halone hstep
    obtain ⟨henabled, rfl⟩ := System.guarded_step_eq_some_iff.mp hstep
    obtain ⟨later, _, hlater⟩ := h.step halone henabled
    exact ⟨later, hlater⟩
  exact ⟨runs key, h.reachable key, h.presents key⟩

/-! ## One transfer -/

/-- The conditions of a step that begins no rehydration. -/
def World.Checked (maxRows : Nat) (w : World) : WorldAction → Prop
  | .node _ (.create _ _ _) => False
  | .node ip (.execute a _ _ outcome) =>
      WriteFits maxRows (w.db.wallet ((w.node ip).actor a).key) ((w.node ip).actor a).state outcome
  | action => w.InSequence action

instance (maxRows : Nat) (w : World) (action : WorldAction) :
    Decidable (w.Checked maxRows action) := by
  unfold World.Checked WriteFits WalletStore.HasRoom
  split <;> infer_instance

theorem World.orderly_of_checked (w : World) (action : WorldAction)
    (h : w.Checked maxRows action) : w.Orderly maxRows action := by
  cases action with
  | node ip action =>
      cases action with
      | create => exact h.elim
      | execute => exact ⟨trivial, h⟩
      | _ => exact ⟨trivial, trivial⟩
  | gateway => exact ⟨h, trivial⟩
  | _ => exact ⟨trivial, trivial⟩

/-- The step is one of the given processes. -/
def WorldAction.within (machineIDs : List MachineID) (ips : List String) : WorldAction → Bool
  | .gateway machineID _ => machineID ∈ machineIDs
  | .accept ip _ _ | .node ip _ | .crash ip => ip ∈ ips
  | _ => true

theorem untouched_of_within {machineIDs : List MachineID} {ips : List String}
    (hw : (deployment clientCfg nodeCfg).ReachableIf
      (fun _ action => action.within machineIDs ips = true) w) :
    (∀ machineID, machineID ∉ machineIDs → w.gateway machineID = newGateway machineID) ∧
      ∀ ip, ip ∉ ips → w.node ip = newNode := by
  refine hw.invariant (P := fun w => (∀ machineID, machineID ∉ machineIDs →
    w.gateway machineID = newGateway machineID) ∧ ∀ ip, ip ∉ ips → w.node ip = newNode)
    ⟨fun _ _ => rfl, fun _ _ => rfl⟩ fun w action t h hwithin hstep => ?_
  obtain ⟨_, rfl⟩ := System.guarded_step_eq_some_iff.mp hstep
  cases action with
  | land | sever => exact h
  | gateway other =>
      have hother : other ∈ machineIDs := of_decide_eq_true hwithin
      refine ⟨fun machineID hmachine => ?_, h.2⟩
      have hne : machineID ≠ other := by
        rintro rfl
        exact hmachine hother
      exact (Function.update_of_ne hne _ _).trans (h.1 machineID hmachine)
  | accept other | node other | crash other =>
      have hother : other ∈ ips := of_decide_eq_true hwithin
      refine ⟨h.1, fun ip hip => ?_⟩
      have hne : ip ≠ other := by
        rintro rfl
        exact hip hother
      exact (Function.update_of_ne hne _ _).trans (h.2 ip hip)

theorem wellformed_of_reachable (hw : (deployment clientCfg nodeCfg).Reachable w) (ip : String) :
    (w.node ip).Wellformed := by
  refine hw.invariant (P := fun w => ∀ ip, (w.node ip).Wellformed)
    (fun _ => NodeState.wellformed_newNode) (fun w action t h hstep => ?_) ip
  obtain ⟨henabled, rfl⟩ := System.guarded_step_eq_some_iff.mp hstep
  exact World.wellformed_step h henabled

/-- A wallet is vacant if its actors on the nodes in use are dead and nobody has the lock of
its shard. -/
theorem vacant_of_within {machineIDs : List MachineID} {ips : List String}
    (hw : (deployment clientCfg nodeCfg).ReachableIf
      (fun _ action => action.within machineIDs ips = true) w) {key : ActorKey}
    (hactors : ∀ ip ∈ ips, (w.node ip).Vacant key)
    (hlock : ∀ ip ∈ ips, (w.node ip).lock key.shardIndex = none) : w.Vacant key := by
  have hother {ip : String} (hip : ip ∉ ips) : w.node ip = newNode :=
    (untouched_of_within hw).2 ip hip
  refine ⟨fun ip a hlive => ?_, fun ip p snapshot hloads => ?_⟩
  · by_cases hip : ip ∈ ips
    · exact hlive.2 (hactors ip hip a hlive.1)
    · rw [World.Live, hother hip] at hlive
      exact hlive.2 rfl
  · by_cases hip : ip ∈ ips
    · -- a call that rehydrates has the lock of the shard, and it is free
      have hheld := (wellformed_of_reachable (hw.mono fun _ _ _ => trivial) ip).locked
        (.thread p) _ (Thread.holding_of_loading hloads)
      cases (hlock ip hip).symm.trans hheld
    · rw [World.Loads, hother hip] at hloads
      cases hloads

/-- The call for the transfer has found no actor. -/
def looking : List WorldAction :=
  submission.map (.gateway transferGateway) ++
    [.accept "node-a" (transferGateway, 0) [transferEnvelope]] ++
    (execution.take 4).map (.node "node-a")

theorem transferred_eq : transferred = looking ++
    [.node "node-a" (.create 2 transferServed 0)] ++
    (execution.drop 5).map (.node "node-a") := rfl

theorem reachable_transferred :
    standard.ReachableIf (World.Orderly 1000) (standard.after transferred) := by
  have hlooking : standard.ReachableIf (World.Orderly 1000) (standard.after looking) := by
    have hnil : standard.ReachableIf (World.Orderly 1000) (standard.after []) := .refl
    exact hnil.append_of_admits World.orderly_of_checked (by decide +kernel)
  have hwithin : standard.ReachableIf
      (fun _ action => action.within [transferGateway] ["node-a"] = true)
      (standard.after looking) := System.reachableIf_of_admits (by decide +kernel)
  have hvacant : (standard.after looking).Vacant ⟨1, 42⟩ := by
    refine vacant_of_within hwithin (fun ip hip a _ => ?_) fun ip hip => ?_
    · obtain rfl := List.mem_singleton.mp hip
      rfl
    · obtain rfl := List.mem_singleton.mp hip
      decide +kernel
  have hcreate : (standard.after looking).Orderly 1000
      (.node "node-a" (.create 2 transferServed 0)) := ⟨trivial, fun _ => hvacant⟩
  rw [transferred_eq]
  exact (hlooking.concat hcreate).append_of_admits World.orderly_of_checked (by decide +kernel)

/-! The wallet moves. The second transfer finds that `node-b` has become the owner, and the
third one is sent there. -/

/-- The old owner refuses the transfer and evicts its actor, which ends. -/
def leaving : List Node.Action :=
  [.flushEnd false] ++ inquiring 0 againServed "node-b" ++
    [.kill 0 againServed, .close 0 againServed 0, .killSignal 0 againServed 0,
      .spawn 0 againServed 0, .push 0 0 [] (wrongNodeResult againEnvelope), .finish 0 0,
      .dequeue 0, .checkStatus 0, .exit 0]

def movingCall : Dispatch := ⟨lastEnvelope, ⟨some 1⟩, "node-b", 0⟩

def movingServed : Call := ⟨streamID (againGateway, 1), lastEnvelope, []⟩

def movingResult : RemoteResult :=
  { transferResult with txId := "2", requestId := 2, payload := [0, 0, 0, 0, 0, 0, 0, 200] }

/-- The new owner has found no actor for the third transfer. -/
def vacating : List WorldAction :=
  (opening 0 againCall 0).map (.gateway againGateway) ++
    [.accept "node-a" (againGateway, 0) [againEnvelope]] ++ leaving.map (.node "node-a") ++
    (opening 1 movingCall 1).map (.gateway againGateway) ++
    [.accept "node-b" (againGateway, 1) [lastEnvelope]] ++
    (inquiring 1 movingServed "node-b" ++ [Node.Action.lookup 1 movingServed]).map (.node "node-b")

/-- An actor of the new owner executes it. -/
def settling : List Node.Action :=
  (rehydrating 1 movingServed).tail ++ handing 1 movingServed 0 ++
    executing 0 lastEnvelope ⟨movingResult, 1⟩

def moved : List WorldAction :=
  transferred ++ vacating ++ [.node "node-b" (.create 1 movingServed 0)] ++
    settling.map (.node "node-b")

theorem reachable_moved :
    standard.ReachableIf (World.Orderly 1000) (standard.after moved) := by
  have hleft : standard.ReachableIf (World.Orderly 1000)
      (standard.after (transferred ++ vacating)) :=
    reachable_transferred.append_of_admits World.orderly_of_checked (by decide +kernel)
  have hwithin : standard.ReachableIf (fun _ action =>
      action.within [transferGateway, againGateway] ["node-a", "node-b"] = true)
      (standard.after (transferred ++ vacating)) :=
    System.reachableIf_of_admits (by decide +kernel)
  have hvacant : (standard.after (transferred ++ vacating)).Vacant ⟨1, 42⟩ := by
    refine vacant_of_within hwithin (fun ip hip a _ => ?_) (by decide +kernel)
    -- the actor of the first owner has ended, and there is no other one
    rcases List.mem_cons.mp hip with rfl | hip
    · cases a with
      | zero => decide +kernel
      | succ a => rfl
    · obtain rfl := List.mem_singleton.mp hip
      rfl
  have hcreate : (standard.after (transferred ++ vacating)).Orderly 1000
      (.node "node-b" (.create 1 movingServed 0)) := ⟨trivial, fun _ => hvacant⟩
  exact (hleft.concat hcreate).append_of_admits World.orderly_of_checked (by decide +kernel)

theorem wallets_run_alone_moved :
    (((standard.after moved).node "node-a").actor 0).key = ⟨1, 42⟩ ∧
      (((standard.after moved).node "node-a").actor 0).state.balance = 100 ∧
      (standard.after moved).Live ⟨1, 42⟩ "node-b" 0 ∧
      ∃ s b, (wallet 1 42).ReachableIf (Fits 1000) s ∧
        s.store = (standard.after moved).db.wallet ⟨1, 42⟩ ∧ s.phase = .live b ∧
        b.balance = 200 := by
  have hlive : (standard.after moved).Live ⟨1, 42⟩ "node-b" 0 :=
    ⟨by decide +kernel, by decide +kernel⟩
  have hbalance : (((standard.after moved).node "node-b").actor 0).state.balance = 200 := by
    decide +kernel
  obtain ⟨s, hs, hpresents⟩ :=
    wallets_run_alone (reachable_moved.mono fun _ _ h => h.2) ⟨1, 42⟩
  obtain ⟨b, now, hphase, hstate⟩ := hpresents.live "node-b" 0 hlive
  rw [hstate] at hbalance
  exact ⟨by decide +kernel, by decide +kernel, hlive, s, b, hs, hpresents.store, hphase, hbalance⟩

end ActorCluster.Deployment
