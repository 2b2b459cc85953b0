import ActorCluster.Node.Wellformed
import ActorCluster.Wallet.Recovery

/-! # The writer of a wallet

Eviction, passivation and `Stop` take an actor out of the shard map while its
loop may still have envelopes to execute. A rehydration that begins before that
loop has ended makes a second writer for the same wallet, and both number their
events from the same version on. If every earlier actor of the key is dead
whenever a rehydration begins, then the wallet has one writer at a time, which
holds the whole ledger, and acknowledged events never share a version.
-/

namespace ActorCluster.Node

open Remote Wallet Transition ActorCluster.Runtime

/-- The key that a goroutine is rehydrating, and the snapshot it has read. -/
def Thread.loading : Thread → Option (ActorKey × Option Snapshot)
  | .serving call (.loadSnapshot _) => some (call.key, none)
  | .serving call (.loadEvents _ snapshot) => some (call.key, some snapshot)
  | _ => none

theorem Thread.holding_of_loading {t : Thread} {key : ActorKey} {snapshot : Option Snapshot}
    (h : t.loading = some (key, snapshot)) : t.holding = some key.shardIndex := by
  unfold Thread.loading at h
  split at h
  · cases h
    rfl
  · cases h
    rfl
  · cases h

namespace NodeState

variable {cfg : Config} {n : NodeState} {db : Database} {action : Action}

/-- Every actor of the key is dead. -/
def Vacant (n : NodeState) (key : ActorKey) : Prop :=
  ∀ a, (n.actor a).key = key → (n.actor a).Dead

/-- A rehydration begins only when every earlier actor of the key is dead. -/
def CreatesVacant (n : NodeState) : Action → Prop
  | .create _ call _ => n.shards call.key = none → n.Vacant call.key
  | _ => True

/-- The store's partition limit: a write takes effect only where the partition
of the wallet can hold its row. -/
def Fits (maxRows : Nat) (n : NodeState) (db : Database) : Action → Prop
  | .execute a _ _ outcome =>
      WriteFits maxRows (db.wallet (n.actor a).key) (n.actor a).state outcome
  | _ => True

/-- Both conditions, for the steps of one wallet only. -/
def WritesAlone (maxRows : Nat) (n : NodeState) (db : Database) (key : ActorKey) : Action → Prop
  | .execute a _ _ outcome =>
      (n.actor a).key = key → WriteFits maxRows (db.wallet key) (n.actor a).state outcome
  | .create _ call _ => call.key = key → n.shards key = none → n.Vacant key
  | _ => True

theorem writesAlone_of_fits {maxRows : Nat} (hfits : n.Fits maxRows db action)
    (hcreates : n.CreatesVacant action) (key : ActorKey) :
    n.WritesAlone maxRows db key action := by
  cases action with
  | execute a env now outcome =>
      rintro rfl
      exact hfits
  | create p call now =>
      rintro rfl
      exact hcreates
  | _ => trivial

end NodeState

/-- How a call comes to be rehydrating. -/
theorem ThreadMove.loading_back {n : NodeState} {db : Database} {action : Action} {p : Nat}
    {t : Thread} (h : ThreadMove n db action p t) {key : ActorKey} {snapshot : Option Snapshot}
    (ht : t.loading = some (key, snapshot)) :
    (n.thread p).loading = some (key, snapshot) ∨
      (∃ call now, action = .create p call now ∧ call.key = key ∧ n.shards key = none ∧
        snapshot = none) ∨
      ∃ call now closeErr snap, action = .loadSnapshot p call now closeErr ∧ call.key = key ∧
        (n.thread p).loading = some (key, none) ∧ snapshot = some snap ∧
        BusinessActor.loadSnapshot ⟨(db.wallet key).snapshot.toList, closeErr⟩ = .ok snap := by
  cases h with
  | stay => exact Or.inl ht
  | go call pc pc' hp hmove =>
      cases hmove with
      | create now haction hentry =>
          cases ht
          exact Or.inr (Or.inl ⟨call, now, haction, rfl, hentry, rfl⟩)
      | loaded now snap closeErr haction hload =>
          cases ht
          rw [hp]
          exact Or.inr (Or.inr ⟨call, now, closeErr, snap, haction, rfl, rfl, rfl, hload⟩)
      | _ => cases ht
  | _ => cases ht

/-- An actor that is not dead was not dead before, unless it has just been
started, and its wallet changes only by executing an envelope. -/
theorem ActorMove.live {n : NodeState} {db : Database} {action : Action} {a : Nat}
    {actor : LocalActor} (h : ActorMove n db action a actor) (hlawful : (n.actor a).Lawful)
    (hlive : ¬ actor.Dead) :
    (∃ p call now snapshot closeErr b, a = n.started ∧
        action = .loadEvents p call now snapshot closeErr ∧
        (newBusinessActor call.key.tenantID call.key.uid now).loadEvents snapshot
          ⟨(db.wallet call.key).eventsAfter snapshot.lastVersion, closeErr⟩ = (b, none) ∧
        actor = .start call.key b) ∨
      (¬ (n.actor a).Dead ∧ actor.key = (n.actor a).key ∧
        ((∃ env now outcome, action = .execute a env now outcome ∧ actor.state =
            ((n.actor a).state.handle (db.wallet (n.actor a).key) env now outcome).actor) ∨
          ∃ now, actor.state = { (n.actor a).state with lastActive := now })) := by
  -- a loop that is not at its end belongs to an actor that is not dead
  have hrunning {loop : Loop} (hloop : (n.actor a).loop = loop) (hne : loop ≠ .dead) :
      ¬ (n.actor a).Dead :=
    fun hdead => hne (hloop.symm.trans (hlawful.ended.mp hdead))
  cases h with
  | install p call now snapshot closeErr b hfresh haction _ hload =>
      exact Or.inl ⟨p, call, now, snapshot, closeErr, b, hfresh, haction, hload, rfl⟩
  | stop =>
      refine Or.inr ⟨fun hdead => hlive ?_, ?_, Or.inr ⟨(n.actor a).state.lastActive, ?_⟩⟩
      · unfold LocalActor.stop
        rw [if_neg (fun haccepts => (Status.accepts_iff.mp haccepts).2 hdead)]
        exact hdead
      · unfold LocalActor.stop
        split <;> rfl
      · unfold LocalActor.stop
        split <;> rfl
  | dequeue hloop =>
      refine Or.inr ⟨hrunning hloop (by simp), ?_, Or.inr ⟨(n.actor a).state.lastActive, ?_⟩⟩ <;>
        · unfold LocalActor.dequeue
          split <;> rfl
  | handle env now hloop => exact Or.inr ⟨hrunning hloop (by simp), rfl, Or.inr ⟨now, rfl⟩⟩
  | execute env now outcome haction hloop =>
      rw [NodeState.execute, NodeState.setActor_actor_self]
      exact Or.inr ⟨hrunning hloop (by simp), rfl, Or.inl ⟨env, now, outcome, haction, rfl⟩⟩
  | exit => exact absurd rfl hlive
  | stay | signal | swap | link | collect | uncount | emit | deliver | checkStatus | wakeUp =>
      exact Or.inr ⟨hlive, rfl, Or.inr ⟨(n.actor a).state.lastActive, rfl⟩⟩

/-- The tables of a wallet change only where an actor of its key executes. -/
theorem Database.apply_of_ne (db : Database) (n : NodeState) (action : Action) {key : ActorKey}
    (h : ∀ a env now outcome, action = .execute a env now outcome → (n.actor a).key ≠ key) :
    (db.apply n action).wallet key = db.wallet key ∧
      (db.apply n action).inFlight key = db.inFlight key ∧
      (db.apply n action).acked key = db.acked key := by
  cases action with
  | execute a env now outcome =>
      have hne := (h a env now outcome rfl).symm
      simp only [apply, execute, Function.update_of_ne hne, and_self]
  | _ => exact ⟨rfl, rfl, rfl⟩

/-- The wallet has at most one writer, which holds the whole ledger; a goroutine
rehydrates it only while it has none. -/
structure SoleWriter (maxRows : Nat) (n : NodeState) (db : Database) (key : ActorKey)
    (ledger : Ledger EventRow) : Prop where
  backs : Backs maxRows (db.wallet key) (db.inFlight key) ledger
  acked : (db.acked key).Sublist ledger.settled
  single : ∀ a b, (n.actor a).key = key → (n.actor b).key = key → ¬ (n.actor a).Dead →
    ¬ (n.actor b).Dead → a = b
  holds : ∀ a, (n.actor a).key = key → ¬ (n.actor a).Dead → HoldsLedger (n.actor a).state ledger
  vacant : ∀ p snapshot, (n.thread p).loading = some (key, snapshot) →
    n.Vacant key ∧ ∀ snap, snapshot = some snap → Agrees ledger.settled snap

namespace SoleWriter

variable {cfg : Config} {maxRows : Nat} {n n' : NodeState} {db db' : Database} {key : ActorKey}
variable {ledger : Ledger EventRow} {action : Action}

theorem start (maxRows : Nat) (key : ActorKey) :
    SoleWriter maxRows newNode .empty key Ledger.empty where
  backs := Backs.empty maxRows
  acked := List.Sublist.refl _
  single _ _ _ _ hlive := absurd rfl hlive
  holds _ _ hlive := absurd rfl hlive
  vacant := nofun

/-- Nobody writes this wallet, and no actor of the key is started. -/
theorem keep (h : SoleWriter maxRows n db key ledger) (hwallet : db'.wallet key = db.wallet key)
    (hinFlight : db'.inFlight key = db.inFlight key) (hacked : db'.acked key = db.acked key)
    (hactor : ∀ a, (n'.actor a).key = key → ¬ (n'.actor a).Dead → (n.actor a).key = key ∧
      ¬ (n.actor a).Dead ∧ ∃ now, (n'.actor a).state = { (n.actor a).state with lastActive := now })
    (hloading : ∀ p snapshot, (n'.thread p).loading = some (key, snapshot) →
      n.Vacant key ∧ ∀ snap, snapshot = some snap → Agrees ledger.settled snap) :
    SoleWriter maxRows n' db' key ledger where
  backs := by
    rw [hwallet, hinFlight]
    exact h.backs
  acked := by
    rw [hacked]
    exact h.acked
  single a b ha hb hlive hlive' :=
    h.single a b (hactor a ha hlive).1 (hactor b hb hlive').1 (hactor a ha hlive).2.1
      (hactor b hb hlive').2.1
  holds a ha hlive := by
    obtain ⟨hkey, hbefore, now, hstate⟩ := hactor a ha hlive
    have hholds := h.holds a hkey hbefore
    rw [hstate]
    exact ⟨hholds.version, hholds.balance, hholds.cached⟩
  vacant p snapshot hp := by
    obtain ⟨hvacant, hagrees⟩ := hloading p snapshot hp
    refine ⟨fun a ha => ?_, hagrees⟩
    by_contra hlive
    obtain ⟨hkey, hbefore, _⟩ := hactor a ha hlive
    exact hbefore (hvacant a hkey)

/-- A snapshot write of any wallet lands. -/
theorem land (h : SoleWriter maxRows n db key ledger) {other : ActorKey} {snapshot : Snapshot}
    (hsnapshot : snapshot ∈ db.inFlight other) :
    SoleWriter maxRows n (db.land other snapshot) key ledger := by
  refine { h with backs := ?_ }
  by_cases hkey : key = other
  · subst hkey
    simp only [Database.land, Function.update_self]
    exact h.backs.land hsnapshot
  · simp only [Database.land, Function.update_of_ne hkey]
    exact h.backs

/-- The writer executes an envelope. -/
theorem execute (h : SoleWriter maxRows n db key ledger) (hmax : maxRows < 2 ^ 63)
    (hw : n.Wellformed) {a : Nat} {env : RemoteEnvelope} {now : Int} {outcome : WriteOutcome}
    (henabled : n.enabled cfg (.execute a env now outcome) = true) (hkey : (n.actor a).key = key)
    (hfits : WriteFits maxRows (db.wallet key) (n.actor a).state outcome) :
    ∃ next, SoleWriter maxRows (n.apply cfg db (.execute a env now outcome))
      (db.apply n (.execute a env now outcome)) key next := by
  have hloop : (n.actor a).loop = .execute env now := by simpa [NodeState.enabled] using henabled
  have hlive : ¬ (n.actor a).Dead := by
    intro hdead
    rw [(hw.lawful a).ended.mp hdead] at hloop
    cases hloop
  obtain ⟨next, hnext, hholds, hbacks⟩ :=
    (h.holds a hkey hlive).handle h.backs hmax env now outcome hfits
  have hbefore (b : Nat) (hb : ((n.apply cfg db (.execute a env now outcome)).actor b).key = key)
      (hblive : ¬ ((n.apply cfg db (.execute a env now outcome)).actor b).Dead) : b = a := by
    rcases (NodeState.actorMove_apply henabled b).live (hw.lawful b) hblive with
      ⟨_, _, _, _, _, _, _, haction, _⟩ | ⟨hb', hbkey, _⟩
    · cases haction
    · exact h.single b a (hbkey.symm.trans hb) hkey hb' hlive
  refine ⟨next, ?_, ?_, ?_, ?_, ?_⟩
  · simp only [Database.apply, Database.execute, hkey, Function.update_self]
    exact hbacks
  · simp only [Database.apply, Database.execute, hkey, Function.update_self]
    cases hnext with
    | unwritten hskip =>
        rw [if_neg, List.append_nil]
        · exact h.acked
        · rintro ⟨hadmits, rfl⟩
          rcases hskip with hskip | hskip
          · exact hskip hadmits
          · cases hskip
    | tentative _ hne =>
        rw [if_neg fun hacked => hne hacked.2, List.append_nil]
        exact h.acked
    | settled hadmits happlied =>
        rw [if_pos ⟨hadmits, happlied⟩]
        exact h.acked.append_right _
  · intro b c hb hc hblive hclive
    rw [hbefore b hb hblive, hbefore c hc hclive]
  · intro b hb hblive
    obtain rfl := hbefore b hb hblive
    rw [show (n.apply cfg db (.execute b env now outcome)).actor b = _ from
      NodeState.setActor_actor_self _ _ _, hkey]
    exact hholds
  · intro p snapshot hp
    rcases (NodeState.threadMove_apply henabled p).loading_back hp with
      hp | ⟨_, _, haction, _⟩ | ⟨_, _, _, _, haction, _⟩
    · exact absurd ((h.vacant p snapshot hp).1 a hkey) hlive
    · cases haction
    · cases haction

/-- A rehydration ends: the wallet has a writer again. -/
theorem install (h : SoleWriter maxRows n db key ledger) (hw : n.Wellformed) {p : Nat}
    {call : Call} {now : Int} {snapshot : Snapshot} {closeErr : Option String} {b : BusinessActor}
    (henabled : n.enabled cfg (.loadEvents p call now snapshot closeErr) = true)
    (hload : (newBusinessActor call.key.tenantID call.key.uid now).loadEvents snapshot
      ⟨(db.wallet call.key).eventsAfter snapshot.lastVersion, closeErr⟩ = (b, none))
    (hkey : call.key = key) :
    SoleWriter maxRows (n.apply cfg db (.loadEvents p call now snapshot closeErr)) db key
      ledger.adopt := by
  have hp : n.thread p = .serving call (.loadEvents now snapshot) := by
    simpa [NodeState.enabled] using henabled
  subst hkey
  obtain rfl := BusinessActor.loadEvents_eq_none hload
  have hploading : (n.thread p).loading = some (call.key, some snapshot) := by
    rw [hp]
    rfl
  obtain ⟨hvacant, hagrees⟩ := h.vacant p _ hploading
  obtain ⟨k, recovered, _, _, heq, _, hholds⟩ := h.backs.loadEvents (hagrees snapshot rfl)
    (show (newBusinessActor call.key.tenantID call.key.uid now).txCache = ∅ from rfl)
  cases hload.symm.trans heq
  have happly : n.apply cfg db (.loadEvents p call now snapshot none) = n.install p call b := by
    simp only [NodeState.apply, hload]
  have hnew (a : Nat) (ha : ((n.install p call b).actor a).key = call.key)
      (hlive : ¬ ((n.install p call b).actor a).Dead) : a = n.started := by
    rw [← happly] at ha hlive
    rcases (NodeState.actorMove_apply henabled a).live (hw.lawful a) hlive with
      ⟨_, _, _, _, _, _, hfresh, _⟩ | ⟨hbefore, hakey, _⟩
    · exact hfresh
    · exact absurd (hvacant a (hakey.symm.trans ha)) hbefore
  rw [happly]
  refine ⟨h.backs.adopt, h.acked.trans ledger.settled_prefix_rows.sublist, ?_, ?_, ?_⟩
  · intro a c ha hc halive hclive
    rw [hnew a ha halive, hnew c hc hclive]
  · intro a ha halive
    obtain rfl := hnew a ha halive
    rw [show (n.install p call b).actor n.started = _ from NodeState.setActor_actor_self _ _ _]
    exact hholds
  · intro r snap hr
    -- the lock admits one rehydration of the shard at a time
    have hrp : r ≠ p := by
      rintro rfl
      rw [show (n.install r call b).thread r = _ from NodeState.setThread_thread_self _ _ _] at hr
      cases hr
    rw [show (n.install p call b).thread r = _ from NodeState.setThread_thread_of_ne _ _ hrp] at hr
    have hlock := hw.locked (.thread r) _ (Thread.holding_of_loading hr)
    cases hlock.symm.trans (hw.locked (.thread p) _ (Thread.holding_of_loading hploading))
    exact absurd rfl hrp

/-- Every step keeps the writer of every wallet alone. -/
theorem step (h : SoleWriter maxRows n db key ledger) (hmax : maxRows < 2 ^ 63)
    (hw : n.Wellformed) (henabled : n.enabled cfg action = true)
    (halone : n.WritesAlone maxRows db key action) :
    ∃ next, SoleWriter maxRows (n.apply cfg db action) (db.apply n action) key next := by
  by_cases hexecute : ∃ a env now outcome, action = .execute a env now outcome ∧
      (n.actor a).key = key
  · obtain ⟨a, env, now, outcome, rfl, hkey⟩ := hexecute
    exact h.execute hmax hw henabled hkey (halone hkey)
  by_cases hinstall : ∃ p call now snapshot closeErr b,
      action = .loadEvents p call now snapshot closeErr ∧
      (newBusinessActor call.key.tenantID call.key.uid now).loadEvents snapshot
        ⟨(db.wallet call.key).eventsAfter snapshot.lastVersion, closeErr⟩ = (b, none) ∧
      call.key = key
  · obtain ⟨p, call, now, snapshot, closeErr, b, rfl, hload, hkey⟩ := hinstall
    exact ⟨_, h.install hw henabled hload hkey⟩
  -- otherwise the wallet and its writer are left alone
  obtain ⟨hwallet, hinFlight, hacked⟩ := db.apply_of_ne n action
    fun a env now outcome haction hkey => hexecute ⟨a, env, now, outcome, haction, hkey⟩
  refine ⟨ledger, h.keep hwallet hinFlight hacked (fun a ha hlive => ?_) fun p snapshot hp => ?_⟩
  · rcases (NodeState.actorMove_apply henabled a).live (hw.lawful a) hlive with
      ⟨p, call, now, snapshot, closeErr, b, _, haction, hload, hactor⟩ |
      ⟨hbefore, hkey, ⟨env, now, outcome, haction, _⟩ | hstate⟩
    · rw [hactor] at ha
      exact absurd ⟨p, call, now, snapshot, closeErr, b, haction, hload, ha⟩ hinstall
    · exact absurd ⟨a, env, now, outcome, haction, hkey.symm.trans ha⟩ hexecute
    · exact ⟨hkey.symm.trans ha, hbefore, hstate⟩
  · rcases (NodeState.threadMove_apply henabled p).loading_back hp with
      hp | ⟨call, now, rfl, rfl, hentry, rfl⟩ | ⟨call, now, closeErr, snap, _, _, hr, rfl, hsnap⟩
    · exact h.vacant p snapshot hp
    · exact ⟨halone rfl hentry, nofun⟩
    · refine ⟨(h.vacant p none hr).1, ?_⟩
      rintro _ ⟨⟩
      obtain rfl := BusinessActor.loadSnapshot_eq_ok hsnap
      obtain ⟨snap', hsnap', hagrees⟩ := h.backs.loadSnapshot
      cases hsnap.symm.trans hsnap'
      exact hagrees

/-- Acknowledged events stay in the table. -/
theorem acked_sublist_events (h : SoleWriter maxRows n db key ledger) :
    (db.acked key).Sublist (db.wallet key).events := by
  rw [h.backs.events]
  exact h.acked.trans ledger.settled_prefix_rows.sublist

/-- Acknowledged events have different versions. -/
theorem nodup_acked (h : SoleWriter maxRows n db key ledger) :
    ((db.acked key).map EventRow.version).Nodup := by
  have hordered : (db.acked key).Pairwise fun row row' => row.key < row'.key :=
    (db.wallet key).ordered.sublist h.acked_sublist_events
  rw [List.Nodup, List.pairwise_map]
  exact hordered.imp fun hlt heq => by simp [EventRow.key, heq] at hlt

end SoleWriter

/-- The condition on a whole run: the store's partition limit is kept, and a
rehydration begins only when every earlier actor of the key is dead. -/
def NodeRun.CreatesVacant (maxRows : Nat) (r : NodeRun) : Event → Prop
  | .act action => r.node.Fits maxRows r.db action ∧ r.node.CreatesVacant action
  | .land _ _ => True

/-- In every run in which a rehydration begins only when every earlier actor of
the key is dead, at most one actor of a key is started and not dead, and
acknowledged events of a key never share a version. -/
theorem single_writer {cfg : Config} {maxRows : Nat} (hmax : maxRows < 2 ^ 63) {r : NodeRun}
    (hr : (node cfg).ReachableIf (NodeRun.CreatesVacant maxRows) r) :
    (∀ a b, (r.node.actor a).key = (r.node.actor b).key → ¬ (r.node.actor a).Dead →
      ¬ (r.node.actor b).Dead → a = b) ∧
    ∀ key, ((r.db.acked key).map EventRow.version).Nodup := by
  have hinv : r.node.Wellformed ∧
      ∀ key, ∃ ledger, SoleWriter maxRows r.node r.db key ledger := by
    refine System.ReachableIf.invariant (P := fun r => r.node.Wellformed ∧
      ∀ key, ∃ ledger, SoleWriter maxRows r.node r.db key ledger) ?_ ?_ hr
    · exact ⟨NodeState.wellformed_newNode, fun key => ⟨Ledger.empty, SoleWriter.start maxRows key⟩⟩
    · rintro r event t ⟨hw, hsole⟩ hguard hstep
      obtain ⟨henabled, rfl⟩ := System.guarded_step_eq_some_iff.mp hstep
      cases event with
      | act action =>
          refine ⟨hw.step henabled, fun key => ?_⟩
          obtain ⟨ledger, h⟩ := hsole key
          exact h.step hmax hw henabled (NodeState.writesAlone_of_fits hguard.1 hguard.2 key)
      | land other snapshot =>
          refine ⟨hw, fun key => ?_⟩
          obtain ⟨ledger, h⟩ := hsole key
          exact ⟨ledger, h.land (of_decide_eq_true henabled)⟩
  refine ⟨fun a b hab ha hb => ?_, fun key => ?_⟩
  · obtain ⟨ledger, h⟩ := hinv.2 (r.node.actor b).key
    exact h.single a b hab rfl ha hb
  · obtain ⟨ledger, h⟩ := hinv.2 key
    exact h.nodup_acked

/-- A node that has a resolver and the address `node-a`. -/
def nodeA : Config := ⟨0, true, "node-a"⟩

/-- A deposit of ten into the wallet `(1, 42)`. -/
def deposit (txId : String) (requestId : UInt64) : RemoteEnvelope where
  tenantId := 1
  uid := 42
  txId := txId
  requestId := requestId
  opCode := 1
  payload := [0, 0, 0, 0, 0, 0, 0, 10]

/-- The result of the first deposit. -/
def firstResult : RemoteResult where
  tenantId := 1
  uid := 42
  txId := "1"
  requestId := 1
  opCode := 1
  success := true
  errorCode := none
  errorMsg := ""
  payload := [0, 0, 0, 0, 0, 0, 0, 10]

/-- The result of a deposit after which the balance is as given. -/
def depositResult (txId : String) (requestId : UInt64) (balance : UInt8) : RemoteResult :=
  { firstResult with
    txId := txId, requestId := requestId, payload := [0, 0, 0, 0, 0, 0, 0, balance] }

/-- One envelope arrives alone, and its actor is looked up. -/
def arrival (p : Nat) (env : RemoteEnvelope) (ownerIP : String) : List Event :=
  [.act (.arrive p p [env]), .act (.gate p p [env]), .act (.next p p env []),
    .act (.owner p ⟨p, env, []⟩ (some (.ok ownerIP)))]

/-- The actor is rehydrated from an empty wallet and started. -/
def rehydration (p : Nat) (env : RemoteEnvelope) : List Event :=
  [.act (.loadSnapshot p ⟨p, env, []⟩ 0 none), .act (.loadEvents p ⟨p, env, []⟩ 0 ⟨0, 0⟩ none)]

/-- The envelope is sent to an actor, and the call returns. -/
def dispatch (p : Nat) (env : RemoteEnvelope) (a : Nat) : List Event :=
  [.act (.route p ⟨p, env, []⟩ a), .act (.send p ⟨p, env, []⟩ a), .act (.count p ⟨p, env, []⟩ a),
    .act (.swap p ⟨p, env, []⟩ a), .act (.link p ⟨p, env, []⟩ a), .act (.wake p ⟨p, env, []⟩ a),
    .act (.finish p p)]

/-- The loop of an actor takes an envelope and enters `Handle`. -/
def taking (a : Nat) (env : RemoteEnvelope) : List Event :=
  [.act (.dequeue a), .act (.uncount a env), .act (.handle a env 0)]

/-- A call for another node evicts an actor, and returns. -/
def eviction (p : Nat) (env : RemoteEnvelope) (a : Nat) : List Event :=
  [.act (.kill p ⟨p, env, []⟩), .act (.close p ⟨p, env, []⟩ a),
    .act (.killSignal p ⟨p, env, []⟩ a), .act (.spawn p ⟨p, env, []⟩ a),
    .act (.push p p [] (wrongNodeResult env)), .act (.finish p p)]

def firstArrival : List Event :=
  arrival 0 (deposit "1" 1) "node-a" ++ [Event.act (.lookup 0 ⟨0, deposit "1" 1, []⟩)]

def firstDispatch : List Event :=
  rehydration 0 (deposit "1" 1) ++ dispatch 0 (deposit "1" 1) 0 ++ taking 0 (deposit "1" 1)

/-- The first deposit of a wallet. -/
def firstDeposit : List Event :=
  firstArrival ++ [Event.act (.create 0 ⟨0, deposit "1" 1, []⟩ 0)] ++ firstDispatch ++
    [Event.act (.execute 0 (deposit "1" 1) 0 .applied)]

/-- The first deposit of a wallet, and its answer. -/
def answeredDeposit : List Event :=
  firstDeposit ++ [Event.act (.emit 0 firstResult), .act (.deliver 0 ⟨firstResult, 0⟩)]

/-- The actor has answered when a call for another node evicts it. Its loop ends, and the
next call finds no actor. -/
def vacatedWallet : List Event :=
  arrival 1 (deposit "2" 2) "node-b" ++ eviction 1 (deposit "2" 2) 0 ++
    [Event.act (.dequeue 0), .act (.checkStatus 0), .act (.exit 0)] ++
    arrival 2 (deposit "3" 3) "node-a" ++ [Event.act (.lookup 2 ⟨2, deposit "3" 3, []⟩)]

def secondDispatch : List Event :=
  rehydration 2 (deposit "3" 3) ++ dispatch 2 (deposit "3" 3) 1 ++ taking 1 (deposit "3" 3)

/-- A second actor takes the place of the dead one, and executes a deposit. -/
def succession : List Event :=
  answeredDeposit ++ vacatedWallet ++ [Event.act (.create 2 ⟨2, deposit "3" 3, []⟩ 0)] ++
    secondDispatch ++ [Event.act (.execute 1 (deposit "3" 3) 0 .applied)]

theorem single_writer_succession :
    (((node nodeA).after succession).node.actor 0).key = ⟨1, 42⟩ ∧
      (((node nodeA).after succession).node.actor 0).Dead ∧
      (((node nodeA).after succession).db.acked ⟨1, 42⟩).map
        (fun row => (row.version, row.txID)) = [(1, "1"), (2, "3")] ∧
      (∀ a, (((node nodeA).after succession).node.actor a).key = ⟨1, 42⟩ →
        ¬ (((node nodeA).after succession).node.actor a).Dead → a = 1) ∧
      ((((node nodeA).after succession).db.acked ⟨1, 42⟩).map EventRow.version).Nodup := by
  have hreachable : (node nodeA).ReachableIf (NodeRun.CreatesVacant 1000)
      ((node nodeA).after succession) := by
    have hfirst : (node nodeA).ReachableIf (NodeRun.CreatesVacant 1000)
        ((node nodeA).after answeredDeposit) := by
      refine System.ReachableIf.append (System.ReachableIf.concat (System.ReachableIf.append
        (System.ReachableIf.concat (System.reachableIf_after ?_) ?_) ?_) ?_) ?_
      · simp [firstArrival, arrival, NodeRun.CreatesVacant, NodeState.Fits,
          NodeState.CreatesVacant]
      · exact ⟨trivial, fun _ _ _ => rfl⟩
      · simp [firstDispatch, rehydration, dispatch, taking, NodeRun.CreatesVacant, NodeState.Fits,
          NodeState.CreatesVacant]
      · exact ⟨fun _ => Or.inr (by decide +kernel), trivial⟩
      · simp [NodeRun.CreatesVacant, NodeState.Fits, NodeState.CreatesVacant]
    refine System.ReachableIf.concat (System.ReachableIf.append
      (System.ReachableIf.concat (System.ReachableIf.append hfirst ?_) ?_) ?_) ?_
    · simp [vacatedWallet, arrival, eviction, NodeRun.CreatesVacant, NodeState.Fits,
        NodeState.CreatesVacant]
    · -- the first actor has ended, and there is no other one
      refine ⟨trivial, fun _ a _ => ?_⟩
      cases a with
      | zero => decide +kernel
      | succ a => rfl
    · simp [secondDispatch, rehydration, dispatch, taking, NodeRun.CreatesVacant, NodeState.Fits,
        NodeState.CreatesVacant]
    · exact ⟨fun _ => Or.inr (by decide +kernel), trivial⟩
  have hlive : ¬ (((node nodeA).after succession).node.actor 1).Dead := by decide +kernel
  have hkey : (((node nodeA).after succession).node.actor 1).key = ⟨1, 42⟩ := by decide +kernel
  obtain ⟨hsingle, hnodup⟩ := single_writer (by decide) hreachable
  refine ⟨by decide +kernel, by decide +kernel, by decide +kernel, fun a ha halive => ?_,
    hnodup ⟨1, 42⟩⟩
  exact hsingle a 1 (ha.trans hkey.symm) halive hlive

/-- The first actor has taken its deposit when a call evicts it. The next call
finds no actor and rehydrates a second one; then both execute. -/
def doubleDeposit : List Event :=
  firstArrival ++ [Event.act (.create 0 ⟨0, deposit "1" 1, []⟩ 0)] ++ firstDispatch ++
    arrival 1 (deposit "2" 2) "node-b" ++ eviction 1 (deposit "2" 2) 0 ++
    arrival 2 (deposit "3" 3) "node-a" ++
    [Event.act (.lookup 2 ⟨2, deposit "3" 3, []⟩), .act (.create 2 ⟨2, deposit "3" 3, []⟩ 0)] ++
    rehydration 2 (deposit "3" 3) ++ dispatch 2 (deposit "3" 3) 1 ++ taking 1 (deposit "3" 3) ++
    [Event.act (.execute 0 (deposit "1" 1) 0 .applied),
      .act (.execute 1 (deposit "3" 3) 0 .applied)]

/-- Two actors of one wallet are alive at once. Both of their deposits are
acknowledged at version 1, and only the second one is left in the table. -/
theorem two_writers :
    ∃ r, (node nodeA).Reachable r ∧
      (r.node.actor 0).key = ⟨1, 42⟩ ∧ ¬ (r.node.actor 0).Dead ∧
      (r.node.actor 1).key = ⟨1, 42⟩ ∧ ¬ (r.node.actor 1).Dead ∧
      (r.db.acked ⟨1, 42⟩).map (fun row => (row.version, row.txID)) = [(1, "1"), (1, "3")] ∧
      (r.db.wallet ⟨1, 42⟩).events.map (fun row => (row.version, row.txID)) = [(1, "3")] := by
  refine ⟨(node nodeA).after doubleDeposit, System.reachable_after _, ?_, ?_, ?_, ?_, ?_, ?_⟩ <;>
    decide +kernel

end ActorCluster.Node
