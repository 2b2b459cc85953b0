import ActorCluster.Deployment.Streams
import ActorCluster.Node.Sources

/-! # What becomes of a request

The version of an event is a blind guess, so two actors of one wallet overwrite each
other's rows, and what a table shows need not be all that was written to it. The
history of the writes is another matter: whatever crashes, breaks or disagrees, a
request has its event written at most once, and a gateway tells its user of success
only if the event was written.
-/

namespace ActorCluster.Deployment

open Remote Wallet Transition Client Node ActorCluster.Runtime
open scoped List

variable {clientCfg : MachineID → Client.Config} {nodeCfg : String → Node.Config} {w : World}

/-! ## Writes -/

/-- A write is that of an execution. -/
theorem writes_eq_some {n : NodeState} {action : Node.Action} {key : ActorKey} {row : EventRow}
    (h : writes n action = some (key, row)) :
    ∃ a env now outcome, action = .execute a env now outcome ∧ (n.actor a).state.Admits env ∧
      outcome.takesEffect = true ∧ key = (n.actor a).key ∧
      row = (n.actor a).state.eventRow env now := by
  unfold writes at h
  split at h
  next a env now outcome =>
    split at h
    next hwrites =>
      cases h
      exact ⟨a, env, now, outcome, rfl, hwrites.1, hwrites.2, rfl, rfl⟩
    next => cases h
  next => cases h

theorem writes_execute {n : NodeState} {a : Nat} {env : RemoteEnvelope} {now : Int}
    {outcome : WriteOutcome} (hadmits : (n.actor a).state.Admits env)
    (heffect : outcome.takesEffect = true) :
    writes n (.execute a env now outcome) =
      some ((n.actor a).key, (n.actor a).state.eventRow env now) :=
  if_pos ⟨hadmits, heffect⟩

theorem mem_recording {n : NodeState} {action : Node.Action} {key : ActorKey} {row : EventRow} :
    row ∈ w.recording n action key ↔
      row ∈ w.written key ∨ writes n action = some (key, row) := by
  unfold World.recording
  cases writes n action with
  | none => simp
  | some written =>
      obtain ⟨key', row'⟩ := written
      by_cases hkey : key = key'
      · subst hkey
        simp [eq_comm]
      · dsimp only
        rw [Function.update_of_ne hkey]
        simp [Ne.symm hkey]

/-- The tables have only rows that were written. -/
theorem stored_apply {db : Database} {n : NodeState} {action : Node.Action} {key : ActorKey}
    {row : EventRow} (h : row ∈ ((db.apply n action).wallet key).events) :
    row ∈ (db.wallet key).events ∨ writes n action = some (key, row) := by
  cases action with
  | execute a env now outcome =>
      change row ∈ (Function.update db.wallet (n.actor a).key _ key).events at h
      by_cases hkey : key = (n.actor a).key
      · subst hkey
        rw [Function.update_self] at h
        rcases mem_events_handle h with hold | ⟨hadmits, heffect, rfl⟩
        · exact .inl hold
        · exact .inr (writes_execute hadmits heffect)
      · rw [Function.update_of_ne hkey] at h
        exact .inl h
  | _ => exact .inl h

namespace World

/-- The event of the request was written. -/
def Wrote (w : World) (env : RemoteEnvelope) : Prop :=
  ∃ row ∈ w.written (actorKey env), row.txID = env.txId ∧
    row.deltaAmount = BusinessActor.decodeAmount env.payload

/-- What is known of the writes. A request that has no result yet has no event. -/
structure Recorded (w : World) : Prop where
  founded : ∀ ip, (w.node ip).Founded
  stored : ∀ key, ∀ row ∈ (w.db.wallet key).events, row ∈ w.written key
  cached : ∀ ip a, ∀ txID ∈ ((w.node ip).actor a).state.txCache,
    ∃ row ∈ w.written ((w.node ip).actor a).key, row.txID = txID
  origin : ∀ key, ∀ row ∈ w.written key, ∃ stream, ∃ env ∈ w.received stream,
    actorKey env = key ∧ row.txID = env.txId ∧
      row.deltaAmount = BusinessActor.decodeAmount env.payload
  unspent : ∀ ip place, place ≠ .produced → ∀ key ∈ (w.node ip).asked place,
    ∀ row ∈ w.written ⟨key.tenant, key.uid⟩, row.txID ≠ formatUint key.req
  once : ∀ key, ((w.written key).map EventRow.txID).Nodup

theorem recorded_newWorld : newWorld.Recorded where
  founded _ := NodeState.founded_newNode
  stored _ _ h := by cases h
  cached _ _ _ h := absurd h (Finset.notMem_empty _)
  origin _ _ h := by cases h
  unspent _ _ _ _ _ _ h := by cases h
  once _ := List.nodup_nil

namespace Carried

theorem genuine (h : w.Carried) (hw : w.Issuing) {stream : Stream} {env : RemoteEnvelope}
    (henv : env ∈ w.received stream) : Genuine env :=
  hw.genuine (h.sent_of_received henv)

/-- The transaction id tells the envelope. -/
theorem eq_of_txId (h : w.Carried) (hw : w.Issuing) {first second : Stream}
    {env env' : RemoteEnvelope} (henv : env ∈ w.received first) (henv' : env' ∈ w.received second)
    (htxId : env.txId = env'.txId) : env = env' := by
  rw [(h.genuine hw henv).txId, (h.genuine hw henv').txId] at htxId
  exact (hw.begun_unique (hw.begun (h.sent_of_received henv))
    (hw.begun (h.sent_of_received henv')) (formatUint_injective htxId)).2

end Carried

namespace Recorded

theorem accept (h : w.Recorded) (hc : w.Carried) (hw : w.Issuing) {ip : String} {stream : Stream}
    {batch : List RemoteEnvelope} (hnext : (w.up stream).head? = some batch)
    (henabled : (w.node ip).enabled (nodeCfg ip) (arrival stream batch) = true) :
    (w.apply clientCfg nodeCfg (.accept ip stream batch)).Recorded := by
  have hself : (w.apply clientCfg nodeCfg (.accept ip stream batch)).node ip =
      (w.node ip).apply (nodeCfg ip) w.db (arrival stream batch) := Function.update_self _ _ _
  have hother {jp : String} (hjp : jp ≠ ip) :
      (w.apply clientCfg nodeCfg (.accept ip stream batch)).node jp = w.node jp :=
    Function.update_of_ne hjp _ _
  refine ⟨fun jp => ?_, h.stored, fun jp a txID htxID => ?_, fun key row hrow => ?_,
    fun jp place hplace key hkey row hrow htxID => ?_, h.once⟩
  · by_cases hjp : jp = ip
    · subst hjp
      rw [hself]
      exact (h.founded jp).step henabled
    · rw [hother hjp]
      exact h.founded jp
  · have hactor : ((w.apply clientCfg nodeCfg (.accept ip stream batch)).node jp).actor a =
        (w.node jp).actor a := by
      by_cases hjp : jp = ip
      · subst hjp
        rw [hself]
        rfl
      · rw [hother hjp]
    rw [hactor] at htxID ⊢
    exact h.cached jp a txID htxID
  · obtain ⟨source, env, henv, hrest⟩ := h.origin key row hrow
    exact ⟨source, env, received_accept henv, hrest⟩
  · by_cases hjp : jp = ip
    · subst hjp
      rw [hself] at hkey
      have htransfer : NodeState.Transfer (w.node jp)
          ((w.node jp).apply (nodeCfg jp) w.db (arrival stream batch)) :=
        NodeState.transfer_apply (hc.served jp).wellformed henabled (hc.freshRequests hw jp hnext)
      rcases htransfer.asked_back hplace hkey with
        ⟨place', hplace', hold⟩ | ⟨env, sender, harrived, hnew, rfl⟩
      · exact h.unspent jp place' hplace' key hold row hrow htxID
      · rw [← hself] at harrived
        have henv := ((arrived_accept harrived).resolve_left hnew).2.1
        obtain ⟨source, env', henv', _, htxID', _⟩ := h.origin _ row hrow
        rw [htxID', (hc.genuine hw henv').txId] at htxID
        exact (hc.fresh hw hnext).2 env henv source env' henv' (formatUint_injective htxID).symm
    · rw [hother hjp] at hkey
      exact h.unspent jp place hplace key hkey row hrow htxID

/-- The request that a step writes has arrived at the node, and the step answers it. -/
theorem writing (h : w.Recorded) (hc : w.Carried) (hw : w.Issuing) {ip : String}
    {action : Node.Action} (henabled : (w.node ip).enabled (nodeCfg ip) action = true)
    {key : ActorKey} {row : EventRow} (hwrites : writes (w.node ip) action = some (key, row)) :
    ∃ env, actorKey env = key ∧ row.txID = env.txId ∧
      row.deltaAmount = BusinessActor.decodeAmount env.payload ∧
      env.txId = formatUint env.requestId ∧ (∃ sender, (env, sender) ∈ (w.node ip).arrived) ∧
      (∃ a, routeKey env ∈ (w.node ip).asked (.actor a)) ∧
      routeKey env ∈ ((w.node ip).apply (nodeCfg ip) w.db action).asked .produced := by
  obtain ⟨a, env, now, outcome, rfl, hadmits, heffect, rfl, rfl⟩ := writes_eq_some hwrites
  have hloop : ((w.node ip).actor a).loop = .execute env now := of_decide_eq_true henabled
  have haddressed := (hc.served ip).wellformed.addressed a
  have henv : actorKey env = ((w.node ip).actor a).key :=
    haddressed.inHand env (by rw [hloop]; rfl)
  obtain ⟨sender, harrived⟩ := (h.founded ip).arrived_of_execute hloop
  obtain ⟨stream, _, hreceived⟩ := hc.arrived ip env sender harrived
  refine ⟨env, henv, rfl, rfl, (hc.genuine hw hreceived).txId, ⟨sender, harrived⟩, ⟨a, ?_⟩, ?_⟩
  · refine List.mem_append_left _ ?_
    rw [hloop]
    exact List.mem_cons_self
  · rw [← resultKey_execute haddressed henv (w.db.wallet ((w.node ip).actor a).key) now outcome]
    exact List.mem_map_of_mem (List.mem_append_right _ (List.mem_singleton_self _))

theorem node (h : w.Recorded) (hc : w.Carried) (hw : w.Issuing) {ip : String}
    {action : Node.Action} (harrive : ∀ p sender batch, action ≠ .arrive p sender batch)
    (henabled : (w.node ip).enabled (nodeCfg ip) action = true) :
    (w.apply clientCfg nodeCfg (.node ip action)).Recorded := by
  have hself : (w.apply clientCfg nodeCfg (.node ip action)).node ip =
      (w.node ip).apply (nodeCfg ip) w.db action := Function.update_self _ _ _
  have hother {jp : String} (hjp : jp ≠ ip) :
      (w.apply clientCfg nodeCfg (.node ip action)).node jp = w.node jp :=
    Function.update_of_ne hjp _ _
  have hserved : ((w.node ip).apply (nodeCfg ip) w.db action).Served :=
    (hc.served ip).step henabled (freshRequests_of_not_arrive harrive)
  have hgrow {key : ActorKey} {row : EventRow} (hrow : row ∈ w.written key) :
      row ∈ w.recording (w.node ip) action key := mem_recording.mpr (.inl hrow)
  refine ⟨fun jp => ?_, fun key row hrow => ?_, fun jp a txID htxID => ?_, fun key row hrow => ?_,
    fun jp place hplace key hkey row hrow htxID => ?_, fun key => ?_⟩
  · by_cases hjp : jp = ip
    · subst hjp
      rw [hself]
      exact (h.founded jp).step henabled
    · rw [hother hjp]
      exact h.founded jp
  · exact mem_recording.mpr ((stored_apply hrow).imp_left (h.stored key row))
  · by_cases hjp : jp = ip
    · subst hjp
      rw [hself] at htxID ⊢
      rcases (NodeState.actorMove_apply henabled a).cached_back htxID with
        ⟨hkey, hold | ⟨env, now, outcome, rfl, hadmits, rfl, rfl⟩⟩ | ⟨row, hrow, rfl⟩
      · obtain ⟨row, hrow, rfl⟩ := h.cached jp a txID hold
        exact ⟨row, hgrow (hkey ▸ hrow), rfl⟩
      · rw [hkey]
        exact ⟨_, mem_recording.mpr (.inr (writes_execute hadmits rfl)), rfl⟩
      · exact ⟨row, hgrow (h.stored _ row hrow), rfl⟩
    · rw [hother hjp] at htxID ⊢
      obtain ⟨row, hrow, rfl⟩ := h.cached jp a txID htxID
      exact ⟨row, hgrow hrow, rfl⟩
  · rcases mem_recording.mp hrow with hold | hwrites
    · exact h.origin key row hold
    · obtain ⟨env, henv, htxId, hamount, _, ⟨sender, harrived⟩, _⟩ :=
        h.writing hc hw henabled hwrites
      obtain ⟨stream, _, hreceived⟩ := hc.arrived ip env sender harrived
      exact ⟨stream, env, hreceived, henv, htxId, hamount⟩
  · rcases mem_recording.mp hrow with hold | hwrites
    · by_cases hjp : jp = ip
      · subst hjp
        rw [hself] at hkey
        have htransfer : NodeState.Transfer (w.node jp)
            ((w.node jp).apply (nodeCfg jp) w.db action) :=
          NodeState.transfer_apply (hc.served jp).wellformed henabled
            (freshRequests_of_not_arrive harrive)
        rcases htransfer.asked_back hplace hkey with
          ⟨place', hplace', hbefore⟩ | ⟨env, sender, harrived, hnew, _⟩
        · exact h.unspent jp place' hplace' key hbefore row hold htxID
        · rw [NodeState.arrived_apply _ _ _ harrive] at harrived
          exact hnew harrived
      · rw [hother hjp] at hkey
        exact h.unspent jp place hplace key hkey row hold htxID
    · -- the request of the new row has its result now, and is not at another node
      obtain ⟨env, henv, htxId, _, hid, ⟨sender, harrived⟩, _, hproduced⟩ :=
        h.writing hc hw henabled hwrites
      rw [htxId, hid] at htxID
      have hreq : key.req = env.requestId := (formatUint_injective htxID).symm
      by_cases hjp : jp = ip
      · subst hjp
        rw [hself] at hkey
        have hsame : key = routeKey env := by
          obtain ⟨tenant, uid, req⟩ := key
          cases henv
          exact congrArg (ResultRouteKey.mk _ _) hreq
        rw [hsame] at hkey
        exact hserved.accounted.asked.notMem hkey hplace hproduced
      · rw [hother hjp] at hkey
        obtain ⟨arrival, hmem, heq⟩ := List.mem_map.mp ((hc.served jp).accounted.known place _ hkey)
        refine hc.apart jp ip hjp arrival hmem (env, sender) harrived ?_
        rw [← hreq, ← heq]
        rfl
  · change ((w.recording (w.node ip) action key).map EventRow.txID).Nodup
    cases hwrites : writes (w.node ip) action with
    | none =>
        rw [recording, hwrites]
        exact h.once key
    | some written =>
        obtain ⟨key', row⟩ := written
        rw [recording, hwrites]
        dsimp only
        by_cases hkey : key = key'
        · subst hkey
          obtain ⟨env, rfl, htxId, _, hid, _, ⟨a, hasked⟩, _⟩ := h.writing hc hw henabled hwrites
          rw [Function.update_self, List.map_append, List.nodup_append']
          refine ⟨h.once _, List.nodup_singleton _, ?_⟩
          rw [List.map_singleton, List.disjoint_singleton, htxId, hid]
          intro hmem
          obtain ⟨row', hrow', heq⟩ := List.mem_map.mp hmem
          exact h.unspent ip (.actor a) (nomatch ·) _ hasked row' hrow' heq
        · rw [Function.update_of_ne hkey]
          exact h.once key

theorem land (h : w.Recorded) (key : ActorKey) (snapshot : Snapshot) :
    (w.apply clientCfg nodeCfg (.land key snapshot)).Recorded := by
  refine ⟨h.founded, fun other row hrow => h.stored other row ?_, h.cached, h.origin, h.unspent,
    h.once⟩
  change row ∈ (Function.update w.db.wallet key _ other).events at hrow
  by_cases hother : other = key
  · subst hother
    rwa [Function.update_self] at hrow
  · rwa [Function.update_of_ne hother] at hrow

theorem crash (h : w.Recorded) (ip : String) :
    (w.apply clientCfg nodeCfg (.crash ip)).Recorded := by
  have hnode (jp : String) : (w.apply clientCfg nodeCfg (.crash ip)).node jp = newNode ∨
      (w.apply clientCfg nodeCfg (.crash ip)).node jp = w.node jp := by
    by_cases hjp : jp = ip
    · subst hjp
      exact .inl (Function.update_self _ _ _)
    · exact .inr (Function.update_of_ne hjp _ _)
  refine ⟨fun jp => ?_, h.stored, fun jp a txID htxID => ?_, h.origin,
    fun jp place hplace key hkey => ?_, h.once⟩
  · rcases hnode jp with hnew | hold
    · rw [hnew]
      exact NodeState.founded_newNode
    · rw [hold]
      exact h.founded jp
  · rcases hnode jp with hnew | hold
    · rw [hnew] at htxID
      exact absurd htxID (Finset.notMem_empty _)
    · rw [hold] at htxID ⊢
      exact h.cached jp a txID htxID
  · rcases hnode jp with hnew | hold
    · rw [hnew] at hkey
      cases place <;> cases hkey
    · rw [hold] at hkey
      exact h.unspent jp place hplace key hkey

theorem step (h : w.Recorded) (hc : w.Carried) (hw : w.Issuing) {action : WorldAction}
    (henabled : w.enabled clientCfg nodeCfg action = true) :
    (w.apply clientCfg nodeCfg action).Recorded := by
  cases action with
  | gateway machineID action =>
      exact ⟨h.founded, h.stored, h.cached, h.origin, h.unspent, h.once⟩
  | accept ip stream batch =>
      simp only [enabled, Bool.and_eq_true, decide_eq_true_eq] at henabled
      exact h.accept hc hw henabled.1.1.2 henabled.2
  | node ip action =>
      obtain ⟨harrive, henabled⟩ := of_enabled_node henabled
      exact h.node hc hw harrive henabled
  | land key snapshot => exact h.land key snapshot
  | sever stream => exact ⟨h.founded, h.stored, h.cached, h.origin, h.unspent, h.once⟩
  | crash ip => exact h.crash ip

end Recorded

end World

theorem recorded_of_reachable
    (hw : (deployment clientCfg nodeCfg).ReachableIf World.InSequence w) : w.Recorded := by
  refine hw.invariant_of (fun w hw => And.intro (carried_of_reachable hw) (issuing_of_reachable hw))
    World.recorded_newWorld ?_
  rintro w action t ⟨hcarried, hissuing⟩ h _ hstep
  obtain ⟨henabled, rfl⟩ := System.guarded_step_eq_some_iff.mp hstep
  exact h.step hcarried hissuing henabled

/-- In every run of the deployment, an event that is written is for a request that a user has
made: it is for the wallet, the transaction and the amount of the request. A request has its
event written at most once, whatever actors and nodes take themselves for its owner, and the
tables have no other events. -/
theorem writes_once (hw : (deployment clientCfg nodeCfg).ReachableIf World.InSequence w) :
    (∀ key, ∀ row ∈ w.written key, ∃ machineID, ∃ env ∈ (w.gateway machineID).begun,
      actorKey env = key ∧ row.txID = env.txId ∧
        row.deltaAmount = BusinessActor.decodeAmount env.payload) ∧
    (∀ key, ((w.written key).map EventRow.txID).Nodup) ∧
    (∀ key other, ∀ row ∈ w.written key, ∀ row' ∈ w.written other, row.txID = row'.txID →
      key = other) ∧
    ∀ key, (w.db.wallet key).events ⊆ w.written key := by
  have hissuing := issuing_of_reachable hw
  have hcarried := carried_of_reachable hw
  have h := recorded_of_reachable hw
  refine ⟨fun key row hrow => ?_, h.once, fun key other row hrow row' hrow' htxID => ?_, h.stored⟩
  · obtain ⟨stream, env, henv, hrest⟩ := h.origin key row hrow
    exact ⟨stream.1, env, hissuing.begun (hcarried.sent_of_received henv), hrest⟩
  · obtain ⟨_, env, henv, rfl, htxId, _⟩ := h.origin key row hrow
    obtain ⟨_, env', henv', rfl, htxId', _⟩ := h.origin other row' hrow'
    rw [hcarried.eq_of_txId hissuing henv henv' (htxId.symm.trans (htxID.trans htxId'))]

/-- The node crashes once it has answered. -/
def crashed : List WorldAction := transferred ++ [.crash "node-a"]

theorem writes_once_crashed :
    ((standard.after crashed).written ⟨1, 42⟩).map EventRow.txID = ["281474976710657"] ∧
      ∀ key, ((standard.after crashed).written key).map EventRow.txID = ["281474976710657"] →
        key = ⟨1, 42⟩ := by
  have hreachable : standard.ReachableIf World.InSequence (standard.after crashed) :=
    System.reachableIf_of_admits (by decide +kernel)
  have hwritten : ((standard.after crashed).written ⟨1, 42⟩).map EventRow.txID =
      ["281474976710657"] := by decide +kernel
  refine ⟨hwritten, fun key hkey => ?_⟩
  obtain ⟨row, hrow, htxID⟩ :=
    List.mem_map.mp (hkey ▸ List.mem_singleton_self "281474976710657")
  obtain ⟨row', hrow', htxID'⟩ :=
    List.mem_map.mp (hwritten ▸ List.mem_singleton_self "281474976710657")
  exact (writes_once hreachable).2.2.1 key ⟨1, 42⟩ row hrow row' hrow' (htxID.trans htxID'.symm)

end ActorCluster.Deployment
