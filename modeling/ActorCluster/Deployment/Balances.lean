import ActorCluster.Deployment.Acknowledgement
import ActorCluster.Deployment.Wallets
import ActorCluster.Wallet.Solvency

/-! # The balances that a gateway reports

An answer with 200 may bring a balance. If a rehydration begins only when no node serves the
wallet, that balance is the sum of the events of the wallet up to the event of the request, and
those events stay where they are. So the answers are those of a single log: a request that is
made after another one was answered comes later in the table, and its balance includes the
other's amount.
-/

namespace ActorCluster.Wallet

open Transition

variable {tenantID : Int32} {uid : Int64} {maxRows : Nat} {s t : WalletRun}
variable {ledger : Ledger EventRow} {rows : List EventRow}

/-- The rows are first in the table, now and in what follows. -/
def Kept (tenantID : Int32) (uid : Int64) (maxRows : Nat) (s : WalletRun) (rows : List EventRow) :
    Prop :=
  ∀ t, (wallet tenantID uid).RunIf (Fits maxRows) s t → rows <+: t.store.events

theorem Kept.later (h : Kept tenantID uid maxRows s rows)
    (hrun : (wallet tenantID uid).RunIf (Fits maxRows) s t) : Kept tenantID uid maxRows t rows :=
  fun u hu => h u (hrun.trans hu)

/-- Settled rows stay. -/
theorem Tracks.kept (hmax : maxRows < 2 ^ 63) (h : Tracks maxRows s ledger)
    (hrows : rows <+: ledger.settled) : Kept tenantID uid maxRows s rows := by
  intro t hrun
  obtain ⟨later, hsteps, hlater⟩ := h.run hmax hrun
  rw [hlater.backs.events]
  exact hrows.trans ((Ledger.settled_prefix_of_steps hsteps).trans later.settled_prefix_rows)

/-- The row at the version of the actor is the last settled one. -/
theorem Tracks.settled_eq (h : Tracks maxRows s ledger) {b : BusinessActor}
    (hphase : s.phase = .live b) {row : EventRow} (hrow : row ∈ s.store.events)
    (hversion : row.version = b.version) : ∃ earlier, ledger.settled = earlier ++ [row] := by
  have hb : HoldsLedger b ledger := by simpa [hphase, Phase.Tracks] using h.phase
  have hkey : row.key = ledger.settled.length := by
    rw [← hb.version, ← hversion]
    rfl
  have hnumbered := h.backs.numbered
  rw [h.backs.events] at hrow
  rw [Ledger.rows, Partition.Contiguous.append_iff] at hnumbered
  have hsettled : row ∈ ledger.settled := by
    refine (List.mem_append.mp hrow).resolve_right fun htentative => ?_
    have hbound := (hnumbered.2.key_bounds htentative).1
    omega
  obtain ⟨earlier, rest, heq⟩ := List.append_of_mem hsettled
  have hsplit := hnumbered.1
  rw [heq, Partition.Contiguous.append_iff] at hsplit
  have hposition := hsplit.2.1
  rw [hkey, heq, List.length_append, List.length_cons] at hposition
  obtain rfl : rest = [] := List.length_eq_zero_iff.mp (by omega)
  exact ⟨earlier, heq⟩

/-- The rows end with the event of the transaction, and a balance is their sum. -/
structure Closes (rows : List EventRow) (txID : String) (amount : Int64)
    (balance : Option Int64) : Prop where
  last : ∃ earlier row, rows = earlier ++ [row] ∧ row.txID = txID ∧ row.deltaAmount = amount
  sum : ∀ x, balance = some x → x.toInt = total rows

end ActorCluster.Wallet

namespace ActorCluster.Deployment

open Remote Wallet Transition Client Node ActorCluster.Runtime

variable {clientCfg : MachineID → Client.Config} {nodeCfg : String → Node.Config} {maxRows : Nat}
variable {w : World} {runs later : ActorKey → WalletRun}

theorem reported_encodeBalance (b : BusinessActor) : reported b.encodeBalance = some b.balance := by
  simp [reported, BusinessActor.encodeBalance]

namespace World

/-- The events up to that of the request are kept, and a balance in the payload is their sum. -/
def Answers (maxRows : Nat) (runs : ActorKey → WalletRun) (env : RemoteEnvelope)
    (payload : List UInt8) : Prop :=
  ∃ rows, Kept env.tenantId env.uid maxRows (runs (actorKey env)) rows ∧
    Closes rows env.txId (BusinessActor.decodeAmount env.payload) (reported payload)

/-- A result that reports success answers a request that was received. -/
def Truthful (maxRows : Nat) (runs : ActorKey → WalletRun) (w : World) (res : RemoteResult) :
    Prop :=
  res.success = true → ∃ stream, ∃ env ∈ w.received stream,
    routeKey env = resultKey res ∧ Answers maxRows runs env res.payload

/-- An answer with 200 tells of events that are kept. -/
def Tells (maxRows : Nat) (runs : ActorKey → WalletRun) (response : ExecuteResponse) : Prop :=
  response.status = 200 → ∃ rows, Kept 1 response.uid maxRows (runs ⟨1, response.uid⟩) rows ∧
    Closes rows response.requestID response.amount response.balance

theorem Truthful.step {res : RemoteResult} (h : w.Truthful maxRows runs res)
    (hruns : Continues maxRows runs later) (action : WorldAction) :
    (w.apply clientCfg nodeCfg action).Truthful maxRows later res := by
  intro hsuccess
  obtain ⟨stream, env, henv, hkey, rows, hkept, hcloses⟩ := h hsuccess
  exact ⟨stream, env, received_mono action stream henv, hkey, rows,
    hkept.later (hruns (actorKey env)), hcloses⟩

theorem Tells.mono {response : ExecuteResponse} (h : Tells maxRows runs response)
    (hruns : Continues maxRows runs later) : Tells maxRows later response := by
  intro hstatus
  obtain ⟨rows, hkept, hcloses⟩ := h hstatus
  exact ⟨rows, hkept.later (hruns ⟨1, response.uid⟩), hcloses⟩

namespace Separate

variable {key : ActorKey} {ip : String} {a : Nat}

/-- The actor in charge holds the ledger of the wallet, which is solvent. -/
theorem ledger (hmax : maxRows < 2 ^ 63) (h : w.Separate maxRows runs) (hlive : w.Live key ip a) :
    ∃ ledger b, Tracks maxRows (runs key) ledger ∧ Solvent ledger.settled ∧
      (runs key).phase = .live b ∧ HoldsLedger b ledger ∧
      b.version = ((w.node ip).actor a).state.version ∧
      b.balance = ((w.node ip).actor a).state.balance ∧
      b.txCache = ((w.node ip).actor a).state.txCache := by
  obtain ⟨ledger, htracks, hsolvent⟩ := solvent_of_reachable hmax (h.reachable key)
  obtain ⟨b, now, hphase, hstate⟩ := (h.presents key).live ip a hlive
  have hb : HoldsLedger b ledger := by simpa [hphase, Phase.Tracks] using htracks.phase
  rw [hstate]
  exact ⟨ledger, b, htracks, hsolvent.of_prefix ledger.settled_prefix_rows, hphase, hb, rfl, rfl,
    rfl⟩

/-- The row at the version of the actor is kept, and the balance of the actor is the sum up to
it. -/
theorem closes_newest (hmax : maxRows < 2 ^ 63) (h : w.Separate maxRows runs)
    (hlive : w.Live key ip a) {row : EventRow} (hrow : row ∈ (w.db.wallet key).events)
    (hversion : row.version = ((w.node ip).actor a).state.version) :
    ∃ rows, Kept key.tenantID key.uid maxRows (runs key) rows ∧
      Closes rows row.txID row.deltaAmount (some ((w.node ip).actor a).state.balance) := by
  obtain ⟨ledger, b, htracks, hsolvent, hphase, hb, hbversion, hbalance, _⟩ := h.ledger hmax hlive
  rw [← (h.presents key).store] at hrow
  obtain ⟨earlier, heq⟩ := htracks.settled_eq hphase hrow (hversion.trans hbversion.symm)
  refine ⟨ledger.settled, htracks.kept hmax List.prefix_rfl, ⟨earlier, row, heq, rfl, rfl⟩, ?_⟩
  rintro x ⟨⟩
  rw [← hbalance, hb.balance]
  exact hsolvent.toInt_replay

/-- The row that an entry of the cache stands for is kept. -/
theorem closes_cached (hmax : maxRows < 2 ^ 63) (h : w.Separate maxRows runs)
    (hlive : w.Live key ip a) {txID : String}
    (hcached : txID ∈ ((w.node ip).actor a).state.txCache) :
    ∃ row ∈ (w.db.wallet key).events, row.txID = txID ∧
      ∃ rows, Kept key.tenantID key.uid maxRows (runs key) rows ∧
        Closes rows txID row.deltaAmount none := by
  obtain ⟨ledger, b, htracks, _, _, hb, _, _, hcache⟩ := h.ledger hmax hlive
  rw [← hcache] at hcached
  obtain ⟨row, hrow, rfl⟩ := List.mem_map.mp (hb.cached txID hcached)
  obtain ⟨earlier, rest, heq⟩ := List.append_of_mem hrow
  have hfirst : earlier ++ [row] <+: ledger.settled := ⟨rest, by rw [heq]; simp⟩
  refine ⟨row, ?_, rfl, earlier ++ [row], htracks.kept hmax hfirst, ⟨earlier, row, rfl, rfl, rfl⟩,
    fun x hx => (nomatch hx)⟩
  rw [← (h.presents key).store, htracks.backs.events]
  exact ledger.settled_prefix_rows.subset hrow

end Separate

/-- An execution that reports success tells of events that are kept. -/
theorem truthful_execute (hmax : maxRows < 2 ^ 63) (hr : w.Recorded) (hc : w.Carried)
    (hw : w.Issuing) (hs : w.Separate maxRows runs) {ip : String} {a : Nat} {env : RemoteEnvelope}
    {now : Int} {outcome : WriteOutcome}
    (henabled : w.enabled clientCfg nodeCfg (.node ip (.execute a env now outcome)) = true)
    (hruns : Continues maxRows runs later)
    (hafter : (w.apply clientCfg nodeCfg (.node ip (.execute a env now outcome))).Separate maxRows
      later) :
    (w.apply clientCfg nodeCfg (.node ip (.execute a env now outcome))).Truthful maxRows later
      (completeResult (((w.node ip).actor a).state.handle
        (w.db.wallet ((w.node ip).actor a).key) env now outcome).result env) := by
  intro hsuccess
  have hstep := NodeStep.of_node henabled
  have hloop : ((w.node ip).actor a).loop = .execute env now := of_decide_eq_true hstep.enabled
  have haddressed := (hc.served ip).wellformed.addressed a
  have henv : actorKey env = ((w.node ip).actor a).key :=
    haddressed.inHand env (by rw [hloop]; rfl)
  obtain ⟨sender, harrived⟩ := (hr.founded ip).arrived_of_execute hloop
  obtain ⟨stream, _, hreceived⟩ := hc.arrived ip env sender harrived
  refine ⟨stream, env, hreceived, (resultKey_execute haddressed henv _ now outcome).symm, ?_⟩
  rcases success_execute hsuccess with ⟨hadmits, rfl⟩ | hcached
  · obtain ⟨hstore, hcommitted⟩ := BusinessActor.handle_of_applied
      (w.db.wallet ((w.node ip).actor a).key) now hadmits
    obtain ⟨hlive, hstate⟩ := hstep.actor_execute (hs.wellformed ip)
    have hevent : ((w.node ip).actor a).state.eventRow env now ∈
        ((w.apply clientCfg nodeCfg (.node ip (.execute a env now .applied))).db.wallet
          ((w.node ip).actor a).key).events := by
      rw [hstep.db]
      simp only [Database.apply, Database.execute, Function.update_self, hstore]
      exact Partition.mem_insertRow_self _ _
    obtain ⟨rows, hkept, hcloses⟩ := hafter.closes_newest hmax hlive hevent
      (by rw [hstate, hcommitted.version]; rfl)
    rw [← henv] at hkept
    refine ⟨rows, hkept, ?_⟩
    have hpayload : reported (completeResult (((w.node ip).actor a).state.handle
        (w.db.wallet ((w.node ip).actor a).key) env now .applied).result env).payload =
        some (((w.apply clientCfg nodeCfg (.node ip (.execute a env now .applied))).node ip).actor
          a).state.balance := by
      rw [hstate, ← reported_encodeBalance, ← hcommitted.payload]
      rfl
    rw [hpayload]
    exact hcloses
  · obtain ⟨row, hrow, htxID, rows, hkept, hcloses⟩ :=
      hs.closes_cached hmax (hstep.live_of_execute (hs.wellformed ip)) hcached
    -- the event that the cache stands for is that of the same request
    obtain ⟨source, env', henv', _, htxId', hamount⟩ := hr.origin _ row (hr.stored _ row hrow)
    obtain rfl := hc.eq_of_txId hw henv' hreceived (htxId'.symm.trans htxID)
    rw [← henv] at hkept
    refine ⟨rows, hkept.later (hruns (actorKey env')), ?_⟩
    rw [hamount] at hcloses
    rw [BusinessActor.handle_of_cached _ now outcome hcached]
    exact hcloses

/-- What the nodes make is truthful. -/
theorem makes_truthful (hmax : maxRows < 2 ^ 63) (hr : w.Recorded) (hc : w.Carried)
    (hw : w.Issuing) (hs : w.Separate maxRows runs) {action : WorldAction}
    (henabled : w.enabled clientCfg nodeCfg action = true)
    (hruns : Continues maxRows runs later)
    (hafter : (w.apply clientCfg nodeCfg action).Separate maxRows later) :
    w.Makes clientCfg nodeCfg action
      ((w.apply clientCfg nodeCfg action).Truthful maxRows later) := by
  refine makes_of_node fun ip action' haction res hres => ?_
  subst haction
  rcases NodeState.produced_back (hr.founded ip).refusals (of_enabled_node henabled).2 hres with
    hold | hfailure | ⟨a, env, now, outcome, rfl, rfl⟩
  · exact .inl hold
  · exact .inr fun hsuccess => absurd (hfailure.symm.trans hsuccess) Bool.false_ne_true
  · exact .inr (truthful_execute hmax hr hc hw hs henabled hruns hafter)

/-- An answer that reports a truthful result is right. -/
theorem tells_of_truthful (hresults : w.Conveyed (w.Truthful maxRows runs)) (hc : w.Carried)
    (hw : w.Issuing) {machineID : MachineID} {req : ExecuteRequest} {reqID : UInt64}
    {res : RemoteResult} {ch : Nat}
    (hbegun : (Job.execute req).envelope reqID ∈ (w.gateway machineID).begun)
    (hres : (w.gateway machineID).client.respCh ch = some res) (hid : res.requestId = reqID) :
    Tells maxRows runs (executeResponse req reqID res) := by
  intro hstatus
  obtain ⟨stream, env, henv, hkey, rows, hkept, hcloses⟩ :=
    hresults.held machineID ch res hres (success_of_status hstatus)
  obtain rfl := eq_of_resultKey hc hw henv hkey hbegun hid
  rw [decodeAmount_envelope] at hcloses
  exact ⟨rows, hkept, hcloses⟩

/-- The wallets have the runs, and all results and answers are right about them. -/
structure Honest (maxRows : Nat) (w : World) (runs : ActorKey → WalletRun) : Prop where
  separate : w.Separate maxRows runs
  results : w.Conveyed (w.Truthful maxRows runs)
  responses : ∀ machineID, ∀ response ∈ (w.gateway machineID).responses,
    Tells maxRows runs response

theorem honest_newWorld (maxRows : Nat) :
    newWorld.Honest maxRows fun key => (wallet key.tenantID key.uid).init where
  separate := separate_newWorld maxRows
  results := conveyed_newWorld _
  responses _ _ h := by cases h

theorem Honest.step (hmax : maxRows < 2 ^ 63) (h : w.Honest maxRows runs) (hr : w.Recorded)
    (hc : w.Carried) (hw : w.Issuing) {action : WorldAction} (halone : w.Alone maxRows action)
    (henabled : w.enabled clientCfg nodeCfg action = true) :
    ∃ later, Continues maxRows runs later ∧
      (w.apply clientCfg nodeCfg action).Honest maxRows later := by
  obtain ⟨later, hruns, hafter⟩ := h.separate.step halone henabled
  refine ⟨later, hruns, hafter, ?_, ?_⟩
  · refine (h.results.mono fun res hres => hres.step hruns action).step hr hc hw ?_ henabled
      (makes_truthful hmax hr hc hw h.separate henabled hruns hafter)
    exact fun _ _ _ hsuccess => absurd hsuccess Bool.false_ne_true
  · refine responses_step (fun m response hresponse => ?_) ?_
    · exact (h.responses m response hresponse).mono hruns
    · rintro m action' rfl response hresponse
      simp only [enabled, Bool.and_eq_true] at henabled
      rcases response_back hw henabled.1 hresponse with
        hold | ⟨req, reqID, res, rfl, hbegun, ⟨ch, hres, hid⟩ | ⟨hfailure, _⟩⟩
      · exact (h.responses m response hold).mono hruns
      · exact (tells_of_truthful h.results hc hw hbegun hres hid).mono hruns
      · exact fun hstatus =>
          absurd (hfailure.symm.trans (success_of_status hstatus)) Bool.false_ne_true

end World

theorem known_of_reachable (hw : (deployment clientCfg nodeCfg).ReachableIf
    (World.Orderly maxRows) w) : w.Recorded ∧ w.Carried ∧ w.Issuing := by
  have hsequence : (deployment clientCfg nodeCfg).ReachableIf World.InSequence w :=
    hw.mono fun _ _ h => h.1
  exact ⟨recorded_of_reachable hsequence, carried_of_reachable hsequence,
    issuing_of_reachable hsequence⟩

/-- A run of the deployment continues the runs of the wallets. -/
theorem World.Honest.run (hmax : maxRows < 2 ^ 63) (h : w.Honest maxRows runs)
    (hw : (deployment clientCfg nodeCfg).ReachableIf (World.Orderly maxRows) w) {w' : World}
    (hrun : (deployment clientCfg nodeCfg).RunIf (World.Orderly maxRows) w w') :
    ∃ later, World.Continues maxRows runs later ∧ w'.Honest maxRows later := by
  induction hrun with
  | refl => exact ⟨runs, fun _ => .refl, h⟩
  | tail hfirst hlast ih =>
      obtain ⟨middle, hmiddle, hhonest⟩ := ih
      obtain ⟨action, horderly, hstep⟩ := hlast
      obtain ⟨henabled, rfl⟩ := System.guarded_step_eq_some_iff.mp hstep
      obtain ⟨hr, hc, hi⟩ := known_of_reachable (hw.trans hfirst)
      obtain ⟨later, hlater, hafter⟩ := hhonest.step hmax hr hc hi horderly.2 henabled
      exact ⟨later, fun key => (hmiddle key).trans (hlater key), hafter⟩

theorem honest_of_reachable (hmax : maxRows < 2 ^ 63)
    (hw : (deployment clientCfg nodeCfg).ReachableIf (World.Orderly maxRows) w) :
    ∃ runs, w.Honest maxRows runs := by
  obtain ⟨runs, _, h⟩ := (World.honest_newWorld maxRows).run hmax .refl hw
  exact ⟨runs, h⟩

/-- Kept rows are in the table. -/
theorem World.Honest.prefix_events (h : w.Honest maxRows runs) {key : ActorKey}
    {rows : List EventRow} (hkept : Kept key.tenantID key.uid maxRows (runs key) rows) :
    rows <+: (w.db.wallet key).events := by
  rw [← (h.separate.presents key).store]
  exact hkept _ .refl

/-- If a rehydration begins only when no node serves the wallet, then in every run of the
deployment, whenever `handleExecute` has answered a user with 200, the table of the wallet has
the event that was asked for, and the balance in the answer is the sum of the events up to that
one. -/
theorem balance_told (hmax : maxRows < 2 ^ 63)
    (hw : (deployment clientCfg nodeCfg).ReachableIf (World.Orderly maxRows) w)
    {machineID : MachineID} {response : ExecuteResponse}
    (hresponse : response ∈ (w.gateway machineID).responses) (hstatus : response.status = 200) :
    ∃ rows, rows <+: (w.db.wallet ⟨1, response.uid⟩).events ∧
      Closes rows response.requestID response.amount response.balance := by
  obtain ⟨runs, h⟩ := honest_of_reachable hmax hw
  obtain ⟨rows, hkept, hcloses⟩ := h.responses machineID response hresponse hstatus
  exact ⟨rows, h.prefix_events hkept, hcloses⟩

theorem reachable_answered :
    standard.ReachableIf (World.Orderly 1000) (standard.after answered) :=
  reachable_transferred.append_of_admits World.orderly_of_checked (by decide +kernel)

theorem balance_told_answered :
    ∃ rows, rows <+: ((standard.after answered).db.wallet ⟨1, 42⟩).events ∧
      Closes rows "281474976710657" 100 (some 100) ∧ total rows = 100 := by
  have hresponses : ((standard.after answered).gateway transferGateway).responses =
      [transferResponse] := by decide +kernel
  obtain ⟨rows, hrows, hcloses⟩ := balance_told (by decide) reachable_answered
    (hresponses ▸ List.mem_singleton_self transferResponse) rfl
  exact ⟨rows, hrows, hcloses, (hcloses.sum 100 rfl).symm⟩

/-- In such a run, a request that is made after another one was answered comes later in the
table, and the balance in its answer is a sum that goes on from the other's. -/
theorem answers_in_real_time (hmax : maxRows < 2 ^ 63)
    (hw : (deployment clientCfg nodeCfg).ReachableIf (World.Orderly maxRows) w) {w' : World}
    (hrun : (deployment clientCfg nodeCfg).RunIf (World.Orderly maxRows) w w')
    {first second : MachineID} {response response' : ExecuteResponse}
    (hresponse : response ∈ (w.gateway first).responses) (hstatus : response.status = 200)
    (hnew : ∀ machineID, ∀ env ∈ (w.gateway machineID).begun, env.txId ≠ response'.requestID)
    (hresponse' : response' ∈ (w'.gateway second).responses) (hstatus' : response'.status = 200)
    (huid : response'.uid = response.uid) :
    ∃ rows between, between ≠ [] ∧
      rows ++ between <+: (w'.db.wallet ⟨1, response.uid⟩).events ∧
      Closes rows response.requestID response.amount response.balance ∧
      Closes (rows ++ between) response'.requestID response'.amount response'.balance := by
  obtain ⟨hr, hc, hi⟩ := known_of_reachable hw
  obtain ⟨runs, h⟩ := honest_of_reachable hmax hw
  obtain ⟨later, hlater, h'⟩ := h.run hmax hw hrun
  obtain ⟨rows, hkept, hcloses⟩ := h.responses first response hresponse hstatus
  obtain ⟨rows', hkept', hcloses'⟩ := h'.responses second response' hresponse' hstatus'
  rw [huid] at hkept'
  have hbefore : rows <+: (w.db.wallet ⟨1, response.uid⟩).events := h.prefix_events hkept
  have hstill : Kept 1 response.uid maxRows (later ⟨1, response.uid⟩) rows :=
    hkept.later (hlater ⟨1, response.uid⟩)
  have hafter : rows <+: (w'.db.wallet ⟨1, response.uid⟩).events := h'.prefix_events hstill
  have hafter' : rows' <+: (w'.db.wallet ⟨1, response.uid⟩).events := h'.prefix_events hkept'
  obtain ⟨earlier, row, rfl, htxID, hamount⟩ := hcloses'.last
  -- the event of the new request was not there when the other one was answered
  have hfresh : row ∉ rows := by
    intro hrow
    obtain ⟨stream, env, henv, _, htxId, _⟩ :=
      hr.origin _ row (hr.stored _ row (hbefore.subset hrow))
    exact hnew stream.1 env (hi.begun (hc.sent_of_received henv)) (htxId.symm.trans htxID)
  have hle : rows <+: earlier ++ [row] := by
    rcases List.prefix_or_prefix_of_prefix hafter hafter' with hle | hge
    · exact hle
    · exact absurd (hge.subset (List.mem_append_right _ (List.mem_singleton_self row))) hfresh
  obtain ⟨between, heq⟩ := hle
  refine ⟨rows, between, ?_, heq ▸ hafter', hcloses, heq ▸ hcloses'⟩
  rintro rfl
  rw [List.append_nil] at heq
  exact hfresh (heq ▸ List.mem_append_right _ (List.mem_singleton_self row))

/-! The other gateway makes the same transfer. -/

def resubmission : List GatewayAction := opening 0 againCall 0

def againResult : RemoteResult :=
  { transferResult with txId := "1", requestId := 1, payload := [0, 0, 0, 0, 0, 0, 0, 200] }

/-- The actor of the first transfer executes the second one. -/
def reexecution : List Node.Action :=
  [.flushEnd false] ++ inquiring 0 againServed "node-a" ++ [.lookup 0 againServed] ++
    handing 0 againServed 0 ++ executing 0 againEnvelope ⟨againResult, 0⟩

def rereception : List GatewayAction :=
  [.client (.recv 0 [againResult]), .client (.tally 0 againResult []),
    .client (.demux 0 againResult []), .client (.deliver 0 againResult 0 []),
    .client (.receive 0 againEnvelope 0 againResult)]

def repeating : List WorldAction :=
  resubmission.map (.gateway againGateway) ++
    [.accept "node-a" (againGateway, 0) [againEnvelope]] ++ reexecution.map (.node "node-a") ++
    rereception.map (.gateway againGateway)

def againResponse : ExecuteResponse :=
  { transferResponse with requestID := "1", balance := some 200 }

theorem answers_in_real_time_repeating :
    ∃ rows between, between ≠ [] ∧
      rows ++ between <+: ((standard.after (answered ++ repeating)).db.wallet ⟨1, 42⟩).events ∧
      total rows = 100 ∧ total (rows ++ between) = 200 := by
  have hexec : standard.exec (standard.after answered) repeating =
      some (standard.after (answered ++ repeating)) := System.exec_after (by decide +kernel)
  have hchecked : standard.RunIf (World.Checked 1000) (standard.after answered)
      (standard.after (answered ++ repeating)) :=
    System.runIf_of_admits (by decide +kernel) hexec
  have hfirst : transferResponse ∈
      ((standard.after answered).gateway transferGateway).responses := by decide +kernel
  have hsecond : againResponse ∈
      ((standard.after (answered ++ repeating)).gateway againGateway).responses := by
    decide +kernel
  have hwithin : standard.ReachableIf
      (fun _ action => action.within [transferGateway] ["node-a"] = true)
      (standard.after answered) :=
    System.reachableIf_of_admits (by decide +kernel)
  have hbegun : ((standard.after answered).gateway transferGateway).begun =
      [transferEnvelope] := by decide +kernel
  -- nobody has made the second request yet
  have hnew (machineID : MachineID) (env : RemoteEnvelope)
      (henv : env ∈ ((standard.after answered).gateway machineID).begun) :
      env.txId ≠ againResponse.requestID := by
    by_cases hmachine : machineID = transferGateway
    · rw [hmachine, hbegun, List.mem_singleton] at henv
      rw [henv]
      decide +kernel
    · rw [(untouched_of_within hwithin).1 machineID (by simpa using hmachine)] at henv
      cases henv
  obtain ⟨rows, between, hne, hrows, hcloses, hcloses'⟩ := answers_in_real_time (by decide)
    reachable_answered (hchecked.mono World.orderly_of_checked) hfirst rfl hnew hsecond rfl rfl
  exact ⟨rows, between, hne, hrows, (hcloses.sum 100 rfl).symm, (hcloses'.sum 200 rfl).symm⟩

end ActorCluster.Deployment
