import ActorCluster.Node.Decisions
import ActorCluster.Node.SoleWriter
import ActorCluster.Node.Tracks

/-! # Isolation of wallets

The view of a wallet is computed from the wallet's own steps, and it agrees with the
node in every run. So two runs with the same decisive steps of a wallet write the same
rows and decide on the same results for it, whatever else happens in them. The order in
which the results are put on the channel follows from all of the wallet's steps.
-/

namespace ActorCluster.Node

open Remote Wallet Transition

theorem Observer.foreign {key : ActorKey} {r : NodeRun} {action : Action}
    (hforeign : action.wallet r.node ≠ some key) (o : Observer) :
    o.ownStep key r (.act action) = none ∧ o.next key r (.act action) = o := by
  cases action with
  | next | owner | loadSnapshot | loadEvents | route | unroute | push | spawn | execute | emit
  | deliver | answer | drainPush =>
      simp only [Action.wallet, ne_eq, Option.some.injEq] at hforeign
      simp [Observer.ownStep, Observer.next, hforeign]
  | _ => exact ⟨rfl, rfl⟩

section Step

variable {cfg : Config} {key : ActorKey} {o : Observer} {r : NodeRun} {w : WalletView}

/-- The view follows the steps of the wallet. -/
theorem Tracks.own (h : Tracks key o r w) (ho : Orderly r.node) {action : Action}
    (henabled : r.node.enabled cfg action = true) (hown : action.wallet r.node = some key) :
    Tracks key (o.next key r (.act action)) (r.apply cfg (.act action))
      ((o.ownStep key r (.act action)).elim w (w.step cfg key)) := by
  obtain ⟨n, db⟩ := r
  cases action with
  | next p sender env rest =>
      have hkey : actorKey env = key := Option.some.inj hown
      simp only [Observer.ownStep, Observer.next, if_pos hkey, Option.elim_some]
      exact h.next
  | owner p call answer =>
      have hkey : call.key = key := Option.some.inj hown
      have hp : n.thread p = .serving call .owner ∧ answer.isSome = cfg.resolver := by
        simpa [NodeState.enabled] using henabled
      simp only [Observer.ownStep, Observer.next, if_pos hkey, Option.elim_some]
      exact h.owner hkey hp.1
  | loadSnapshot p call now closeErr =>
      have hkey : call.key = key := Option.some.inj hown
      simp only [Observer.ownStep, Observer.next, if_pos hkey, Option.elim_some]
      exact h.loadSnapshot hkey (by simpa [NodeState.enabled] using henabled)
  | loadEvents p call now snapshot closeErr =>
      have hkey : call.key = key := Option.some.inj hown
      simp only [Observer.ownStep, Observer.next, if_pos hkey, Option.elim_some]
      exact h.loadEvents ho hkey (by simpa [NodeState.enabled] using henabled)
  | route p call a =>
      have hkey : call.key = key := Option.some.inj hown
      simp only [Observer.ownStep, Observer.next, if_pos hkey, Option.elim_some]
      exact h.route hkey (by simpa [NodeState.enabled] using henabled)
  | unroute p call a =>
      have hkey : call.key = key := Option.some.inj hown
      simp only [Observer.ownStep, Observer.next, if_pos hkey, Option.elim_some]
      exact h.unroute hkey (by simpa [NodeState.enabled] using henabled)
  | push p sender rest res =>
      have hkey : resultWallet res = key := Option.some.inj hown
      have hp : n.thread p = .push sender rest res ∧ n.hasRoom = true := by
        simpa [NodeState.enabled] using henabled
      simp only [Observer.ownStep, Observer.next, if_pos hkey, Option.elim_some]
      exact h.push hkey hp.1
  | spawn p call a =>
      have hkey : call.key = key := Option.some.inj hown
      simp only [Observer.ownStep, Observer.next, if_pos hkey, Option.elim_some]
      exact h.spawn hkey (by simpa [NodeState.enabled] using henabled)
  | execute a env now outcome =>
      have hkey : (n.actor a).key = key := Option.some.inj hown
      simp only [Observer.ownStep, Observer.next, if_pos hkey, Option.elim_some]
      exact h.execute ho hkey (by simpa [NodeState.enabled] using henabled)
  | emit a res =>
      have hkey : (n.actor a).key = key := Option.some.inj hown
      simp only [Observer.ownStep, Observer.next, if_pos hkey, Option.elim_some]
      exact h.emit ho hkey (by simpa [NodeState.enabled] using henabled)
  | deliver a queued =>
      have hkey : (n.actor a).key = key := Option.some.inj hown
      simp only [Observer.ownStep, Observer.next, if_pos hkey, Option.elim_some]
      exact h.deliver ho hkey henabled
  | answer d a env envs =>
      have hkey : (n.actor a).key = key := Option.some.inj hown
      simp only [Observer.ownStep, Observer.next, if_pos hkey, Option.elim_some]
      exact h.answer ho hkey (by simpa [NodeState.enabled] using henabled)
  | drainPush d a env reply envs =>
      have hkey : (n.actor a).key = key := Option.some.inj hown
      have hd : n.drain d = .push a env reply envs ∧ n.hasRoom = true := by
        simpa [NodeState.enabled] using henabled
      simp only [Observer.ownStep, Observer.next, if_pos hkey, Option.elim_some]
      exact h.drainPush ho hkey hd.1
  | _ => cases hown

/-- Every step is a step of the wallet, which the view follows, or leaves the view
as it is. -/
theorem Tracks.step (h : Tracks key o r w) (ho : Orderly r.node) {event : Event}
    (henabled : r.enabled cfg event = true) :
    Tracks key (o.next key r event) (r.apply cfg event)
      ((o.ownStep key r event).elim w (w.step cfg key)) := by
  cases event with
  | act action =>
      by_cases hown : action.wallet r.node = some key
      · exact h.own ho henabled hown
      · obtain ⟨hstep, hnext⟩ := Observer.foreign hown o
        rw [hstep, hnext]
        exact h.foreign ho henabled hown
  | land key' snapshot =>
      by_cases hkey : key' = key
      · subst hkey
        simp only [Observer.ownStep, Observer.next, if_true, Option.elim_some]
        exact h.land (by simpa [NodeRun.enabled] using henabled)
      · simp only [Observer.ownStep, Observer.next, if_neg hkey, Option.elim_none]
        refine ⟨h.store.trans ?_, h.inFlight, h.routes, h.put, h.calls, h.call, h.actors, h.actor,
          h.drains, h.drain⟩
        exact congrArg WalletStore.undated (Function.update_of_ne (Ne.symm hkey) _ _).symm

theorem WalletView.run_append (own : Option OwnStep) (steps : List OwnStep) :
    w.run cfg key (own.toList ++ steps) = (own.elim w (w.step cfg key)).run cfg key steps := by
  cases own <;> rfl

theorem Orderly.next (ho : Orderly r.node) {event : Event} (hguard : Unloaded cfg r event)
    (henabled : r.enabled cfg event = true) : Orderly (r.apply cfg event).node := by
  cases event with
  | act action => exact ho.step hguard henabled
  | land => exact ho

/-- The view agrees with the node in every run. -/
theorem Tracks.path {r' : NodeRun} {events : List Event}
    (hpath : (node cfg).Path (Unloaded cfg) r events r') (h : Tracks key o r w)
    (ho : Orderly r.node) :
    ∃ o', Tracks key o' r' (w.run cfg key (ownSteps cfg key o r events)) := by
  induction hpath generalizing o w with
  | nil => exact ⟨o, h⟩
  | cons hguard hstep _ ih =>
      obtain ⟨henabled, rfl⟩ := System.guarded_step_eq_some_iff.mp hstep
      obtain ⟨o', h'⟩ := ih (h.step ho henabled) (ho.next hguard henabled)
      refine ⟨o', ?_⟩
      rw [ownSteps, WalletView.run_append]
      exact h'

/-- The rows of the wallet are those after its decisive steps, and each result that the
node has put on the channel for it is one of the decisions. -/
theorem Tracks.decided {db : Database} {steps : List OwnStep}
    (h : Tracks key o r
      ((WalletView.start (db.wallet key).undated (db.inFlight key)).run cfg key steps)) :
    (r.db.wallet key).undated = ((WalletView.start (db.wallet key).undated (db.inFlight key)).run
        cfg key (steps.filter OwnStep.decisive)).store ∧
      ((r.node.resultsOf key).map QueuedResult.res).Subperm (decisions cfg key db steps) := by
  obtain ⟨hrows, hdecided⟩ : _ ∧ _ = decisions cfg key db steps :=
    WalletView.run_decisive _ steps
  refine ⟨h.store.symm.trans hrows, ?_⟩
  rw [← h.put, ← hdecided]
  exact ((WalletView.Accounted.start _ _).run steps).subperm

end Step

/-- Two runs of a node below its limit that agree on the decisive steps of one wallet write
the same rows to its tables, apart from `created_at`. The results that they put on the
channel are among the same decisions, and they are the same up to their order once every
decision has been put there. If the runs agree on all steps of the wallet, then the
results have the same order and go to the same streams. -/
theorem wallet_isolated {cfg : Config} {key : ActorKey} {db db' : Database}
    {first second : List Event} {r r' : NodeRun}
    (hstore : (db.wallet key).undated = (db'.wallet key).undated)
    (hinFlight : db.inFlight key = db'.inFlight key)
    (hfirst : (node cfg).Path (Unloaded cfg) ⟨newNode, db⟩ first r)
    (hsecond : (node cfg).Path (Unloaded cfg) ⟨newNode, db'⟩ second r')
    (hagree : (ownSteps cfg key .empty ⟨newNode, db⟩ first).filter OwnStep.decisive =
      (ownSteps cfg key .empty ⟨newNode, db'⟩ second).filter OwnStep.decisive) :
    let decided := decisions cfg key db (ownSteps cfg key .empty ⟨newNode, db⟩ first)
    let results := (r.node.resultsOf key).map QueuedResult.res
    let results' := (r'.node.resultsOf key).map QueuedResult.res
    (r.db.wallet key).undated = (r'.db.wallet key).undated ∧
      results.Subperm decided ∧ results'.Subperm decided ∧
      (results.length = decided.length → results'.length = decided.length →
        results.Perm results') ∧
      (ownSteps cfg key .empty ⟨newNode, db⟩ first =
        ownSteps cfg key .empty ⟨newNode, db'⟩ second →
        r.node.resultsOf key = r'.node.resultsOf key) := by
  intro decided results results'
  obtain ⟨o, h⟩ := (tracks_newNode key db).path hfirst orderly_newNode
  obtain ⟨o', h'⟩ := (tracks_newNode key db').path hsecond orderly_newNode
  rw [← hstore, ← hinFlight] at h'
  obtain ⟨hrows, hresults⟩ := h.decided
  obtain ⟨hrows', hresults'⟩ := h'.decided
  have hsame : decisions cfg key db (ownSteps cfg key .empty ⟨newNode, db'⟩ second) = decided := by
    unfold decided decisions
    rw [hagree]
  rw [← hagree] at hrows'
  rw [hsame] at hresults'
  refine ⟨hrows.trans hrows'.symm, hresults, hresults', fun hlength hlength' => ?_, fun hall => ?_⟩
  · exact (hresults.perm_of_length_le hlength.ge).trans
      (hresults'.perm_of_length_le hlength'.ge).symm
  · rw [← hall] at h'
    exact h.put.symm.trans h'.put

/-- A deposit into another wallet of the same shard. -/
def neighbour : RemoteEnvelope := { deposit "9" 9 with tenantId := 2, uid := 41 }

/-- The neighbour's envelope is sent to its actor, and the rest of the batch follows. -/
def sending (env : RemoteEnvelope) (rest : List RemoteEnvelope) (now : Int) (a : Nat) :
    List Event :=
  [.act (.next 3 0 env rest), .act (.owner 3 ⟨0, env, rest⟩ (some (.ok "node-a"))),
    .act (.lookup 3 ⟨0, env, rest⟩), .act (.create 3 ⟨0, env, rest⟩ now),
    .act (.loadSnapshot 3 ⟨0, env, rest⟩ now none),
    .act (.loadEvents 3 ⟨0, env, rest⟩ now ⟨0, 0⟩ none), .act (.route 3 ⟨0, env, rest⟩ a),
    .act (.send 3 ⟨0, env, rest⟩ a), .act (.count 3 ⟨0, env, rest⟩ a),
    .act (.swap 3 ⟨0, env, rest⟩ a), .act (.link 3 ⟨0, env, rest⟩ a),
    .act (.wake 3 ⟨0, env, rest⟩ a)]

/-- The deposit comes last in a batch, after a malformed envelope and one for another
wallet of the same shard. -/
def crowdedRun : List Event :=
  [.act (.arrive 3 0 [{ neighbour with txId := "" }, neighbour, deposit "1" 1]),
    .act (.gate 3 0 [{ neighbour with txId := "" }, neighbour, deposit "1" 1]),
    .act (.next 3 0 { neighbour with txId := "" } [neighbour, deposit "1" 1]),
    .act (.push 3 0 [neighbour, deposit "1" 1]
      (badRequestResult { neighbour with txId := "" }))] ++
  sending neighbour [deposit "1" 1] 5 0 ++ sending (deposit "1" 1) [] 6 1 ++
  [Event.act (.dequeue 0), .act (.uncount 0 neighbour), .act (.handle 0 neighbour 7),
    .act (.dequeue 1), .act (.uncount 1 (deposit "1" 1)), .act (.handle 1 (deposit "1" 1) 8),
    .act (.execute 0 neighbour 7 .applied), .act (.execute 1 (deposit "1" 1) 8 .applied),
    .act (.emit 1 firstResult), .act (.deliver 1 ⟨firstResult, 0⟩)]

/-- Two calls take up a deposit each, one after the other, and refuse it. -/
def anonymousPair : List Event :=
  [.act (.arrive 0 0 [deposit "1" 0]), .act (.gate 0 0 [deposit "1" 0]),
    .act (.arrive 1 1 [deposit "2" 0]), .act (.gate 1 1 [deposit "2" 0]),
    .act (.next 0 0 (deposit "1" 0) []), .act (.next 1 1 (deposit "2" 0) [])]

def refuseFirst : Event := .act (.push 0 0 [] (badRequestResult (deposit "1" 0)))

def refuseSecond : Event := .act (.push 1 1 [] (badRequestResult (deposit "2" 0)))

theorem wallet_isolated_neighbour :
    ((node nodeA).after answeredDeposit).node.resultsOf ⟨1, 42⟩ = [⟨firstResult, 0⟩] ∧
      ((node nodeA).after crowdedRun).node.resultsOf ⟨1, 42⟩ = [⟨firstResult, 0⟩] ∧
      (((node nodeA).after answeredDeposit).db.wallet ⟨1, 42⟩).undated =
        (((node nodeA).after crowdedRun).db.wallet ⟨1, 42⟩).undated ∧
      ((((node nodeA).after (anonymousPair ++ [refuseFirst, refuseSecond])).node.resultsOf
          ⟨1, 42⟩).map QueuedResult.res).Perm
        ((((node nodeA).after (anonymousPair ++ [refuseSecond, refuseFirst])).node.resultsOf
          ⟨1, 42⟩).map QueuedResult.res) := by
  have halone : (node nodeA).Path (Unloaded nodeA) (node nodeA).init answeredDeposit
      ((node nodeA).after answeredDeposit) :=
    System.path_after (by decide +kernel) (by decide +kernel)
  have hcrowded : (node nodeA).Path (Unloaded nodeA) (node nodeA).init crowdedRun
      ((node nodeA).after crowdedRun) :=
    System.path_after (by decide +kernel) (by decide +kernel)
  have hagree : ownSteps nodeA ⟨1, 42⟩ .empty ⟨newNode, .empty⟩ answeredDeposit =
      ownSteps nodeA ⟨1, 42⟩ .empty ⟨newNode, .empty⟩ crowdedRun := by decide +kernel
  obtain ⟨hrows, _, _, _, hsame⟩ := wallet_isolated rfl rfl halone hcrowded (congrArg _ hagree)
  have hresults : ((node nodeA).after answeredDeposit).node.resultsOf ⟨1, 42⟩ =
      [⟨firstResult, 0⟩] := by decide +kernel
  refine ⟨hresults, (hsame hagree).symm.trans hresults, hrows, ?_⟩
  have hfirst : (node nodeA).Path (Unloaded nodeA) (node nodeA).init
      (anonymousPair ++ [refuseFirst, refuseSecond]) _ :=
    System.path_after (by decide +kernel) (by decide +kernel)
  have hsecond : (node nodeA).Path (Unloaded nodeA) (node nodeA).init
      (anonymousPair ++ [refuseSecond, refuseFirst]) _ :=
    System.path_after (by decide +kernel) (by decide +kernel)
  have hdecisive : (ownSteps nodeA ⟨1, 42⟩ .empty ⟨newNode, .empty⟩
        (anonymousPair ++ [refuseFirst, refuseSecond])).filter OwnStep.decisive =
      (ownSteps nodeA ⟨1, 42⟩ .empty ⟨newNode, .empty⟩
        (anonymousPair ++ [refuseSecond, refuseFirst])).filter OwnStep.decisive := by
    decide +kernel
  obtain ⟨_, _, _, hperm, _⟩ := wallet_isolated rfl rfl hfirst hsecond hdecisive
  exact hperm (by decide +kernel) (by decide +kernel)

/-- The decisive steps do not fix the order of the results: either call may be the first
to put its refusal on the channel. -/
theorem refusals_reordered :
    ∃ r r', (node nodeA).Path (Unloaded nodeA) ⟨newNode, .empty⟩
        (anonymousPair ++ [refuseFirst, refuseSecond]) r ∧
      (node nodeA).Path (Unloaded nodeA) ⟨newNode, .empty⟩
        (anonymousPair ++ [refuseSecond, refuseFirst]) r' ∧
      (ownSteps nodeA ⟨1, 42⟩ .empty ⟨newNode, .empty⟩
        (anonymousPair ++ [refuseFirst, refuseSecond])).filter OwnStep.decisive =
      (ownSteps nodeA ⟨1, 42⟩ .empty ⟨newNode, .empty⟩
        (anonymousPair ++ [refuseSecond, refuseFirst])).filter OwnStep.decisive ∧
      (r.node.resultsOf ⟨1, 42⟩).map (fun queued => queued.res.txId) = ["1", "2"] ∧
      (r'.node.resultsOf ⟨1, 42⟩).map (fun queued => queued.res.txId) = ["2", "1"] :=
  ⟨_, _, System.path_after (by decide +kernel) (by decide +kernel),
    System.path_after (by decide +kernel) (by decide +kernel), by decide +kernel,
    by decide +kernel, by decide +kernel⟩

end ActorCluster.Node
