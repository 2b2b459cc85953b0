import ActorCluster.Foundation.Tally
import ActorCluster.Node.WalletView
import Mathlib.Data.List.Perm.Subperm

/-! # What is decided for a wallet

The rows of a wallet and the results that are decided for it depend on its decisive
steps alone. The other steps take the decided results to the channel. Every result that
is put there has been decided, and no decision is put there twice.
-/

namespace ActorCluster.Node

open Remote Wallet

/-! ## The decisive steps -/

def CallView.bare (c : CallView) : CallView := { c with refusal := none }

def ActorView.bare (v : ActorView) : ActorView := { v with result := none, queued := none }

def DrainView.bare (_ : DrainView) : DrainView := ⟨none⟩

namespace WalletView

variable {cfg : Config} {key : ActorKey} {w w' : WalletView}

/-- The wallet without its routes and without the results on their way. -/
def bare (w : WalletView) : WalletView :=
  { w with
    routes := fun _ => none
    put := []
    call := Option.map CallView.bare ∘ w.call
    actor := Option.map ActorView.bare ∘ w.actor
    drain := Option.map DrainView.bare ∘ w.drain }

theorem store_bare (w : WalletView) : w.bare.store = w.store := rfl

theorem bare_setCall (w : WalletView) (i : Nat) (c : CallView) :
    (w.setCall i c).bare = w.bare.setCall i c.bare := by
  simp only [bare, setCall, Function.comp_update, Option.map_some]

theorem bare_addCall (w : WalletView) (c : CallView) :
    (w.addCall c).bare = w.bare.addCall c.bare := by
  simp only [bare, addCall, setCall, Function.comp_update, Option.map_some]

theorem bare_setActor (w : WalletView) (j : Nat) (v : ActorView) :
    (w.setActor j v).bare = w.bare.setActor j v.bare := by
  simp only [bare, setActor, Function.comp_update, Option.map_some]

theorem bare_addActor (w : WalletView) (v : Option ActorView) :
    (w.addActor v).bare = w.bare.addActor (v.map ActorView.bare) := by
  simp only [bare, addActor, Function.comp_update]

theorem bare_setDrain (w : WalletView) (d : Nat) (v : DrainView) :
    (w.setDrain d v).bare = w.bare.setDrain d v.bare := by
  simp only [bare, setDrain, Function.comp_update, Option.map_some]

theorem bare_addDrain (w : WalletView) (v : DrainView) :
    (w.addDrain v).bare = w.bare.addDrain v.bare := by
  simp only [bare, addDrain, setDrain, Function.comp_update, Option.map_some]

theorem bare_decide (w : WalletView) (ress : List RemoteResult) :
    (w.decide ress).bare = w.bare.decide ress := rfl

theorem bare_write (w : WalletView) (store : WalletStore) (launched : List Snapshot) :
    (w.write store launched).bare = w.bare.write store launched := rfl

theorem bare_setRoute (w : WalletView) (reqID : UInt64) (reply : Option BatchSender) :
    (w.setRoute reqID reply).bare = w.bare := rfl

theorem bare_setCall_of_eq {i : Nat} {c c' : CallView} (hc : w.call i = some c)
    (h : c'.bare = c.bare) : (w.setCall i c').bare = w.bare := by
  have hself : w.bare.call i = some c.bare := congrArg (Option.map CallView.bare) hc
  rw [bare_setCall, h, setCall, ← hself, Function.update_eq_self]

theorem bare_setActor_of_eq {j : Nat} {v v' : ActorView} (hv : w.actor j = some v)
    (h : v'.bare = v.bare) : (w.setActor j v').bare = w.bare := by
  have hself : w.bare.actor j = some v.bare := congrArg (Option.map ActorView.bare) hv
  rw [bare_setActor, h, setActor, ← hself, Function.update_eq_self]

theorem bare_setDrain_of_eq {d : Nat} {v v' : DrainView} (hv : w.drain d = some v)
    (h : v'.bare = v.bare) : (w.setDrain d v').bare = w.bare := by
  have hself : w.bare.drain d = some v.bare := congrArg (Option.map DrainView.bare) hv
  rw [bare_setDrain, h, setDrain, ← hself, Function.update_eq_self]

theorem bare_bare (w : WalletView) : w.bare.bare = w.bare := by
  have hcall : Option.map CallView.bare ∘ Option.map CallView.bare ∘ w.call =
      Option.map CallView.bare ∘ w.call :=
    funext fun i => Option.map_map CallView.bare CallView.bare (w.call i)
  have hactor : Option.map ActorView.bare ∘ Option.map ActorView.bare ∘ w.actor =
      Option.map ActorView.bare ∘ w.actor :=
    funext fun j => Option.map_map ActorView.bare ActorView.bare (w.actor j)
  have hdrain : Option.map DrainView.bare ∘ Option.map DrainView.bare ∘ w.drain =
      Option.map DrainView.bare ∘ w.drain :=
    funext fun d => Option.map_map DrainView.bare DrainView.bare (w.drain d)
  simp only [bare, hcall, hactor, hdrain]

/-- The steps that are not decisive change what is on its way. -/
theorem bare_step_of_not_decisive {own : OwnStep} (hown : own.decisive = false) :
    (w.step cfg key own).bare = w.bare := by
  cases own with
  | route i | unroute i =>
      simp only [step]
      cases w.call i <;> rfl
  | refuse i =>
      simp only [step]
      cases hc : w.call i with
      | none => rfl
      | some c => exact bare_setCall_of_eq hc rfl
  | emit j =>
      simp only [step]
      cases hv : w.actor j with
      | none => rfl
      | some v =>
          simp only [Option.elim_some, actorStep]
          cases v.result with
          | none => rfl
          | some res => exact bare_setActor_of_eq (w := w.setRoute res.requestId none) hv rfl
  | deliver j =>
      simp only [step]
      cases hv : w.actor j with
      | none => rfl
      | some v => exact bare_setActor_of_eq hv rfl
  | answer d =>
      simp only [step]
      cases hv : w.drain d with
      | none => rfl
      | some v => exact bare_setDrain_of_eq hv rfl
  | _ => cases hown

/-- What is on its way has no part in the decisive step of a call. -/
theorem bare_callStep {i : Nat} {c : CallView} {own : OwnStep} (hown : own.decisive = true) :
    (w.bare.callStep cfg key i c.bare own).bare = (w.callStep cfg key i c own).bare := by
  cases own with
  | owner _ answer =>
      simp only [callStep]
      split
      · exact w.bare_bare
      · simp only [refuse, bare_decide, bare_setCall, bare_bare]
        rfl
  | loadSnapshot _ closeErr =>
      simp only [callStep, store_bare]
      split <;>
        · simp only [refuse, bare_decide, bare_setCall, bare_bare]
          rfl
  | loadEvents _ closeErr =>
      simp only [callStep, store_bare, show c.bare.snapshot = c.snapshot from rfl]
      split
      · simp only [refuse, bare_decide, bare_setCall, bare_addActor, bare_bare]
        rfl
      · simp only [bare_addActor, bare_bare]
  | route | unroute | refuse | emit | deliver | answer => cases hown
  | arrive | evict | handle | drained | land => exact w.bare_bare

/-- What is on its way has no part in a decisive step. -/
theorem bare_step_of_decisive {own : OwnStep} (hown : own.decisive = true) :
    (w.bare.step cfg key own).bare = (w.step cfg key own).bare := by
  have hcall (i : Nat) : ((w.bare.call i).elim w.bare fun c =>
      w.bare.callStep cfg key i c own).bare =
      ((w.call i).elim w fun c => w.callStep cfg key i c own).bare := by
    rw [show w.bare.call i = (w.call i).map CallView.bare from rfl]
    cases w.call i with
    | none => exact w.bare_bare
    | some c => exact bare_callStep hown
  cases own with
  | arrive sender env => simp only [step, arrive, bare_decide, bare_addCall, bare_bare]
  | owner i | loadSnapshot i | loadEvents i => exact hcall i
  | handle j env outcome =>
      simp only [step, show w.bare.actor j = (w.actor j).map ActorView.bare from rfl]
      cases w.actor j with
      | none => exact w.bare_bare
      | some v =>
          simp only [Option.map_some, Option.elim_some, actorStep, bare_decide, bare_setActor,
            bare_write, bare_bare]
          rfl
  | drained d env =>
      simp only [step, show w.bare.drain d = (w.drain d).map DrainView.bare from rfl]
      cases w.drain d with
      | none => exact w.bare_bare
      | some v =>
          simp only [Option.map_some, Option.elim_some, drainStep, bare_decide, bare_setDrain,
            bare_setRoute, bare_bare]
          rfl
  | evict => simp only [step, bare_addDrain, bare_bare]
  | land i =>
      simp only [step, bare_write, bare_bare]
      rfl
  | route | unroute | refuse | emit | deliver | answer => cases hown

/-- Two runs of the wallet with the same decisive steps differ in what is on its way. -/
theorem bare_run (steps : List OwnStep) (h : w.bare = w'.bare) :
    (w.run cfg key steps).bare = (w'.run cfg key (steps.filter OwnStep.decisive)).bare := by
  induction steps generalizing w w' with
  | nil => exact h
  | cons own rest ih =>
      cases hown : own.decisive with
      | false =>
          rw [List.filter_cons_of_neg (by simp [hown])]
          exact ih ((bare_step_of_not_decisive hown).trans h)
      | true =>
          rw [List.filter_cons_of_pos hown]
          refine ih ?_
          rw [← bare_step_of_decisive hown, h, bare_step_of_decisive hown]

theorem run_decisive (w : WalletView) (steps : List OwnStep) :
    (w.run cfg key steps).store = (w.run cfg key (steps.filter OwnStep.decisive)).store ∧
      (w.run cfg key steps).decided =
        (w.run cfg key (steps.filter OwnStep.decisive)).decided := by
  have hbare : (w.run cfg key steps).bare = _ := bare_run steps rfl
  have hstore := congrArg WalletView.store hbare
  have hdecided := congrArg WalletView.decided hbare
  exact ⟨hstore, hdecided⟩

end WalletView

/-! ## Results on their way -/

/-- A call, an actor or a drain of the wallet. -/
inductive Carrier where
  | call (i : Nat)
  | actor (j : Nat)
  | drain (d : Nat)
  deriving DecidableEq

def CallView.held (c : CallView) : List RemoteResult := c.refusal.toList

def ActorView.held (v : ActorView) : List RemoteResult :=
  v.result.toList ++ (v.queued.map QueuedResult.res).toList

def DrainView.held (v : DrainView) : List RemoteResult :=
  (v.pending.map fun pending => evictedResult pending.1).toList

namespace WalletView

variable {cfg : Config} {key : ActorKey} {w w' : WalletView}

/-- The results that a carrier has in hand. -/
def held (w : WalletView) : Carrier → List RemoteResult
  | .call i => (w.call i).elim [] CallView.held
  | .actor j => (w.actor j).elim [] ActorView.held
  | .drain d => (w.drain d).elim [] DrainView.held

theorem held_setCall (w : WalletView) (i : Nat) (c : CallView) :
    (w.setCall i c).held = Function.update w.held (.call i) c.held := by
  funext carrier
  cases carrier with
  | call i' =>
      by_cases hi : i' = i
      · subst hi
        simp [held, setCall]
      · simp [held, setCall, hi]
  | actor | drain => rfl

theorem held_setActor (w : WalletView) (j : Nat) (v : Option ActorView) :
    { w with actor := Function.update w.actor j v }.held =
      Function.update w.held (.actor j) (v.elim [] ActorView.held) := by
  funext carrier
  cases carrier with
  | actor j' =>
      by_cases hj : j' = j
      · subst hj
        simp [held]
      · simp [held, hj]
  | call | drain => rfl

theorem held_setDrain (w : WalletView) (d : Nat) (v : DrainView) :
    (w.setDrain d v).held = Function.update w.held (.drain d) v.held := by
  funext carrier
  cases carrier with
  | drain d' =>
      by_cases hd : d' = d
      · subst hd
        simp [held, setDrain]
      · simp [held, setDrain, hd]
  | call | actor => rfl

/-- The results that have been put on the channel or are in the hands of a carrier were
decided, as often as they are found there. -/
structure Accounted (w : WalletView) : Prop where
  finite : ∀ res, (Function.support (List.count res ∘ w.held)).Finite
  count_le : ∀ res, (w.put.map QueuedResult.res).count res +
    ∑ᶠ carrier, (w.held carrier).count res ≤ w.decided.count res

namespace Accounted

theorem start (store : WalletStore) (inFlight : List Snapshot) :
    (WalletView.start store inFlight).Accounted := by
  have hheld (carrier : Carrier) : (WalletView.start store inFlight).held carrier = [] := by
    cases carrier <;> rfl
  refine ⟨fun res => ?_, fun res => ?_⟩
  · simp [Function.support, hheld]
  · simp only [hheld, List.count_nil, finsum_zero]
    exact Nat.le_refl 0

/-- A carrier hands results on, to the channel or to nobody, and gets newly decided ones. -/
theorem move (h : w.Accounted) {carrier : Carrier} {ress decided : List RemoteResult}
    {put : List QueuedResult} (hheld : w'.held = Function.update w.held carrier ress)
    (hput : w'.put = w.put ++ put) (hdecided : w'.decided = w.decided ++ decided)
    (hmove : ∀ res, (put.map QueuedResult.res).count res + ress.count res ≤
      (w.held carrier).count res + decided.count res) : w'.Accounted := by
  refine ⟨fun res => ?_, fun res => ?_⟩ <;>
    have hupdate := Tally.finsum_update (List.count res) (h.finite res) carrier ress
  · rw [hheld]
    exact hupdate.1
  · have hbefore := h.count_le res
    have hbalance := hmove res
    rw [hheld, hput, hdecided, List.map_append, List.count_append, List.count_append]
    omega

theorem refuse (h : w.Accounted) (i : Nat) (c : CallView) (res : RemoteResult) :
    (w.refuse i c res).Accounted :=
  h.move (w.held_setCall i { c with refusal := some res }) (List.append_nil _).symm rfl
    fun _ => Nat.zero_add _ ▸ Nat.le_add_left _ _

theorem addActor (h : w.Accounted) {v : Option ActorView} (hv : v.elim [] ActorView.held = []) :
    (w.addActor v).Accounted := by
  refine h.move (w.held_setActor w.actors v) (List.append_nil _).symm (List.append_nil _).symm ?_
  intro res
  rw [hv]
  exact Nat.zero_le _

theorem callStep (h : w.Accounted) {i : Nat} {c : CallView} (hc : w.call i = some c)
    (own : OwnStep) : (w.callStep cfg key i c own).Accounted := by
  have hheld : w.held (.call i) = c.held := by rw [held, hc, Option.elim_some]
  cases own with
  | owner _ answer =>
      simp only [WalletView.callStep]
      split
      · exact h
      · exact h.refuse i c _
  | loadSnapshot _ closeErr =>
      simp only [WalletView.callStep]
      split
      · exact h.refuse i c _
      · refine h.move (w.held_setCall i _) (List.append_nil _).symm (List.append_nil _).symm ?_
        intro res
        rw [hheld]
        simp [CallView.held]
  | loadEvents _ closeErr =>
      simp only [WalletView.callStep]
      split
      · exact (h.refuse i c _).addActor rfl
      · exact h.addActor rfl
  | refuse _ =>
      refine h.move (w.held_setCall i _) rfl (List.append_nil _).symm fun res => ?_
      rw [hheld]
      cases hrefusal : c.refusal <;> simp [CallView.held, hrefusal]
  | route | unroute => exact ⟨h.finite, h.count_le⟩
  | _ => exact h

theorem actorStep (h : w.Accounted) {j : Nat} {v : ActorView} (hv : w.actor j = some v)
    (own : OwnStep) : (w.actorStep j v own).Accounted := by
  have hheld : w.held (.actor j) = v.held := by rw [held, hv, Option.elim_some]
  cases own with
  | handle _ env outcome =>
      refine h.move (w.held_setActor j _) (List.append_nil _).symm rfl fun res => ?_
      simp [ActorView.held]
  | emit _ =>
      simp only [WalletView.actorStep]
      cases hres : v.result with
      | none => exact h
      | some res =>
          refine h.move (w.held_setActor j _) (List.append_nil _).symm (List.append_nil _).symm ?_
          intro other
          have hsublist : [res].Sublist v.held := by
            simp [ActorView.held, hres]
          rw [hheld]
          cases w.routes res.requestId with
          | none => exact Nat.zero_le _
          | some reply => exact (Nat.zero_add _).trans_le (hsublist.count_le other)
  | deliver _ =>
      refine h.move (w.held_setActor j _) rfl (List.append_nil _).symm fun res => ?_
      rw [hheld]
      cases hqueued : v.queued <;> simp [ActorView.held, hqueued, Nat.add_comm]
  | _ => exact h

theorem drainStep (h : w.Accounted) {d : Nat} {v : DrainView} (hv : w.drain d = some v)
    (own : OwnStep) : (w.drainStep d v own).Accounted := by
  have hheld : w.held (.drain d) = v.held := by rw [held, hv, Option.elim_some]
  cases own with
  | drained _ env =>
      refine h.move (w.held_setDrain d _) (List.append_nil _).symm rfl fun res => ?_
      cases w.routes env.requestId <;> simp [DrainView.held]
  | answer _ =>
      refine h.move (w.held_setDrain d _) rfl (List.append_nil _).symm fun res => ?_
      rw [hheld]
      cases hpending : v.pending <;> simp [DrainView.held, hpending]
  | _ => exact h

/-- Every step decides on a result before the result is on its way. -/
theorem step (h : w.Accounted) (own : OwnStep) : (w.step cfg key own).Accounted := by
  have hcall (i : Nat) :
      ((w.call i).elim w fun c => w.callStep cfg key i c own).Accounted := by
    cases hc : w.call i with
    | none => exact h
    | some c => exact h.callStep hc own
  have hactor (j : Nat) : ((w.actor j).elim w fun v => w.actorStep j v own).Accounted := by
    cases hv : w.actor j with
    | none => exact h
    | some v => exact h.actorStep hv own
  have hdrain (d : Nat) : ((w.drain d).elim w fun v => w.drainStep d v own).Accounted := by
    cases hv : w.drain d with
    | none => exact h
    | some v => exact h.drainStep hv own
  cases own with
  | arrive sender env =>
      refine h.move (w.held_setCall w.calls _) (List.append_nil _).symm rfl fun res => ?_
      exact Nat.zero_add _ ▸ Nat.le_add_left _ _
  | evict =>
      refine h.move (w.held_setDrain w.drains _) (List.append_nil _).symm
        (List.append_nil _).symm fun res => ?_
      exact Nat.zero_le _
  | owner i | loadSnapshot i | loadEvents i | route i | unroute i | refuse i => exact hcall i
  | handle j | emit j | deliver j => exact hactor j
  | drained d | answer d => exact hdrain d
  | land i => exact ⟨h.finite, h.count_le⟩

theorem run (h : w.Accounted) (steps : List OwnStep) : (w.run cfg key steps).Accounted := by
  induction steps generalizing w with
  | nil => exact h
  | cons own rest ih => exact ih (h.step own)

/-- Each result on the channel is one of the decided ones. -/
theorem subperm (h : w.Accounted) : (w.put.map QueuedResult.res).Subperm w.decided := by
  rw [List.subperm_ext_iff]
  intro res _
  exact (Nat.le_add_right _ _).trans (h.count_le res)

end Accounted

end WalletView

/-- The results that the decisive steps of a wallet decide on. -/
def decisions (cfg : Config) (key : ActorKey) (db : Database) (steps : List OwnStep) :
    List RemoteResult :=
  ((WalletView.start (db.wallet key).undated (db.inFlight key)).run cfg key
    (steps.filter OwnStep.decisive)).decided

end ActorCluster.Node
