import ActorCluster.Foundation.Custody
import ActorCluster.Node.Wellformed

/-! # The keepers of an actor

An actor is kept by its entry in a shard map, then by the one call that evicts
it, and then by the one drain that the call leaves behind. It never has two of
these keepers, and it does not go back into a map.
-/

namespace ActorCluster.Node

open Remote Wallet Transition Custody ActorCluster.Runtime
open scoped List

/-- The actor that a call evicts. -/
def Thread.evicts : Thread → Option Nat
  | .serving _ (.close a) | .serving _ (.killSignal a) | .serving _ (.spawn a) => some a
  | _ => none

/-- The actor that a drain empties. -/
def Drain.target : Drain → Option Nat
  | .await a | .collect a _ | .uncount a _ | .answer a _ | .push a _ _ _ | .finished a => some a
  | .unused => none

theorem Drain.target_eq_none {drain : Drain} : drain.target = none ↔ drain = .unused := by
  cases drain <;> simp [target]

theorem Thread.evicts_eq_some {t : Thread} {a : Nat} (h : t.evicts = some a) :
    ∃ call pc, t = .serving call pc ∧ pc.target = some a := by
  cases t with
  | serving call pc => cases pc <;> cases h <;> exact ⟨call, _, rfl, rfl⟩
  | _ => cases h

inductive Keeper where
  | entry (key : ActorKey)
  | thread (p : Nat)
  | drain (d : Nat)
  deriving DecidableEq

/-- A call begins to evict an actor by taking its entry from the map. -/
theorem ThreadMove.evicts_back {n : NodeState} {db : Database} {action : Action} {p : Nat}
    {t : Thread} (h : ThreadMove n db action p t) {a : Nat} (ha : t.evicts = some a) :
    (n.thread p).evicts = some a ∨ ∃ call, action = .kill p call ∧ n.shards call.key = some a := by
  cases h with
  | stay => exact Or.inl ha
  | go call pc pc' hp hmove =>
      cases hmove with
      | kill b haction hentry =>
          cases ha
          exact Or.inr ⟨call, haction, hentry⟩
      | close | closed | signal =>
          rw [hp]
          exact Or.inl ha
      | _ => cases ha
  | _ => cases ha

/-- A call evicts an actor until it leaves the actor to a drain. -/
theorem ThreadMove.evicts {n : NodeState} {db : Database} {action : Action} {p : Nat} {t : Thread}
    (h : ThreadMove n db action p t) {a : Nat} (ha : (n.thread p).evicts = some a) :
    t.evicts = some a ∨ ∃ call, action = .spawn p call a := by
  cases h with
  | stay => exact Or.inl ha
  | finish sender hp =>
      rcases hp with hp | hp <;>
        · rw [hp] at ha
          cases ha
  | go call pc pc' hp hmove =>
      rw [hp] at ha
      cases hmove with
      | close | closed | signal => exact Or.inl ha
      | _ => cases ha
  | spawn call b haction hp =>
      rw [hp] at ha
      cases ha
      exact Or.inr ⟨call, haction⟩
  | arrive _ _ _ hp | overload _ _ hp | accept _ _ hp | reject _ _ _ hp | serve _ _ _ hp
  | refuse _ _ _ hp | push _ _ _ hp | noSnapshot _ _ _ hp | noEvents _ _ _ _ hp | nobody _ hp
  | wake _ _ hp =>
      rw [hp] at ha
      cases ha

theorem DrainMove.target_back {n : NodeState} {action : Action} {d : Nat} {drain : Drain}
    (h : DrainMove n action d drain) {a : Nat} (ha : drain.target = some a) :
    (n.drain d).target = some a ∨ ∃ p call, action = .spawn p call a ∧ d = n.drains := by
  cases h with
  | stay => exact Or.inl ha
  | spawn p call b haction hp hfresh =>
      cases ha
      exact Or.inr ⟨p, call, haction, hfresh⟩
  | await b hd | collected b envs hd | uncount b envs hd | finish b hd =>
      rw [hd]
      exact Or.inl ha
  | collect b envs env _ hd | push b env reply envs _ hd =>
      rw [hd]
      exact Or.inl ha
  | answer b env envs hd =>
      rw [hd]
      cases hroute : n.replyRoutes (routeKey env) with
      | none =>
          rw [hroute] at ha
          exact Or.inl ha
      | some reply =>
          rw [hroute] at ha
          exact Or.inl ha

namespace NodeState

def keeps (n : NodeState) : Keeper → List Nat
  | .entry key => (n.shards key).toList
  | .thread p => (n.thread p).evicts.toList
  | .drain d => (n.drain d).target.toList

/-- No actor has two keepers. -/
structure Kept (n : NodeState) : Prop where
  exclusive : Exclusive n.keeps
  drained : ∀ d a, (n.drain d).target = some a → a < n.started
  unused : ∀ d, n.drains ≤ d → n.drain d = .unused

theorem kept_newNode : newNode.Kept := by
  have hkeeps : ∀ keeper, newNode.keeps keeper = [] := by
    intro keeper
    cases keeper <;> rfl
  refine ⟨⟨fun keeper => ?_, fun keeper other a ha => ?_⟩, nofun, fun _ _ => rfl⟩
  · rw [hkeeps]
    exact List.nodup_nil
  · rw [hkeeps] at ha
    cases ha

variable {cfg : Config} {n : NodeState} {db : Database} {action : Action}

theorem Kept.lt_started (h : n.Kept) (hw : n.Wellformed) {keeper : Keeper} {a : Nat}
    (ha : a ∈ n.keeps keeper) : a < n.started := by
  cases keeper with
  | entry key => exact (hw.mapped key a (by simpa [keeps] using ha)).1
  | thread p =>
      have hevicts : (n.thread p).evicts = some a := by simpa [keeps] using ha
      obtain ⟨call, pc, hp, htarget⟩ := Thread.evicts_eq_some hevicts
      exact (hw.targets p call pc a hp htarget).1
  | drain d => exact h.drained d a (by simpa [keeps] using ha)

theorem Kept.lt_drains (h : n.Kept) {d : Nat} (hd : n.drain d ≠ .unused) : d < n.drains := by
  by_contra hlt
  exact hd (h.unused d (Nat.le_of_not_lt hlt))

/-- The entry of an actor passes to the call that evicts it. -/
theorem Kept.kill (h : n.Kept) {p : Nat} {call : Call} {a : Nat}
    (hp : n.thread p = .serving call .kill) (hentry : n.shards call.key = some a) :
    Exclusive (n.apply cfg db (.kill p call)).keeps := by
  have hthread : (n.apply cfg db (.kill p call)).thread p = .serving call (.close a) := by
    simp only [apply, hentry]
    exact setThread_thread_self _ _ _
  refine h.exclusive.hand (p := .entry call.key) (q := .thread p) (x := a) (by simp) ?_ ?_ ?_
  · have hgone : (n.apply cfg db (.kill p call)).shards call.key = none :=
      setShard_shards_self n call.key none
    rw [keeps, keeps, hentry, hgone]
    rfl
  · rw [keeps, keeps, hthread, hp]
    rfl
  · intro keeper hg ht
    cases keeper with
    | entry key =>
        have hkey : key ≠ call.key := fun hkey => hg (by rw [hkey])
        exact congrArg Option.toList (n.setShard_shards_of_ne none hkey)
    | thread r =>
        have hr : r ≠ p := fun hr => ht (by rw [hr])
        exact congrArg (fun t : Thread => t.evicts.toList) (setThread_thread_of_ne _ _ hr)
    | drain d => rfl

/-- A call that evicts an actor leaves it to a new drain. -/
theorem Kept.spawn (h : n.Kept) {p : Nat} {call : Call} {a : Nat}
    (hp : n.thread p = .serving call (.spawn a)) :
    Exclusive (n.apply cfg db (.spawn p call a)).keeps := by
  have hthread : (n.apply cfg db (.spawn p call a)).thread p =
      .push call.sender call.rest (wrongNodeResult call.env) := setThread_thread_self _ _ _
  have hdrain : (n.apply cfg db (.spawn p call a)).drain n.drains = .await a :=
    Function.update_self _ _ _
  refine h.exclusive.hand (p := .thread p) (q := .drain n.drains) (x := a) nofun ?_ ?_ ?_
  · rw [keeps, keeps, hthread, hp]
    rfl
  · rw [keeps, keeps, hdrain, h.unused _ (Nat.le_refl _)]
    rfl
  · intro keeper hg ht
    cases keeper with
    | entry key => rfl
    | thread r =>
        have hr : r ≠ p := fun hr => hg (by rw [hr])
        exact congrArg (fun t : Thread => t.evicts.toList) (setThread_thread_of_ne _ _ hr)
    | drain e =>
        have he : e ≠ n.drains := fun he => ht (by rw [he])
        exact congrArg (fun drain : Drain => drain.target.toList) (Function.update_of_ne he _ _)

/-- A new actor has its entry as its only keeper. -/
theorem Kept.install (h : n.Kept) (hw : n.Wellformed) {p : Nat} {call : Call} {now : Int}
    {snapshot : Snapshot} (hp : n.thread p = .serving call (.loadEvents now snapshot))
    (b : BusinessActor) : Exclusive (n.install p call b).keeps := by
  refine h.exclusive.gain (q := .entry call.key) (x := n.started) ?_ ?_ ?_
  · exact fun keeper hkept => Nat.lt_irrefl _ (h.lt_started hw hkept)
  · have hentry : (n.install p call b).shards call.key = some n.started :=
      Function.update_self _ _ _
    rw [keeps, hentry]
    exact (List.sublist_append_left [n.started] _).subperm
  · intro keeper hne
    cases keeper with
    | entry key =>
        have hkey : key ≠ call.key := fun hkey => hne (by rw [hkey])
        exact congrArg Option.toList (Function.update_of_ne hkey _ _)
    | thread r =>
        by_cases hr : r = p
        · subst hr
          rw [keeps, keeps, hp, show (n.install r call b).thread r = _ from
            setThread_thread_self _ _ _]
          rfl
        · exact congrArg (fun t : Thread => t.evicts.toList) (setThread_thread_of_ne _ _ hr)
    | drain d => rfl

theorem toList_subperm {o o' : Option Nat} (h : ∀ a, o' = some a → o = some a) :
    o'.toList <+~ o.toList := by
  cases o' with
  | none => exact List.nil_subperm
  | some a =>
      rw [h a rfl]

theorem Kept.exclusive_apply (h : n.Kept) (hw : n.Wellformed)
    (henabled : n.enabled cfg action = true) : Exclusive (n.apply cfg db action).keeps := by
  by_cases hkill : ∃ p call a, action = .kill p call ∧ n.shards call.key = some a
  · obtain ⟨p, call, a, rfl, hentry⟩ := hkill
    have hp : n.thread p = .serving call .kill ∧ n.unlocked call.key = true := by
      simpa [enabled] using henabled
    exact h.kill hp.1 hentry
  by_cases hspawn : ∃ p call a, action = .spawn p call a
  · obtain ⟨p, call, a, rfl⟩ := hspawn
    have hp : n.thread p = .serving call (.spawn a) := by simpa [enabled] using henabled
    exact h.spawn hp
  by_cases hinstall : ∃ p call now snapshot closeErr b,
      action = .loadEvents p call now snapshot closeErr ∧
        n.apply cfg db action = n.install p call b
  · obtain ⟨p, call, now, snapshot, closeErr, b, rfl, happly⟩ := hinstall
    have hp : n.thread p = .serving call (.loadEvents now snapshot) := by
      simpa [enabled] using henabled
    rw [happly]
    exact h.install hw hp b
  refine h.exclusive.mono fun keeper => ?_
  cases keeper with
  | entry key =>
      refine toList_subperm fun a ha => (shards_back ha).resolve_right ?_
      rintro ⟨p, call, now, snapshot, closeErr, b, haction, happly, -⟩
      exact hinstall ⟨p, call, now, snapshot, closeErr, b, haction, happly⟩
  | thread p =>
      refine toList_subperm fun a ha =>
        ((threadMove_apply henabled p).evicts_back ha).resolve_right ?_
      rintro ⟨call, rfl, hentry⟩
      exact hkill ⟨p, call, a, rfl, hentry⟩
  | drain d =>
      refine toList_subperm fun a ha =>
        ((drainMove_apply henabled d).target_back ha).resolve_right ?_
      rintro ⟨p, call, rfl, -⟩
      exact hspawn ⟨p, call, a, rfl⟩

theorem drains_le_apply (cfg : Config) (n : NodeState) (db : Database) (action : Action) :
    n.drains ≤ (n.apply cfg db action).drains := by
  cases action with
  | loadSnapshot | loadEvents =>
      simp only [apply]
      split <;> exact Nat.le_refl _
  | spawn => exact Nat.le_succ _
  | _ => exact Nat.le_refl _

theorem Kept.step (h : n.Kept) (hw : n.Wellformed) (henabled : n.enabled cfg action = true) :
    (n.apply cfg db action).Kept := by
  refine ⟨h.exclusive_apply hw henabled, fun d a ha => ?_, fun d hd => ?_⟩
  · refine Nat.lt_of_lt_of_le ?_ (started_le_apply cfg n db action)
    rcases (drainMove_apply henabled d).target_back ha with hold | ⟨p, call, rfl, -⟩
    · exact h.drained d a hold
    · have hp : n.thread p = .serving call (.spawn a) := by simpa [enabled] using henabled
      exact (hw.targets p call _ a hp rfl).1
  · have hunused := h.unused d (Nat.le_trans (drains_le_apply cfg n db action) hd)
    have hmove : DrainMove n action d ((n.apply cfg db action).drain d) :=
      drainMove_apply henabled d
    rcases htarget : ((n.apply cfg db action).drain d).target with _ | a
    · exact Drain.target_eq_none.mp htarget
    · rcases hmove.target_back htarget with hold | ⟨p, call, rfl, rfl⟩
      · rw [hunused] at hold
        cases hold
      · exact absurd hd (Nat.not_succ_le_self _)

end NodeState

end ActorCluster.Node
