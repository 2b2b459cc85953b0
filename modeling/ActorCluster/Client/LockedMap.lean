import ActorCluster.Client.CallbackMap
import ActorCluster.Foundation.Transition

/-! # The callback map under its locks

Any number of goroutines use one map. Each shard has a lock of its own, and the pending
count belongs to none of them: `Store` adds to it before it writes the entry, the other
operations subtract from it after they have deleted one. `FailAll` takes the locks one
after another, so the other operations go on between and beside its shards.
-/

namespace ActorCluster.Client

open Transition

namespace ShardedCallbackMap

/-- The same entries under another count. -/
def withPending (sm : ShardedCallbackMap) (pending : UInt64) : ShardedCallbackMap :=
  { sm with pending := pending }

@[simp] theorem shards_withPending (sm : ShardedCallbackMap) (pending : UInt64) :
    (sm.withPending pending).shards = sm.shards :=
  rfl

end ShardedCallbackMap

/-- Where a goroutine stands that uses the map, with its local variables. The shard of a
position is locked from `count`, `take` and `range` to `unlock`; `all` marks `FailAll`. -/
inductive MapUser where
  | idle
  | store (reqID : UInt64) (entry : CallbackEntry)
  | count (reqID : UInt64) (entry : CallbackEntry)
  | write (reqID : UInt64) (entry : CallbackEntry) (found : Bool)
  | remove (reqID : UInt64) (load : Bool)
  | take (reqID : UInt64) (load : Bool)
  | failAll (i : Nat)
  | range (i : Nat)
  | uncount (i : Nat) (all : Bool)
  | unlock (i : Nat) (all : Bool)
  deriving DecidableEq, Repr

namespace MapUser

/-- The shard whose lock the goroutine is about to take. -/
def wants : MapUser → Option Nat
  | .store reqID _ | .remove reqID _ => some (shardIdx reqID)
  | .failAll i => some i
  | _ => none

/-- The shard whose lock the goroutine holds. -/
def holds : MapUser → Option Nat
  | .count reqID _ | .write reqID _ _ | .take reqID _ => some (shardIdx reqID)
  | .range i | .uncount i _ | .unlock i _ => some i
  | _ => none

/-- Where the goroutine stands once it has the lock. -/
def entered : MapUser → MapUser
  | .store reqID entry => .count reqID entry
  | .remove reqID load => .take reqID load
  | .failAll i => .range i
  | user => user

/-- What the goroutine has counted without an entry in the map. -/
def debt : MapUser → Nat
  | .write _ _ false | .uncount _ _ => 1
  | _ => 0

theorem holds_entered {user : MapUser} {i : Nat} (h : user.wants = some i) :
    user.holds = none ∧ user.entered.holds = some i ∧ user.entered.debt = 0 := by
  cases user <;> cases h <;> exact ⟨rfl, rfl, rfl⟩

theorem wants_eq_none {user : MapUser} {i : Nat} (h : user.holds = some i) : user.wants = none := by
  cases user <;> first | rfl | cases h

end MapUser

/-- A map, the holders of its locks, and the goroutines that use it. -/
structure LockedMap where
  sm : ShardedCallbackMap
  lock : Nat → Option Nat
  user : Nat → MapUser

inductive MapAction where
  | store (p : Nat) (reqID : UInt64) (entry : CallbackEntry)
  | loadAndDelete (p : Nat) (reqID : UInt64)
  | delete (p : Nat) (reqID : UInt64)
  | failAll (p : Nat)
  | lock (p i : Nat)
  | count (p : Nat) (reqID : UInt64) (entry : CallbackEntry)
  | write (p : Nat) (reqID : UInt64) (entry : CallbackEntry) (found : Bool)
  | take (p : Nat) (reqID : UInt64) (load : Bool)
  | visit (p i : Nat) (reqID : UInt64)
  | ranged (p i : Nat)
  | uncount (p i : Nat) (all : Bool)
  | unlock (p i : Nat) (all : Bool)
  deriving DecidableEq, Repr

namespace LockedMap

def setUser (s : LockedMap) (p : Nat) (user : MapUser) : LockedMap :=
  { s with user := Function.update s.user p user }

/-- `sm.pending.Add(delta)` -/
def addPending (s : LockedMap) (delta : UInt64) : LockedMap :=
  { s with sm := s.sm.withPending (s.sm.pending + delta) }

/-- `s.m[reqID] = entry` -/
def put (s : LockedMap) (reqID : UInt64) (entry : CallbackEntry) : LockedMap :=
  { s with sm := (s.sm.store reqID entry).withPending s.sm.pending }

/-- `delete(s.m, reqID)` -/
def erase (s : LockedMap) (reqID : UInt64) : LockedMap :=
  { s with sm := (s.sm.delete reqID).withPending s.sm.pending }

/-- `_, exists := s.m[reqID]` -/
def found (s : LockedMap) (reqID : UInt64) : Bool := decide (reqID ∈ s.sm.shards (shardIdx reqID))

def enabled (s : LockedMap) : MapAction → Bool
  | .store p _ _ | .loadAndDelete p _ | .delete p _ | .failAll p => s.user p = .idle
  | .lock p i => (s.user p).wants = some i && s.lock i = none
  | .count p reqID entry => s.user p = .count reqID entry
  | .write p reqID entry found => s.user p = .write reqID entry found
  | .take p reqID load => s.user p = .take reqID load
  | .visit p i reqID => s.user p = .range i && decide (reqID ∈ s.sm.shards i)
  | .ranged p i => s.user p = .range i && (s.sm.shards i).entries.isEmpty
  | .uncount p i all => s.user p = .uncount i all
  | .unlock p i all => s.user p = .unlock i all

def apply (s : LockedMap) : MapAction → LockedMap
  | .store p reqID entry => s.setUser p (.store reqID entry)
  | .loadAndDelete p reqID => s.setUser p (.remove reqID true)
  | .delete p reqID => s.setUser p (.remove reqID false)
  | .failAll p => s.setUser p (.failAll 0)
  | .lock p i =>
      { s with lock := Function.update s.lock i (some p) }.setUser p (s.user p).entered
  -- `Store`
  | .count p reqID entry =>
      (if s.found reqID then s else s.addPending 1).setUser p (.write reqID entry (s.found reqID))
  | .write p reqID entry _ => (s.put reqID entry).setUser p (.unlock (shardIdx reqID) false)
  -- `LoadAndDelete` and `Delete`
  | .take p reqID _ =>
      if s.found reqID then (s.erase reqID).setUser p (.uncount (shardIdx reqID) false)
      else s.setUser p (.unlock (shardIdx reqID) false)
  -- `FailAll` ranges over the entries in any order
  | .visit p i reqID => (s.erase reqID).setUser p (.uncount i true)
  | .ranged p i => s.setUser p (.unlock i true)
  | .uncount p i all =>
      (s.addPending (-1)).setUser p (if all then .range i else .unlock i false)
  | .unlock p i all =>
      { s with lock := Function.update s.lock i none }.setUser p
        (if all && decide (i + 1 < shardCount) then .failAll (i + 1) else .idle)

@[simp] theorem setUser_user_self (s : LockedMap) (p : Nat) (user : MapUser) :
    (s.setUser p user).user p = user :=
  Function.update_self _ _ _

theorem setUser_user_of_ne (s : LockedMap) {p q : Nat} (user : MapUser) (h : q ≠ p) :
    (s.setUser p user).user q = s.user q :=
  Function.update_of_ne h _ _

/-- The locks exclude each other, every position has a shard of the map, and `Store` still
finds what it found. -/
structure Sound (s : LockedMap) : Prop where
  holder : ∀ p i, (s.user p).holds = some i ↔ s.lock i = some p
  wanted : ∀ p i, (s.user p).wants = some i → i < shardCount
  held : ∀ p i, (s.user p).holds = some i → i < shardCount
  unchanged : ∀ p reqID entry found, s.user p = .write reqID entry found →
    found = s.found reqID

end LockedMap

/-- `NewShardedCallbackMap` -/
def newLockedMap : LockedMap := ⟨.new, fun _ => none, fun _ => .idle⟩

/-- The map and the goroutines that use it. -/
def lockedMap : System LockedMap MapAction :=
  System.guarded newLockedMap LockedMap.enabled LockedMap.apply

namespace LockedMap

variable {s : LockedMap}

theorem sound_new : Sound newLockedMap := by
  refine ⟨fun p i => ?_, fun p i h => ?_, fun p i h => ?_, fun p reqID entry found h => ?_⟩
  · constructor <;> intro h <;> cases h
  · cases h
  · cases h
  · cases h

namespace Sound

/-- One goroutine moves, and touches no shard but the one it holds. -/
theorem move (h : Sound s) {p : Nat} {t : LockedMap} (huser : ∀ q, q ≠ p → t.user q = s.user q)
    (hlock : ∀ q, q ≠ p → ∀ i, t.lock i = some q ↔ s.lock i = some q)
    (hfound : ∀ reqID, (s.user p).holds ≠ some (shardIdx reqID) → t.found reqID = s.found reqID)
    (hholder : ∀ i, (t.user p).holds = some i ↔ t.lock i = some p)
    (hwanted : ∀ i, (t.user p).wants = some i → i < shardCount)
    (hheld : ∀ i, (t.user p).holds = some i → i < shardCount)
    (hunchanged : ∀ reqID entry found, t.user p = .write reqID entry found →
      found = t.found reqID) : Sound t := by
  refine ⟨fun q i => ?_, fun q i hq => ?_, fun q i hq => ?_, fun q reqID entry found hq => ?_⟩ <;>
    by_cases hqp : q = p
  · subst hqp
    exact hholder i
  · rw [huser q hqp, hlock q hqp]
    exact h.holder q i
  · subst hqp
    exact hwanted i hq
  · rw [huser q hqp] at hq
    exact h.wanted q i hq
  · subst hqp
    exact hheld i hq
  · rw [huser q hqp] at hq
    exact h.held q i hq
  · subst hqp
    exact hunchanged reqID entry found hq
  · rw [huser q hqp] at hq
    rw [hfound reqID, h.unchanged q reqID entry found hq]
    -- the two goroutines would hold one lock
    intro hp
    have hq' := (h.holder q (shardIdx reqID)).mp (by rw [hq]; rfl)
    rw [(h.holder p _).mp hp] at hq'
    exact hqp (Option.some.inj hq').symm

/-- A goroutine moves on outside the locks. -/
theorem outside (h : Sound s) {p : Nat} {user : MapUser} (hp : (s.user p).holds = none)
    (huser : user.holds = none) (hwants : ∀ i, user.wants = some i → i < shardCount) :
    Sound (s.setUser p user) := by
  refine h.move (p := p) (fun q hq => s.setUser_user_of_ne user hq) (fun _ _ _ => Iff.rfl)
    (fun _ _ => rfl) (fun i => ?_) (fun i hi => ?_) (fun i hi => ?_) fun reqID entry found hu => ?_
  · rw [setUser_user_self, huser, ← hp]
    exact h.holder p i
  · rw [setUser_user_self] at hi
    exact hwants i hi
  · rw [setUser_user_self, huser] at hi
    cases hi
  · rw [setUser_user_self] at hu
    subst hu
    cases huser

/-- A goroutine moves on inside the lock of a shard, and may change the shard. -/
theorem inside (h : Sound s) {p i : Nat} (sm : ShardedCallbackMap) {user : MapUser}
    (hp : (s.user p).holds = some i) (huser : user.holds = some i)
    (hshards : ∀ j, j ≠ i → sm.shards j = s.sm.shards j)
    (hwrite : ∀ reqID entry found, user = .write reqID entry found →
      found = decide (reqID ∈ sm.shards (shardIdx reqID))) :
    Sound ({ s with sm := sm }.setUser p user) := by
  refine h.move (p := p) (fun q hq => setUser_user_of_ne _ user hq) (fun _ _ _ => Iff.rfl)
    (fun reqID hreq => ?_) (fun j => ?_) (fun j hj => ?_) (fun j hj => ?_)
    fun reqID entry found hu => ?_
  · have hne : shardIdx reqID ≠ i := fun heq => hreq (heq ▸ hp)
    change decide (reqID ∈ sm.shards _) = decide (reqID ∈ s.sm.shards _)
    rw [hshards _ hne]
  · rw [setUser_user_self, huser, ← hp]
    exact h.holder p j
  · rw [setUser_user_self, MapUser.wants_eq_none huser] at hj
    cases hj
  · rw [setUser_user_self, huser, ← hp] at hj
    exact h.held p j hj
  · rw [setUser_user_self] at hu
    exact hwrite reqID entry found hu

theorem lock (h : Sound s) {p i : Nat} (hp : (s.user p).wants = some i)
    (hfree : s.lock i = none) :
    Sound ({ s with lock := Function.update s.lock i (some p) }.setUser p (s.user p).entered) := by
  obtain ⟨hout, hin, -⟩ := MapUser.holds_entered hp
  refine h.move (p := p) (fun q hq => setUser_user_of_ne _ _ hq) (fun q hq j => ?_)
    (fun _ _ => rfl) (fun j => ?_) (fun j hj => ?_) (fun j hj => ?_) fun reqID entry found hu => ?_
  · change Function.update s.lock i (some p) j = some q ↔ _
    by_cases hj : j = i
    · subst hj
      rw [Function.update_self, hfree]
      exact ⟨fun heq => absurd (Option.some.inj heq).symm hq, by simp⟩
    · rw [Function.update_of_ne hj]
  · rw [setUser_user_self, hin]
    change _ ↔ Function.update s.lock i (some p) j = some p
    by_cases hj : j = i
    · subst hj
      rw [Function.update_self]
      simp
    · rw [Function.update_of_ne hj, ← h.holder p j, hout]
      simp [Ne.symm hj]
  · rw [setUser_user_self, MapUser.wants_eq_none hin] at hj
    cases hj
  · rw [setUser_user_self, hin] at hj
    cases hj
    exact h.wanted p i hp
  · rw [setUser_user_self] at hu
    cases hs : s.user p <;> rw [hs] at hu hout <;> cases hu
    cases hout

theorem unlock (h : Sound s) {p i : Nat} {user : MapUser} (hp : (s.user p).holds = some i)
    (huser : user.holds = none) (hwants : ∀ j, user.wants = some j → j < shardCount) :
    Sound ({ s with lock := Function.update s.lock i none }.setUser p user) := by
  have hlock : s.lock i = some p := (h.holder p i).mp hp
  refine h.move (p := p) (fun q hq => setUser_user_of_ne _ _ hq) (fun q hq j => ?_)
    (fun _ _ => rfl) (fun j => ?_) (fun j hj => ?_) (fun j hj => ?_) fun reqID entry found hu => ?_
  · change Function.update s.lock i none j = some q ↔ _
    by_cases hj : j = i
    · subst hj
      rw [Function.update_self, hlock]
      exact ⟨by simp, fun heq => absurd (Option.some.inj heq).symm hq⟩
    · rw [Function.update_of_ne hj]
  · rw [setUser_user_self, huser]
    change _ ↔ Function.update s.lock i none j = some p
    by_cases hj : j = i
    · subst hj
      rw [Function.update_self]
      simp
    · rw [Function.update_of_ne hj, ← h.holder p j, hp]
      simp [Ne.symm hj]
  · rw [setUser_user_self] at hj
    exact hwants j hj
  · rw [setUser_user_self, huser] at hj
    cases hj
  · rw [setUser_user_self] at hu
    subst hu
    cases huser

end Sound

/-- Only the shard of the entry changes. -/
theorem shards_put_of_ne (s : LockedMap) {reqID : UInt64} (entry : CallbackEntry) {j : Nat}
    (hj : j ≠ shardIdx reqID) : (s.put reqID entry).sm.shards j = s.sm.shards j :=
  Function.update_of_ne hj _ _

theorem shards_erase_of_ne (s : LockedMap) {reqID : UInt64} {j : Nat} (hj : j ≠ shardIdx reqID) :
    (s.erase reqID).sm.shards j = s.sm.shards j :=
  Function.update_of_ne hj _ _

theorem Sound.apply (h : Sound s) {action : MapAction} (henabled : s.enabled action = true) :
    Sound (s.apply action) := by
  cases action with
  | store p reqID entry | loadAndDelete p reqID | delete p reqID =>
      have hp : s.user p = .idle := by simpa [enabled] using henabled
      refine h.outside (by rw [hp]; rfl) rfl fun i hi => ?_
      cases hi
      exact shardIdx_lt reqID
  | failAll p =>
      have hp : s.user p = .idle := by simpa [enabled] using henabled
      refine h.outside (by rw [hp]; rfl) rfl fun i hi => ?_
      cases hi
      exact Nat.zero_lt_succ _
  | lock p i =>
      have hp : (s.user p).wants = some i ∧ s.lock i = none := by simpa [enabled] using henabled
      exact h.lock hp.1 hp.2
  | count p reqID entry =>
      have hp : s.user p = .count reqID entry := by simpa [enabled] using henabled
      rw [LockedMap.apply]
      split
      next hfound =>
        refine h.inside s.sm (by rw [hp]; rfl) rfl (fun _ _ => rfl) fun _ _ _ hu => ?_
        cases hu
        rfl
      next hfound =>
        refine h.inside (s.addPending 1).sm (by rw [hp]; rfl) rfl (fun _ _ => rfl)
          fun _ _ _ hu => ?_
        cases hu
        rfl
  | write p reqID entry found =>
      have hp : s.user p = .write reqID entry found := by simpa [enabled] using henabled
      refine h.inside (s.put reqID entry).sm (by rw [hp]; rfl) rfl
        (fun j hj => s.shards_put_of_ne entry hj) fun _ _ _ hu => ?_
      cases hu
  | take p reqID load =>
      have hp : s.user p = .take reqID load := by simpa [enabled] using henabled
      rw [LockedMap.apply]
      split
      · refine h.inside (s.erase reqID).sm (by rw [hp]; rfl) rfl
          (fun j hj => s.shards_erase_of_ne hj) fun _ _ _ hu => ?_
        cases hu
      · refine h.inside s.sm (by rw [hp]; rfl) rfl (fun _ _ => rfl) fun _ _ _ hu => ?_
        cases hu
  | visit p i reqID =>
      have hp : s.user p = .range i ∧ reqID ∈ s.sm.shards i := by simpa [enabled] using henabled
      have hi := s.sm.keyed i reqID hp.2
      refine h.inside (s.erase reqID).sm (by rw [hp.1]; rfl) rfl
        (fun j hj => s.shards_erase_of_ne (hi ▸ hj)) fun _ _ _ hu => ?_
      cases hu
  | ranged p i =>
      have hp : s.user p = .range i ∧ (s.sm.shards i).entries.isEmpty = true := by
        simpa only [enabled, Bool.and_eq_true, decide_eq_true_eq] using henabled
      refine h.inside s.sm (by rw [hp.1]; rfl) rfl (fun _ _ => rfl) fun _ _ _ hu => ?_
      cases hu
  | uncount p i all =>
      have hp : s.user p = .uncount i all := by simpa [enabled] using henabled
      refine h.inside (s.addPending (-1)).sm (by rw [hp]; rfl) ?_ (fun _ _ => rfl) ?_
      · cases all <;> rfl
      · intro _ _ _ hu
        cases all <;> cases hu
  | unlock p i all =>
      have hp : s.user p = .unlock i all := by simpa [enabled] using henabled
      refine h.unlock (by rw [hp]; rfl) ?_ ?_
      · split <;> rfl
      · intro j hj
        split at hj
        next hnext =>
          cases hj
          exact of_decide_eq_true (Bool.and_eq_true_iff.mp hnext).2
        next => cases hj

end LockedMap

end ActorCluster.Client
