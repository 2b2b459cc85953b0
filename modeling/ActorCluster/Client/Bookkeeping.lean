import ActorCluster.Client.LockedMap
import ActorCluster.Client.Moves
import ActorCluster.Foundation.History
import ActorCluster.Foundation.Tally

/-! # The books of the callback map

The books are kept per shard: its entries, and what the goroutine inside its lock has
counted and not written, or deleted and not subtracted. Their balance is the pending count
at every step. The map under its locks refines the atomic operations: what a goroutine does
to a shard takes effect where it writes or deletes the entry.
-/

namespace ActorCluster.Client

open Transition Tally

namespace ShardedCallbackMap

/-- The number of entries over all shards. -/
def size (sm : ShardedCallbackMap) : Nat :=
  total (fun shard : Shard => shard.keys.length) (Finset.range shardCount) sm.shards

/-- The pending count is the number of entries. -/
def Counted (sm : ShardedCallbackMap) : Prop := sm.pending = UInt64.ofNat sm.size

theorem length_keys_insert (shard : Shard) (reqID : UInt64) (entry : CallbackEntry) :
    (shard.insert reqID entry).keys.length =
      shard.keys.length + if reqID ∈ shard then 0 else 1 := by
  rw [AList.keys_insert, List.length_cons]
  split
  next h =>
    have hpos := List.length_pos_of_mem (AList.mem_keys.mp h)
    rw [List.length_erase_of_mem (AList.mem_keys.mp h)]
    omega
  next h => rw [List.erase_of_not_mem (mt AList.mem_keys.mpr h)]

theorem length_keys_erase (shard : Shard) (reqID : UInt64) :
    ((shard.erase reqID).keys.length + if reqID ∈ shard then 1 else 0) = shard.keys.length := by
  rw [AList.keys_erase]
  split
  next h =>
    have hpos := List.length_pos_of_mem (AList.mem_keys.mp h)
    rw [List.length_erase_of_mem (AList.mem_keys.mp h)]
    omega
  next h => rw [List.erase_of_not_mem (mt AList.mem_keys.mpr h)]; rfl

theorem size_store (sm : ShardedCallbackMap) (reqID : UInt64) (entry : CallbackEntry) :
    (sm.store reqID entry).size =
      sm.size + if reqID ∈ sm.shards (shardIdx reqID) then 0 else 1 := by
  have htotal := total_update (fun shard : Shard => shard.keys.length) sm.shards
    (Finset.mem_range.mpr (shardIdx_lt reqID))
    ((sm.shards (shardIdx reqID)).insert reqID entry)
  rw [length_keys_insert] at htotal
  change total _ _ (Function.update _ _ _) = total _ _ _ + _
  omega

theorem size_delete (sm : ShardedCallbackMap) (reqID : UInt64) :
    ((sm.delete reqID).size + if reqID ∈ sm.shards (shardIdx reqID) then 1 else 0) = sm.size := by
  have htotal := total_update (fun shard : Shard => shard.keys.length) sm.shards
    (Finset.mem_range.mpr (shardIdx_lt reqID)) ((sm.shards (shardIdx reqID)).erase reqID)
  have hlength := length_keys_erase (sm.shards (shardIdx reqID)) reqID
  change total _ _ (Function.update _ _ _) + _ = total _ _ _
  omega

theorem counted_new : new.Counted := by
  have hsize : new.size = 0 := by simp [size, total, new]
  rw [Counted, hsize]
  rfl

theorem Counted.store {sm : ShardedCallbackMap} (h : sm.Counted) (reqID : UInt64)
    (entry : CallbackEntry) : (sm.store reqID entry).Counted := by
  rw [Counted, size_store, UInt64.ofNat_add, ← h]
  change (if reqID ∈ sm.shards (shardIdx reqID) then sm.pending else sm.pending + 1) = _
  split
  · exact (UInt64.add_zero _).symm
  · rfl

theorem Counted.delete {sm : ShardedCallbackMap} (h : sm.Counted) (reqID : UInt64) :
    (sm.delete reqID).Counted := by
  have hsize := congrArg UInt64.ofNat (sm.size_delete reqID)
  rw [UInt64.ofNat_add, ← h] at hsize
  change (if reqID ∈ sm.shards (shardIdx reqID) then sm.pending - 1 else sm.pending) = _
  rw [← hsize]
  split
  · exact UInt64.add_sub_cancel _ 1
  · exact UInt64.add_zero _

/-- The shards of a map that is counted determine it. -/
theorem Counted.eq {sm sm' : ShardedCallbackMap} (h : sm.Counted) (h' : sm'.Counted)
    (hshards : sm.shards = sm'.shards) : sm = sm' := by
  have hpending : sm.pending = sm'.pending := by rw [h, h', size, hshards, size]
  cases sm
  cases sm'
  cases hshards
  cases hpending
  rfl

end ShardedCallbackMap

/-- The maps of the client are counted. -/
theorem callbackMap_counted {cfg : Config} {s : ClientState} (hs : (client cfg).Reachable s)
    (a : Nat) : (s.streamer a).callbackMap.Counted := by
  revert a
  apply System.Reachable.invariant
    (P := fun s : ClientState => ∀ a, (s.streamer a).callbackMap.Counted) _ _ hs
  · intro a
    exact ShardedCallbackMap.counted_new
  · intro s action t h hstep a
    obtain ⟨henabled, rfl⟩ := System.guarded_step_eq_some_iff.mp hstep
    have hmove := ClientState.streamerMove_apply henabled a
    generalize (s.apply cfg action).streamer a = ns at hmove ⊢
    cases hmove with
    | create => exact ShardedCallbackMap.counted_new
    | store p d => exact (h a).store _ _
    | drop | expire | demux | failEntry => exact (h a).delete _
    | sendErr code | recvErr code =>
        rw [NodeStreamer.startFail_eq]
        exact h a
    | _ => exact h a

/-- What an action subtracts from the pending count. -/
def MapAction.subtracted : MapAction → Nat
  | .uncount _ _ _ => 1
  | _ => 0

namespace LockedMap

variable {s : LockedMap}

/-- What the books of a shard show. -/
def books (s : LockedMap) (i : Nat) : Nat :=
  (s.sm.shards i).keys.length + (s.lock i).elim 0 fun p => (s.user p).debt

/-- The books of all shards. -/
def balance (s : LockedMap) : Nat := total id (Finset.range shardCount) s.books

/-- What a step adds to the pending count. -/
def added (s : LockedMap) : MapAction → Nat
  | .count _ reqID _ => if s.found reqID then 0 else 1
  | _ => 0

theorem length_erase {reqID : UInt64} (hmem : reqID ∈ s.sm.shards (shardIdx reqID)) :
    ((s.erase reqID).sm.shards (shardIdx reqID)).keys.length + 1 =
      (s.sm.shards (shardIdx reqID)).keys.length := by
  have herase : (s.erase reqID).sm.shards (shardIdx reqID) =
      (s.sm.shards (shardIdx reqID)).erase reqID := Function.update_self _ _ _
  have hlength := ShardedCallbackMap.length_keys_erase (s.sm.shards (shardIdx reqID)) reqID
  rw [if_pos hmem] at hlength
  rw [herase, hlength]

/-- A shard that no goroutine touches keeps its books. -/
theorem books_congr (h : Sound s) {t : LockedMap} {p j : Nat}
    (huser : ∀ q, q ≠ p → t.user q = s.user q) (hp : (s.user p).holds ≠ some j)
    (hlock : t.lock j = s.lock j) (hshard : t.sm.shards j = s.sm.shards j) :
    t.books j = s.books j := by
  rw [books, books, hlock, hshard]
  cases hj : s.lock j with
  | none => rfl
  | some q =>
      have hq : q ≠ p := fun heq => hp ((h.holder p j).mpr (heq ▸ hj))
      simp only [Option.elim_some, huser q hq]

/-- The books of the shard that a goroutine holds. -/
theorem books_of_holds (h : Sound s) {p i : Nat} (hp : (s.user p).holds = some i) :
    s.books i = (s.sm.shards i).keys.length + (s.user p).debt := by
  rw [books, (h.holder p i).mp hp]
  rfl

/-- The balance changes with the books of one shard. -/
theorem balance_congr {t : LockedMap} {i gained lost : Nat} (hi : i < shardCount)
    (hbooks : ∀ j, j ≠ i → t.books j = s.books j) (h : t.books i + lost = s.books i + gained) :
    t.balance + lost = s.balance + gained := by
  have hupdate : t.books = Function.update s.books i (t.books i) := by
    funext j
    by_cases hj : j = i
    · subst hj
      rw [Function.update_self]
    · rw [Function.update_of_ne hj, hbooks j hj]
  have htotal := total_update id s.books (Finset.mem_range.mpr hi) (t.books i)
  rw [← hupdate] at htotal
  change t.balance + s.books i = s.balance + t.books i at htotal
  omega

/-- A goroutine moves on outside the locks. -/
theorem balance_outside (h : Sound s) {p : Nat} {user : MapUser}
    (hp : (s.user p).holds = none) : (s.setUser p user).balance = s.balance := by
  have hbooks : (s.setUser p user).books = s.books := by
    funext j
    exact books_congr h (p := p) (fun q hq => s.setUser_user_of_ne user hq) (by simp [hp]) rfl rfl
  rw [balance, hbooks]
  rfl

/-- A goroutine moves on inside the lock of a shard. -/
theorem balance_inside (h : Sound s) (sm : ShardedCallbackMap) {p i gained lost : Nat}
    {user : MapUser} (hp : (s.user p).holds = some i)
    (hshards : ∀ j, j ≠ i → sm.shards j = s.sm.shards j)
    (hbooks : (sm.shards i).keys.length + user.debt + lost =
      (s.sm.shards i).keys.length + (s.user p).debt + gained) :
    ({ s with sm := sm }.setUser p user).balance + lost = s.balance + gained := by
  apply balance_congr (h.held p i hp)
  · intro j hj
    refine books_congr h (p := p) (fun q hq => setUser_user_of_ne _ user hq) ?_ rfl (hshards j hj)
    rw [hp]
    exact fun heq => hj (Option.some.inj heq).symm
  · have hi : ({ s with sm := sm }.setUser p user).books i =
        (sm.shards i).keys.length + user.debt := by
      change _ + (s.lock i).elim 0 (fun q => (Function.update s.user p user q).debt) = _
      rw [(h.holder p i).mp hp, Option.elim_some, Function.update_self]
      rfl
    rw [hi, books_of_holds h hp]
    exact hbooks

/-- A goroutine that owes nothing takes a lock, or returns it. -/
theorem balance_lock (h : Sound s) {p i : Nat} {user : MapUser} {holder : Option Nat}
    (hi : i < shardCount) (hp : ∀ j, j ≠ i → (s.user p).holds ≠ some j)
    (hbefore : s.books i = (s.sm.shards i).keys.length)
    (hafter : (holder.elim 0 fun q => (Function.update s.user p user q).debt) = 0) :
    ({ s with lock := Function.update s.lock i holder }.setUser p user).balance = s.balance := by
  refine Nat.add_right_cancel (m := 0) (balance_congr hi (fun j hj => ?_) ?_)
  · exact books_congr h (p := p) (fun q hq => setUser_user_of_ne _ user hq) (hp j hj)
      (Function.update_of_ne hj _ _) rfl
  · rw [hbefore, books]
    change _ + Option.elim (Function.update s.lock i holder i) 0 _ + 0 = _
    rw [Function.update_self]
    exact congrArg _ hafter

/-- The balance follows the pending count. -/
theorem balance_apply (h : Sound s) {action : MapAction} (henabled : s.enabled action = true) :
    (s.apply action).balance + action.subtracted = s.balance + s.added action := by
  cases action with
  | store p reqID entry | loadAndDelete p reqID | delete p reqID | failAll p =>
      have hp : s.user p = .idle := by simpa [enabled] using henabled
      exact congrArg (· + 0) (balance_outside h (by rw [hp]; rfl))
  | lock p i =>
      have hp : (s.user p).wants = some i ∧ s.lock i = none := by simpa [enabled] using henabled
      obtain ⟨hout, _, hdebt⟩ := MapUser.holds_entered hp.1
      refine congrArg (· + 0) (balance_lock h (h.wanted p i hp.1) (fun _ _ => by simp [hout]) ?_ ?_)
      · rw [books, hp.2]
        rfl
      · rw [Option.elim_some, Function.update_self]
        exact hdebt
  | count p reqID entry =>
      have hp : s.user p = .count reqID entry := by simpa [enabled] using henabled
      rw [LockedMap.apply]
      split
      next hfound =>
        refine balance_inside h s.sm (by rw [hp]; rfl) (fun _ _ => rfl) ?_
        rw [hp, added, if_pos hfound, hfound]
        rfl
      next hfound =>
        refine balance_inside h (s.addPending 1).sm (by rw [hp]; rfl) (fun _ _ => rfl) ?_
        rw [hp, added, if_neg hfound, Bool.eq_false_of_not_eq_true hfound]
        rfl
  | write p reqID entry found =>
      have hp : s.user p = .write reqID entry found := by simpa [enabled] using henabled
      refine balance_inside h (s.put reqID entry).sm (by rw [hp]; rfl)
        (fun j hj => s.shards_put_of_ne entry hj) ?_
      have hinsert := ShardedCallbackMap.length_keys_insert (s.sm.shards (shardIdx reqID)) reqID
        entry
      have hput : (s.put reqID entry).sm.shards (shardIdx reqID) =
          (s.sm.shards (shardIdx reqID)).insert reqID entry := Function.update_self _ _ _
      rw [hp, hput, hinsert, h.unchanged p reqID entry found hp, LockedMap.found]
      split
      next hmem => rw [decide_eq_true hmem]; rfl
      next hmem => rw [decide_eq_false hmem]; rfl
  | take p reqID load =>
      have hp : s.user p = .take reqID load := by simpa [enabled] using henabled
      rw [LockedMap.apply]
      split
      next hfound =>
        exact balance_inside h (s.erase reqID).sm (by rw [hp]; rfl)
          (fun j hj => s.shards_erase_of_ne hj)
          (by rw [hp]; exact length_erase (of_decide_eq_true hfound))
      next =>
        refine balance_inside h s.sm (by rw [hp]; rfl) (fun _ _ => rfl) ?_
        rw [hp]
        rfl
  | visit p i reqID =>
      have hp : s.user p = .range i ∧ reqID ∈ s.sm.shards i := by simpa [enabled] using henabled
      have hi := s.sm.keyed i reqID hp.2
      subst hi
      exact balance_inside h (s.erase reqID).sm (by rw [hp.1]; rfl)
        (fun j hj => s.shards_erase_of_ne hj) (by rw [hp.1]; exact length_erase hp.2)
  | ranged p i =>
      have hp : s.user p = .range i ∧ (s.sm.shards i).entries.isEmpty = true := by
        simpa only [enabled, Bool.and_eq_true, decide_eq_true_eq] using henabled
      refine balance_inside h s.sm (by rw [hp.1]; rfl) (fun _ _ => rfl) ?_
      rw [hp.1]
      rfl
  | uncount p i all =>
      have hp : s.user p = .uncount i all := by simpa [enabled] using henabled
      refine balance_inside h (s.addPending (-1)).sm (by rw [hp]; rfl) (fun _ _ => rfl) ?_
      rw [hp]
      cases all <;> rfl
  | unlock p i all =>
      have hp : s.user p = .unlock i all := by simpa [enabled] using henabled
      have hheld : (s.user p).holds = some i := by rw [hp]; rfl
      refine congrArg (· + 0) (balance_lock h (h.held p i hheld) (fun j hj => ?_) ?_ rfl)
      · rw [hheld]
        exact fun heq => hj (Option.some.inj heq).symm
      · rw [books_of_holds h hheld, hp]
        rfl

theorem pending_apply (s : LockedMap) (action : MapAction) :
    (s.apply action).sm.pending + UInt64.ofNat action.subtracted =
      s.sm.pending + UInt64.ofNat (s.added action) := by
  cases action with
  | count p reqID entry =>
      rw [LockedMap.apply, added]
      split
      · rfl
      · exact UInt64.add_zero _
  | take p reqID load =>
      rw [LockedMap.apply]
      split <;> rfl
  | uncount p i all =>
      change s.sm.pending + -1 + 1 = s.sm.pending + 0
      rw [UInt64.add_assoc]
      rfl
  | _ => rfl

/-- The pending count is what the books show. -/
structure Balanced (s : LockedMap) : Prop where
  sound : Sound s
  exact : s.sm.pending = UInt64.ofNat s.balance

theorem balanced_new : Balanced newLockedMap := by
  have hbalance : newLockedMap.balance = 0 := by
    simp [balance, total, books, newLockedMap, ShardedCallbackMap.new]
  refine ⟨sound_new, ?_⟩
  rw [hbalance]
  rfl

theorem Balanced.apply (h : Balanced s) {action : MapAction} (henabled : s.enabled action = true) :
    Balanced (s.apply action) := by
  have hbalance := balance_apply h.sound henabled
  exact ⟨h.sound.apply henabled,
    eq_ofNat_of_exchange h.exact (s.pending_apply action) hbalance⟩

theorem balanced_of_reachable (hs : lockedMap.Reachable s) : Balanced s := by
  apply System.Reachable.invariant (P := Balanced) balanced_new _ hs
  intro s action t h hstep
  obtain ⟨henabled, rfl⟩ := System.guarded_step_eq_some_iff.mp hstep
  exact h.apply henabled

/-- Outside the locks nothing is owed. -/
theorem balance_eq_size (hfree : ∀ i, i < shardCount → s.lock i = none) :
    s.balance = s.sm.size := by
  unfold balance ShardedCallbackMap.size total
  apply Finset.sum_congr rfl
  intro i hi
  rw [id, books, hfree i (Finset.mem_range.mp hi)]
  rfl

section Atomic

/-- The map with the count that its entries should have. -/
def settled (s : LockedMap) : ShardedCallbackMap := s.sm.withPending (UInt64.ofNat s.sm.size)

/-- The operation of the map that takes effect in a step. -/
def effect (sm : ShardedCallbackMap) : MapAction → ShardedCallbackMap
  | .write _ reqID entry _ => sm.store reqID entry
  | .take _ reqID _ | .visit _ _ reqID => sm.delete reqID
  | _ => sm

theorem shards_settled (s : LockedMap) : s.settled.shards = s.sm.shards :=
  ShardedCallbackMap.shards_withPending _ _

theorem counted_settled (s : LockedMap) : s.settled.Counted := by
  rw [ShardedCallbackMap.Counted, ShardedCallbackMap.size, shards_settled]
  rfl

theorem settled_eq (hs : lockedMap.Reachable s) (hfree : ∀ i, i < shardCount → s.lock i = none) :
    s.settled = s.sm := by
  refine s.counted_settled.eq ?_ s.shards_settled
  rw [ShardedCallbackMap.Counted, (balanced_of_reachable hs).exact, balance_eq_size hfree]

theorem shards_apply (s : LockedMap) (action : MapAction) :
    (s.apply action).sm.shards = (effect s.sm action).shards := by
  cases action with
  | take p reqID load =>
      rw [LockedMap.apply]
      split
      · rfl
      next hfound =>
        have habsent : reqID ∉ s.sm.shards (shardIdx reqID) :=
          of_decide_eq_false (Bool.eq_false_of_not_eq_true hfound)
        have herase : (s.sm.shards (shardIdx reqID)).erase reqID = s.sm.shards (shardIdx reqID) :=
          AList.ext (List.kerase_of_notMem_keys habsent)
        change s.sm.shards = Function.update s.sm.shards _ ((s.sm.shards _).erase reqID)
        rw [herase, Function.update_eq_self]
  | count p reqID entry =>
      rw [LockedMap.apply]
      split <;> rfl
  | uncount p i all => exact ShardedCallbackMap.shards_withPending _ _
  | _ => rfl

theorem shards_effect_congr {sm sm' : ShardedCallbackMap} (h : sm.shards = sm'.shards)
    (action : MapAction) : (effect sm action).shards = (effect sm' action).shards := by
  cases action with
  | write p reqID entry found =>
      exact congrArg (fun shards : Nat → Shard => Function.update shards (shardIdx reqID)
        ((shards (shardIdx reqID)).insert reqID entry)) h
  | take p reqID load | visit p i reqID =>
      exact congrArg (fun shards : Nat → Shard => Function.update shards (shardIdx reqID)
        ((shards (shardIdx reqID)).erase reqID)) h
  | _ => exact h

theorem counted_effect {sm : ShardedCallbackMap} (h : sm.Counted) (action : MapAction) :
    (effect sm action).Counted := by
  cases action with
  | write p reqID entry found => exact h.store reqID entry
  | take p reqID load | visit p i reqID => exact h.delete reqID
  | _ => exact h

/-- The operations under the locks are the atomic operations of the map: each takes effect
in one step, and the other steps are not seen. -/
theorem settled_apply (s : LockedMap) (action : MapAction) :
    (s.apply action).settled = effect s.settled action := by
  refine (counted_settled _).eq (counted_effect s.counted_settled action) ?_
  rw [shards_settled, shards_apply]
  exact shards_effect_congr s.shards_settled.symm action

end Atomic

end LockedMap

section HandOut

/-- The stores are numbered. The history knows which of them wrote the entry of a request,
and which entries `LoadAndDelete` and `FailAll` have taken to hand them out. -/
structure Tickets where
  stores : Nat
  ticket : UInt64 → Nat
  handed : List Nat

namespace Tickets

def store (h : Tickets) (reqID : UInt64) : Tickets :=
  { h with stores := h.stores + 1, ticket := Function.update h.ticket reqID h.stores }

def handOut (h : Tickets) (reqID : UInt64) : Tickets :=
  { h with handed := h.handed ++ [h.ticket reqID] }

def record (s : LockedMap) (h : Tickets) : MapAction → Tickets
  | .write _ reqID _ _ => h.store reqID
  | .take _ reqID true => if s.found reqID then h.handOut reqID else h
  | .visit _ _ reqID => h.handOut reqID
  | _ => h

@[simp] theorem ticket_store_self (h : Tickets) (reqID : UInt64) :
    (h.store reqID).ticket reqID = h.stores :=
  Function.update_self _ _ _

theorem ticket_store_of_ne (h : Tickets) {reqID other : UInt64} (hne : other ≠ reqID) :
    (h.store reqID).ticket other = h.ticket other :=
  Function.update_of_ne hne _ _

end Tickets

/-- The map with the history of its entries. -/
def ticketedMap : System (LockedMap × Tickets) MapAction :=
  lockedMap.recording ⟨0, fun _ => 0, []⟩ Tickets.record

/-- The entries in the map have tickets of their own that were not handed out. -/
structure Ticketed (sm : ShardedCallbackMap) (h : Tickets) : Prop where
  issued : ∀ reqID entry, sm.lookup reqID = some entry → h.ticket reqID < h.stores
  apart : ∀ reqID entry other entry', sm.lookup reqID = some entry →
    sm.lookup other = some entry' → h.ticket reqID = h.ticket other → reqID = other
  unused : ∀ reqID entry, sm.lookup reqID = some entry → h.ticket reqID ∉ h.handed
  past : ∀ n ∈ h.handed, n < h.stores
  nodup : h.handed.Nodup

namespace Ticketed

variable {sm : ShardedCallbackMap} {h : Tickets} {reqID : UInt64} {entry : CallbackEntry}

theorem store (ht : Ticketed sm h) (reqID : UInt64) (entry : CallbackEntry) :
    Ticketed (sm.store reqID entry) (h.store reqID) := by
  have hold {r : UInt64} {e : CallbackEntry} (hne : r ≠ reqID)
      (hr : (sm.store reqID entry).lookup r = some e) :
      sm.lookup r = some e ∧ (h.store reqID).ticket r = h.ticket r :=
    ⟨sm.lookup_store_of_ne hne entry ▸ hr, h.ticket_store_of_ne hne⟩
  refine ⟨fun r e hr => ?_, fun r e r' e' hr hr' heq => ?_, fun r e hr hmem => ?_,
    fun n hn => Nat.lt_succ_of_lt (ht.past n hn), ht.nodup⟩
  · by_cases hne : r = reqID
    · subst hne
      rw [Tickets.ticket_store_self]
      exact Nat.lt_succ_self _
    · obtain ⟨hlookup, hticket⟩ := hold hne hr
      rw [hticket]
      exact Nat.lt_succ_of_lt (ht.issued r e hlookup)
  · -- the new ticket is larger than those of the other entries
    by_cases hne : r = reqID <;> by_cases hne' : r' = reqID
    · rw [hne, hne']
    · obtain ⟨hlookup, hticket⟩ := hold hne' hr'
      rw [hne, Tickets.ticket_store_self, hticket] at heq
      exact absurd (ht.issued r' e' hlookup) (by omega)
    · obtain ⟨hlookup, hticket⟩ := hold hne hr
      rw [hne', Tickets.ticket_store_self, hticket] at heq
      exact absurd (ht.issued r e hlookup) (by omega)
    · obtain ⟨hlookup, hticket⟩ := hold hne hr
      obtain ⟨hlookup', hticket'⟩ := hold hne' hr'
      rw [hticket, hticket'] at heq
      exact ht.apart r e r' e' hlookup hlookup' heq
  · by_cases hne : r = reqID
    · subst hne
      rw [Tickets.ticket_store_self] at hmem
      exact absurd (ht.past _ hmem) (Nat.lt_irrefl _)
    · obtain ⟨hlookup, hticket⟩ := hold hne hr
      rw [hticket] at hmem
      exact ht.unused r e hlookup hmem

/-- An entry may leave the map without being handed out. -/
theorem delete (ht : Ticketed sm h) (reqID : UInt64) : Ticketed (sm.delete reqID) h := by
  have hback {r : UInt64} {e : CallbackEntry} (hr : (sm.delete reqID).lookup r = some e) :=
    (ShardedCallbackMap.lookup_of_lookup_delete hr).2
  exact ⟨fun r e hr => ht.issued r e (hback hr),
    fun r e r' e' hr hr' => ht.apart r e r' e' (hback hr) (hback hr'),
    fun r e hr => ht.unused r e (hback hr), ht.past, ht.nodup⟩

theorem handOut (ht : Ticketed sm h) (hreq : sm.lookup reqID = some entry) :
    Ticketed (sm.delete reqID) (h.handOut reqID) := by
  have hdelete := ht.delete reqID
  refine ⟨hdelete.issued, hdelete.apart, fun r e hr hmem => ?_, fun n hn => ?_, ?_⟩
  · obtain ⟨hne, hlookup⟩ := ShardedCallbackMap.lookup_of_lookup_delete hr
    rcases List.mem_append.mp hmem with hmem | hmem
    · exact ht.unused r e hlookup hmem
    · exact hne (ht.apart r e reqID entry hlookup hreq (List.mem_singleton.mp hmem))
  · rcases List.mem_append.mp hn with hn | hn
    · exact ht.past n hn
    · rw [List.mem_singleton.mp hn]
      exact ht.issued reqID entry hreq
  · rw [Tickets.handOut, List.nodup_append_comm]
    exact List.nodup_cons.mpr ⟨ht.unused reqID entry hreq, ht.nodup⟩

end Ticketed

namespace LockedMap

variable {s : LockedMap}

theorem lookup_settled_of_mem {i : Nat} {reqID : UInt64} (h : reqID ∈ s.sm.shards i) :
    ∃ entry, s.settled.lookup reqID = some entry := by
  rw [← s.shards_settled] at h
  exact Option.isSome_iff_exists.mp ((s.settled.mem_shards_iff.mp h).2)

theorem ticketed_apply {h : Tickets} (ht : Ticketed s.settled h) {action : MapAction}
    (henabled : s.enabled action = true) :
    Ticketed (s.apply action).settled (h.record s action) := by
  rw [settled_apply]
  cases action with
  | write p reqID entry found => exact ht.store reqID entry
  | take p reqID load =>
      cases load with
      | false => exact ht.delete reqID
      | true =>
          rw [Tickets.record]
          split
          next hfound =>
            obtain ⟨entry, hentry⟩ := lookup_settled_of_mem (of_decide_eq_true hfound)
            exact ht.handOut hentry
          next => exact ht.delete reqID
  | visit p i reqID =>
      have hp : s.user p = .range i ∧ reqID ∈ s.sm.shards i := by simpa [enabled] using henabled
      obtain ⟨entry, hentry⟩ := lookup_settled_of_mem hp.2
      exact ht.handOut hentry
  | _ => exact ht

end LockedMap

/-- Whenever no lock is held the pending count is the number of entries over the 256 shards,
and at any time it has what the goroutines inside the locks owe as well, so there is one to
subtract wherever one is subtracted. Every entry is in the shard of its request, and no
store is handed out twice. -/
theorem callbackMap_keeps_books {t : LockedMap × Tickets} (ht : ticketedMap.Reachable t) :
    ((∀ i, i < shardCount → t.1.lock i = none) →
      t.1.sm.pending = UInt64.ofNat t.1.sm.size ∧
        (t.1.sm.size < UInt64.size → t.1.sm.pending.toNat = t.1.sm.size)) ∧
      (∀ i, ∀ reqID ∈ t.1.sm.shards i, reqID.toNat % 256 = i) ∧
      t.1.sm.pending = UInt64.ofNat t.1.balance ∧
      (∀ p i all u, lockedMap.step t.1 (.uncount p i all) = some u →
        0 < t.1.balance ∧ u.balance + 1 = t.1.balance ∧
        (t.1.balance < UInt64.size →
          0 < t.1.sm.pending ∧ u.sm.pending.toNat + 1 = t.1.sm.pending.toNat)) ∧
      (∀ n ∈ t.2.handed, n < t.2.stores) ∧ t.2.handed.Nodup := by
  have hinvariant := System.recording_invariant
    (P := fun s h => LockedMap.Balanced s ∧ Ticketed s.settled h) ?_ ?_ ht
  · obtain ⟨h, hticketed⟩ := hinvariant
    refine ⟨fun hfree => ?_, t.1.sm.keyed, h.exact, ?_, hticketed.past, hticketed.nodup⟩
    · have hsize := h.exact
      rw [LockedMap.balance_eq_size hfree] at hsize
      refine ⟨hsize, fun hlt => ?_⟩
      rw [hsize]
      exact UInt64.toNat_ofNat_of_lt hlt
    · intro p i all u hstep
      obtain ⟨henabled, rfl⟩ := System.guarded_step_eq_some_iff.mp hstep
      have hbalance := LockedMap.balance_apply h.sound henabled
      simp only [MapAction.subtracted, LockedMap.added, Nat.add_zero] at hbalance
      refine ⟨by omega, hbalance, fun hlt => ?_⟩
      exact pos_and_toNat_add_one h.exact (h.apply henabled).exact hbalance hlt
  · refine ⟨LockedMap.balanced_new, ?_, ?_, ?_, ?_, List.nodup_nil⟩ <;> intros <;> contradiction
  · intro s h action u hinvariant hstep
    obtain ⟨henabled, rfl⟩ := System.guarded_step_eq_some_iff.mp hstep
    exact ⟨hinvariant.1.apply henabled, LockedMap.ticketed_apply hinvariant.2 henabled⟩

/-- Three callbacks are stored, the first of them is answered, and `FailAll` has passed the
shard of the first two. -/
def twoShardsFailed : List MapAction :=
  [.store 0 1 ⟨none⟩, .lock 0 1, .count 0 1 ⟨none⟩, .write 0 1 ⟨none⟩ false, .unlock 0 1 false,
    .store 0 257 ⟨none⟩, .lock 0 1, .count 0 257 ⟨none⟩, .write 0 257 ⟨none⟩ false,
    .unlock 0 1 false, .store 0 2 ⟨some 0⟩, .lock 0 2, .count 0 2 ⟨some 0⟩,
    .write 0 2 ⟨some 0⟩ false, .unlock 0 2 false, .loadAndDelete 1 1, .lock 1 1, .take 1 1 true,
    .uncount 1 1 false, .unlock 1 1 false, .failAll 2, .lock 2 0, .ranged 2 0, .unlock 2 0 true,
    .lock 2 1, .visit 2 1 257, .uncount 2 1 true, .ranged 2 1, .unlock 2 1 true]

def halfFailed : LockedMap × Tickets := ticketedMap.after twoShardsFailed

theorem callbackMap_keeps_books_halfFailed :
    halfFailed.1.user 2 = .failAll 2 ∧ halfFailed.1.sm.pending = 1 ∧
      halfFailed.1.sm.pending = UInt64.ofNat halfFailed.1.sm.size ∧
      halfFailed.2.handed = [0, 1] ∧ halfFailed.2.handed.Nodup := by
  obtain ⟨hfree, -, -, -, -, hnodup⟩ :=
    callbackMap_keeps_books (System.reachable_after twoShardsFailed)
  exact ⟨by decide +kernel, by decide +kernel, (hfree (by decide +kernel)).1, by decide +kernel,
    hnodup⟩

end HandOut

end ActorCluster.Client
