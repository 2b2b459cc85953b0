import ActorCluster.Foundation.Tally
import ActorCluster.Node.Keepers
import ActorCluster.Node.SoleWriter

/-! # The backlog behind the overload gate

`HandleBatch` compares the number of pending messages with the limit once for each
batch and then sends the envelopes of the batch one by one. A batch past the gate
keeps an allowance, one message for each envelope that it has not sent yet. The
pending messages and the allowances together never exceed what the last admitted
batch found below the limit and `K` whole batches.

The counter has one for each message that a call is about to append, that a mailbox
holds, and that a loop or a drain has taken and not subtracted yet. The subtractions
therefore never take it below zero.
-/

namespace ActorCluster.Node

open Remote Wallet Transition ActorCluster.Runtime

/-- What the call may still send for the envelope at hand. -/
def Serving.allowance : Serving → Nat
  | .kill | .close _ | .killSignal _ | .spawn _ | .swap _ | .link _ | .wake _ => 0
  | _ => 1

/-- What a call past the gate may still send. -/
def Thread.allowance : Thread → Nat
  | .idle | .gate _ _ | .reject _ _ => 0
  | .next _ rest | .push _ rest _ => rest.length
  | .serving call pc => call.rest.length + pc.allowance

/-- The envelopes that a call has before it. -/
def Thread.size : Thread → Nat
  | .idle => 0
  | .gate _ rest | .reject _ rest | .next _ rest | .push _ rest _ => rest.length
  | .serving call _ => call.rest.length + 1

/-- The message that a call has counted and not appended yet. -/
def Thread.counted : Thread → Nat
  | .serving _ (.swap _) => 1
  | _ => 0

/-- The message that a loop has taken and not subtracted yet. -/
def Loop.counted : Loop → Nat
  | .uncount _ => 1
  | _ => 0

/-- The message that a drain has taken and not subtracted yet. -/
def Drain.counted : Drain → Nat
  | .uncount _ _ => 1
  | _ => 0

/-- The messages of an actor that are pending. -/
def LocalActor.backlog (actor : LocalActor) : Nat :=
  actor.mailbox.queue.length + actor.loop.counted

/-- The actor has not been started: it has no messages and no loop. -/
structure LocalActor.Vacant (actor : LocalActor) : Prop where
  queue : actor.mailbox.queue = []
  loop : actor.loop = .dead

theorem Serving.allowance_le (pc : Serving) : pc.allowance ≤ 1 := by
  unfold allowance
  split <;> decide

theorem Thread.allowance_le_size (t : Thread) : t.allowance ≤ t.size := by
  cases t with
  | serving call pc => exact Nat.add_le_add_left pc.allowance_le _
  | _ => simp [allowance, size]

/-- A call goes on without a message more than it was allowed. -/
structure Thread.Continues (t u : Thread) : Prop where
  counted : u.counted = t.counted
  allowance : u.allowance ≤ t.allowance
  size : u.size ≤ t.size

theorem LocalActor.backlog_stop (actor : LocalActor) : actor.stop.backlog = actor.backlog := by
  unfold LocalActor.stop
  split <;> rfl

theorem LocalActor.Vacant.stop {actor : LocalActor} (h : actor.Vacant) : actor.stop.Vacant := by
  unfold LocalActor.stop
  split
  · exact ⟨h.queue, h.loop⟩
  · exact h

theorem LocalActor.backlog_link (actor : LocalActor) (p : Nat) :
    LocalActor.backlog { actor with mailbox := actor.mailbox.link p } = actor.backlog := by
  simp [backlog, Mailbox.link, linkEntry]

theorem LocalActor.backlog_swap (actor : LocalActor) (p : Nat) (env : RemoteEnvelope) :
    LocalActor.backlog { actor with mailbox := actor.mailbox.swap p env } = actor.backlog + 1 := by
  simp only [backlog, Mailbox.swap, List.length_append, List.length_singleton]
  omega

theorem LocalActor.backlog_uncount {actor : LocalActor} {env : RemoteEnvelope}
    (h : actor.loop = .uncount env) :
    LocalActor.backlog { actor with loop := .handle env } + 1 = actor.backlog := by
  simp [backlog, h, Loop.counted]

/-- A message that is taken stays pending with the one who took it. -/
theorem LocalActor.backlog_dequeue {actor : LocalActor} (h : actor.loop = .dequeue) :
    actor.dequeue.backlog = actor.backlog := by
  unfold LocalActor.dequeue
  split
  next env hfront =>
    obtain ⟨rest, hqueue⟩ := Mailbox.front_eq_some_iff.mp hfront
    simp [backlog, Mailbox.pop, hqueue, h, Loop.counted]
  next => simp [backlog, h, Loop.counted]

theorem LocalActor.backlog_pop {actor : LocalActor} {env : RemoteEnvelope}
    (h : actor.mailbox.front = some env) :
    LocalActor.backlog { actor with mailbox := actor.mailbox.pop } + 1 = actor.backlog := by
  obtain ⟨rest, hqueue⟩ := Mailbox.front_eq_some_iff.mp h
  simp only [backlog, Mailbox.pop, hqueue, List.tail_cons, List.length_cons]
  omega

namespace NodeState

/-- The messages that the counter should have, by where they are. -/
def backlog (n : NodeState) (busy : Finset Nat) : Nat :=
  Tally.total Thread.counted busy n.thread +
    Tally.total LocalActor.backlog (Finset.range n.started) n.actor +
    Tally.total Drain.counted (Finset.range n.drains) n.drain

/-- At most `K` calls are busy, with at most `M` envelopes each; the counter is exact,
and the allowances leave it below the bound. -/
structure Backlogged (n : NodeState) (busy : Finset Nat) (K M bound : Nat) : Prop where
  idle : ∀ p, p ∉ busy → n.thread p = .idle
  few : busy.card ≤ K
  size : ∀ p, (n.thread p).size ≤ M
  vacant : ∀ a, n.started ≤ a → (n.actor a).Vacant
  gauge : n.mailboxPending.toNat = n.backlog busy
  room : n.mailboxPending.toNat + Tally.total Thread.allowance busy n.thread ≤ bound

namespace Backlogged

variable {cfg : Config} {n n' : NodeState} {busy : Finset Nat} {K M bound : Nat}

theorem congr (h : n.Backlogged busy K M bound) (hthread : n'.thread = n.thread)
    (hactor : n'.actor = n.actor) (hstarted : n'.started = n.started) (hdrain : n'.drain = n.drain)
    (hdrains : n'.drains = n.drains) (hpending : n'.mailboxPending = n.mailboxPending) :
    n'.Backlogged busy K M bound := by
  have hbacklog : n'.backlog busy = n.backlog busy := by
    rw [NodeState.backlog, hthread, hactor, hstarted, hdrain, hdrains, NodeState.backlog]
  refine ⟨?_, h.few, ?_, ?_, ?_, ?_⟩
  · rw [hthread]
    exact h.idle
  · rw [hthread]
    exact h.size
  · rw [hactor, hstarted]
    exact h.vacant
  · rw [hpending, hbacklog]
    exact h.gauge
  · rw [hpending, hthread]
    exact h.room

theorem enqueueResult (h : n.Backlogged busy K M bound) (reply : BatchSender) (res : RemoteResult) :
    (n.enqueueResult reply res).Backlogged busy K M bound :=
  h.congr rfl rfl rfl rfl rfl rfl

theorem setRoute (h : n.Backlogged busy K M bound) (rk : ResultRouteKey)
    (reply : Option BatchSender) : (n.setRoute rk reply).Backlogged busy K M bound :=
  h.congr rfl rfl rfl rfl rfl rfl

theorem setShard (h : n.Backlogged busy K M bound) (key : ActorKey) (entry : Option Nat) :
    (n.setShard key entry).Backlogged busy K M bound :=
  h.congr rfl rfl rfl rfl rfl rfl

theorem enqueue (h : n.Backlogged busy K M bound) (queued : QueuedResult) :
    (n.enqueue queued).Backlogged busy K M bound :=
  h.congr rfl rfl rfl rfl rfl rfl

theorem setLock (h : n.Backlogged busy K M bound) (i : UInt64) (holder : Option Holder) :
    (n.setLock i holder).Backlogged busy K M bound :=
  h.congr rfl rfl rfl rfl rfl rfl

theorem mem_busy (h : n.Backlogged busy K M bound) {p : Nat} {t : Thread} (hp : n.thread p = t)
    (ht : t ≠ .idle) : p ∈ busy := by
  by_contra hmem
  exact ht (hp.symm.trans (h.idle p hmem))

theorem idle_update (h : n.Backlogged busy K M bound) {p : Nat} (hp : p ∈ busy) (u : Thread) :
    ∀ r, r ∉ busy → Function.update n.thread p u r = .idle := by
  intro r hr
  have hne : r ≠ p := fun hrp => hr (hrp ▸ hp)
  rw [Function.update_of_ne hne]
  exact h.idle r hr

theorem size_update (h : n.Backlogged busy K M bound) (p : Nat) {u : Thread} (hu : u.size ≤ M) :
    ∀ r, (Function.update n.thread p u r).size ≤ M := by
  intro r
  by_cases hr : r = p
  · subst hr
    rwa [Function.update_self]
  · rw [Function.update_of_ne hr]
    exact h.size r

/-- A call takes a step of its own. -/
theorem setThread (h : n.Backlogged busy K M bound) {p : Nat} {t u : Thread} (hp : n.thread p = t)
    (ht : t ≠ .idle) (hu : t.Continues u) : (n.setThread p u).Backlogged busy K M bound := by
  subst hp
  refine ⟨h.idle_update (h.mem_busy rfl ht) u, h.few,
    h.size_update p (Nat.le_trans hu.size (h.size p)), h.vacant, ?_, ?_⟩
  · have hbacklog : (n.setThread p u).backlog busy = n.backlog busy := by
      unfold NodeState.backlog NodeState.setThread
      rw [Tally.total_update_of_eq hu.counted]
    rw [hbacklog]
    exact h.gauge
  · exact Nat.le_trans (Nat.add_le_add_left (Tally.total_update_le hu.allowance) _) h.room

/-- An actor changes and keeps its pending messages. -/
theorem setActor (h : n.Backlogged busy K M bound) {a : Nat} {actor : LocalActor}
    (hbacklog : actor.backlog = (n.actor a).backlog)
    (hvacant : (n.actor a).Vacant → actor.Vacant) :
    (n.setActor a actor).Backlogged busy K M bound := by
  refine ⟨h.idle, h.few, h.size, fun b hb => ?_, ?_, h.room⟩
  · by_cases hba : b = a
    · subst hba
      rw [setActor_actor_self]
      exact hvacant (h.vacant b hb)
    · rw [setActor_actor_of_ne _ _ hba]
      exact h.vacant b hb
  · have htotal : (n.setActor a actor).backlog busy = n.backlog busy := by
      unfold NodeState.backlog NodeState.setActor
      rw [Tally.total_update_of_eq hbacklog]
    rw [htotal]
    exact h.gauge

/-- Only an actor that was started has a loop. -/
theorem lt_started (h : n.Backlogged busy K M bound) {a : Nat} (hloop : (n.actor a).loop ≠ .dead) :
    a < n.started := by
  by_contra ha
  exact hloop (h.vacant a (Nat.le_of_not_lt ha)).loop

theorem setDrain (h : n.Backlogged busy K M bound) {d : Nat} {drain : Drain}
    (hcounted : drain.counted = (n.drain d).counted) :
    (n.setDrain d drain).Backlogged busy K M bound := by
  refine ⟨h.idle, h.few, h.size, h.vacant, ?_, h.room⟩
  have hbacklog : (n.setDrain d drain).backlog busy = n.backlog busy := by
    unfold NodeState.backlog NodeState.setDrain
    rw [Tally.total_update_of_eq hcounted]
  rw [hbacklog]
  exact h.gauge

/-- A message is counted, out of the allowance of its call. -/
theorem count (h : n.Backlogged busy K M bound) (hbound : bound < UInt64.size) {p : Nat}
    {call : Call} {a : Nat} (hp : n.thread p = .serving call (.count a)) :
    (n.addPending.setThread p (.serving call (.swap a))).Backlogged busy K M bound := by
  have hmem : p ∈ busy := h.mem_busy hp nofun
  have hcounted := Tally.total_update Thread.counted n.thread hmem (.serving call (.swap a))
  have hallowance := Tally.total_update Thread.allowance n.thread hmem (.serving call (.swap a))
  have hsize := h.size p
  rw [hp] at hcounted hallowance hsize
  simp only [Thread.counted, Thread.allowance, Serving.allowance] at hcounted hallowance
  have hroom := h.room
  have hgauge := h.gauge
  have hadd : (n.mailboxPending + 1).toNat = n.mailboxPending.toNat + 1 :=
    Tally.toNat_add_ofNat (k := 1) (by omega)
  refine ⟨h.idle_update hmem _, h.few, h.size_update p hsize, h.vacant, ?_, ?_⟩
  · unfold NodeState.backlog at hgauge ⊢
    simp only [NodeState.setThread, NodeState.addPending]
    omega
  · simp only [NodeState.setThread, NodeState.addPending]
    omega

theorem vacant_update (h : n.Backlogged busy K M bound) {a : Nat} (ha : a < n.started)
    (actor : LocalActor) : ∀ b, n.started ≤ b → (Function.update n.actor a actor b).Vacant := by
  intro b hb
  rw [Function.update_of_ne (Nat.ne_of_gt (Nat.lt_of_lt_of_le ha hb))]
  exact h.vacant b hb

/-- A counted message goes to the mailbox. -/
theorem swap (h : n.Backlogged busy K M bound) {p : Nat} {call : Call} {a : Nat}
    {actor : LocalActor} (hp : n.thread p = .serving call (.swap a)) (ha : a < n.started)
    (hactor : actor.backlog = (n.actor a).backlog + 1) :
    ((n.setActor a actor).setThread p (.serving call (.link a))).Backlogged busy K M bound := by
  have hmem : p ∈ busy := h.mem_busy hp nofun
  have hcounted := Tally.total_update Thread.counted n.thread hmem (.serving call (.link a))
  have hbacklog := Tally.total_update LocalActor.backlog n.actor (Finset.mem_range.mpr ha) actor
  have hallowance : Tally.total Thread.allowance busy
      (Function.update n.thread p (.serving call (.link a))) =
      Tally.total Thread.allowance busy n.thread := Tally.total_update_of_eq (by rw [hp]; rfl)
  have hsize := h.size p
  rw [hp] at hcounted hsize
  simp only [Thread.counted] at hcounted
  refine ⟨h.idle_update hmem _, h.few, h.size_update p hsize, h.vacant_update ha _, ?_, ?_⟩
  · have hgauge := h.gauge
    unfold NodeState.backlog at hgauge ⊢
    simp only [NodeState.setThread, NodeState.setActor]
    omega
  · simp only [NodeState.setThread, NodeState.setActor, hallowance]
    exact h.room

/-- The loop of an actor subtracts the message that it took. -/
theorem uncount (h : n.Backlogged busy K M bound) {a : Nat} {actor : LocalActor}
    (ha : a < n.started) (hactor : actor.backlog + 1 = (n.actor a).backlog) :
    (n.subPending.setActor a actor).Backlogged busy K M bound := by
  have hbacklog := Tally.total_update LocalActor.backlog n.actor (Finset.mem_range.mpr ha) actor
  have hroom := h.room
  have hgauge := h.gauge
  unfold NodeState.backlog at hgauge
  have hsub : (n.mailboxPending - 1).toNat = n.mailboxPending.toNat - 1 :=
    Tally.toNat_sub_one (by omega)
  refine ⟨h.idle, h.few, h.size, h.vacant_update ha _, ?_, ?_⟩
  · unfold NodeState.backlog
    simp only [NodeState.setActor, NodeState.subPending]
    omega
  · simp only [NodeState.setActor, NodeState.subPending]
    omega

/-- A drain takes a message. -/
theorem collect (h : n.Backlogged busy K M bound) (hk : n.Kept) {d a : Nat}
    {envs envs' : List RemoteEnvelope} {actor : LocalActor} (hd : n.drain d = .collect a envs)
    (hactor : actor.backlog + 1 = (n.actor a).backlog) :
    ((n.setActor a actor).setDrain d (.uncount a envs')).Backlogged busy K M bound := by
  have hlt : d < n.drains := hk.lt_drains (by rw [hd]; nofun)
  have ha : a < n.started := hk.drained d a (by rw [hd]; rfl)
  have hcounted := Tally.total_update Drain.counted n.drain (Finset.mem_range.mpr hlt)
    (.uncount a envs')
  have hbacklog := Tally.total_update LocalActor.backlog n.actor (Finset.mem_range.mpr ha) actor
  rw [hd] at hcounted
  simp only [Drain.counted] at hcounted
  refine ⟨h.idle, h.few, h.size, h.vacant_update ha _, ?_, h.room⟩
  have hgauge := h.gauge
  unfold NodeState.backlog at hgauge ⊢
  simp only [NodeState.setDrain, NodeState.setActor]
  omega

/-- A drain subtracts the message that it took. -/
theorem drainUncount (h : n.Backlogged busy K M bound) (hk : n.Kept) {d a : Nat}
    {envs : List RemoteEnvelope} (hd : n.drain d = .uncount a envs) :
    (n.subPending.setDrain d (.collect a envs)).Backlogged busy K M bound := by
  have hlt : d < n.drains := hk.lt_drains (by rw [hd]; nofun)
  have hcounted := Tally.total_update Drain.counted n.drain (Finset.mem_range.mpr hlt)
    (.collect a envs)
  rw [hd] at hcounted
  simp only [Drain.counted] at hcounted
  have hroom := h.room
  have hgauge := h.gauge
  unfold NodeState.backlog at hgauge
  have hsub : (n.mailboxPending - 1).toNat = n.mailboxPending.toNat - 1 :=
    Tally.toNat_sub_one (by omega)
  refine ⟨h.idle, h.few, h.size, h.vacant, ?_, ?_⟩
  · unfold NodeState.backlog
    simp only [NodeState.setDrain, NodeState.subPending]
    omega
  · simp only [NodeState.setDrain, NodeState.subPending]
    omega

/-- A new drain has taken nothing. -/
theorem spawn (h : n.Backlogged busy K M bound) (a : Nat) :
    ({ n.setDrain n.drains (.await a) with drains := n.drains + 1 } : NodeState).Backlogged
      busy K M bound := by
  refine ⟨h.idle, h.few, h.size, h.vacant, ?_, h.room⟩
  have hcounted := Tally.total_range_succ Drain.counted n.drain n.drains (.await a)
  have hgauge := h.gauge
  unfold NodeState.backlog at hgauge ⊢
  simp only [NodeState.setDrain]
  rw [hcounted]
  exact hgauge

/-- A new actor has no messages. -/
theorem start (h : n.Backlogged busy K M bound) (key : ActorKey) (b : BusinessActor) :
    ({ n.setActor n.started (.start key b) with started := n.started + 1 } : NodeState).Backlogged
      busy K M bound := by
  refine ⟨h.idle, h.few, h.size, fun a ha => ?_, ?_, h.room⟩
  · rw [show ({ n.setActor n.started (.start key b) with started := n.started + 1 } :
      NodeState).actor a = n.actor a from Function.update_of_ne (Nat.ne_of_gt ha) _ _]
    exact h.vacant a (Nat.le_of_succ_le ha)
  · have hbacklog := Tally.total_range_succ LocalActor.backlog n.actor n.started (.start key b)
    have hgauge := h.gauge
    unfold NodeState.backlog at hgauge ⊢
    simp only [NodeState.setActor]
    rw [hbacklog]
    exact hgauge

/-- A batch passes the gate only below the limit, and all allowances together are
no more than `K` whole batches. -/
theorem gate (h : n.Backlogged busy K M (cfg.limit.toNat - 1 + K * M)) {p : Nat}
    {sender : BatchSender} {batch : List RemoteEnvelope} (hp : n.thread p = .gate sender batch)
    (hlimit : n.mailboxPending < cfg.limit) :
    (n.setThread p (.next sender batch)).Backlogged busy K M (cfg.limit.toNat - 1 + K * M) := by
  have hmem : p ∈ busy := h.mem_busy hp nofun
  have hsize := h.size p
  rw [hp] at hsize
  have hsizes := h.size_update p (u := .next sender batch) hsize
  have hpending : n.mailboxPending.toNat < cfg.limit.toNat := UInt64.lt_iff_toNat_lt.mp hlimit
  refine ⟨h.idle_update hmem _, h.few, hsizes, h.vacant, ?_, ?_⟩
  · have hbacklog : (n.setThread p (.next sender batch)).backlog busy = n.backlog busy := by
      unfold NodeState.backlog NodeState.setThread
      rw [Tally.total_update_of_eq (by rw [hp]; rfl)]
    rw [hbacklog]
    exact h.gauge
  · have htotal : Tally.total Thread.allowance busy
        (Function.update n.thread p (.next sender batch)) ≤ busy.card * M :=
      Tally.total_le_card_mul fun r => Nat.le_trans (Thread.allowance_le_size _) (hsizes r)
    have hcard : busy.card * M ≤ K * M := Nat.mul_le_mul_right M h.few
    have hroom : n.mailboxPending.toNat + Tally.total Thread.allowance busy
        (Function.update n.thread p (.next sender batch)) ≤ cfg.limit.toNat - 1 + K * M := by
      omega
    exact hroom

/-- Another call begins while fewer than `K` are busy. -/
theorem arrive (h : n.Backlogged busy K M bound) {busy' : Finset Nat} (hfew : busy'.card < K)
    (hidle : ∀ p, p ∉ busy' → n.thread p = .idle) (p : Nat) {sender : BatchSender}
    {batch : List RemoteEnvelope} (hp : n.thread p = .idle) (hbatch : batch.length ≤ M) :
    (n.setThread p (.gate sender batch)).Backlogged (insert p busy') K M bound := by
  -- the calls outside either set are idle, and an idle call weighs nothing
  have hthreads : ∀ weight : Thread → Nat, weight .idle = 0 → weight (.gate sender batch) = 0 →
      Tally.total weight (insert p busy') (Function.update n.thread p (.gate sender batch)) =
        Tally.total weight busy n.thread := by
    intro weight hnone hgate
    rw [Tally.total_update_of_eq (by rw [hp, hnone, hgate])]
    apply Tally.total_eq_of_support
    · intro r hr
      rw [hidle r fun hmem => hr (Finset.mem_insert_of_mem hmem), hnone]
    · intro r hr
      rw [h.idle r hr, hnone]
  refine ⟨fun r hr => ?_, ?_, h.size_update p hbatch, h.vacant, ?_, ?_⟩
  · rw [Finset.mem_insert, not_or] at hr
    exact (setThread_thread_of_ne _ _ hr.1).trans (hidle r hr.2)
  · exact (Finset.card_insert_le p busy').trans hfew
  · have hgauge := h.gauge
    unfold NodeState.backlog at hgauge ⊢
    simp only [NodeState.setThread, hthreads Thread.counted rfl rfl]
    exact hgauge
  · simp only [NodeState.setThread, hthreads Thread.allowance rfl rfl]
    exact h.room

/-- A call goes on with the envelope at hand. -/
theorem serve (h : n.Backlogged busy K M bound) {p : Nat} {call : Call} {pc pc' : Serving}
    (hp : n.thread p = .serving call pc)
    (hcounted : (Thread.serving call pc').counted = (Thread.serving call pc).counted)
    (hallowance : pc'.allowance ≤ pc.allowance) :
    (n.setThread p (.serving call pc')).Backlogged busy K M bound :=
  h.setThread hp nofun ⟨hcounted, Nat.add_le_add_left hallowance _, Nat.le_refl _⟩

/-- A call refuses the envelope at hand. -/
theorem refuse (h : n.Backlogged busy K M bound) {p : Nat} {call : Call} {pc : Serving}
    (hp : n.thread p = .serving call pc) (hcounted : (Thread.serving call pc).counted = 0)
    (res : RemoteResult) :
    (n.setThread p (.push call.sender call.rest res)).Backlogged busy K M bound :=
  h.setThread hp nofun ⟨hcounted.symm, Nat.le_add_right _ _, Nat.le_succ _⟩

/-- An actor is told to stop or woken up. -/
theorem stop (h : n.Backlogged busy K M bound) (a : Nat) :
    (n.setActor a (n.actor a).stop).Backlogged busy K M bound :=
  h.setActor (n.actor a).backlog_stop LocalActor.Vacant.stop

theorem signal (h : n.Backlogged busy K M bound) (a : Nat) :
    (n.setActor a (n.actor a).signal).Backlogged busy K M bound :=
  h.setActor rfl fun hvacant => ⟨hvacant.queue, hvacant.loop⟩

/-- The loop of an actor goes on without taking or subtracting a message. -/
theorem turn (h : n.Backlogged busy K M bound) {a : Nat} {actor : LocalActor} {loop : Loop}
    (hloop : (n.actor a).loop = loop) (hlive : loop ≠ .dead)
    (hqueue : actor.mailbox.queue.length = (n.actor a).mailbox.queue.length)
    (hcounted : actor.loop.counted = loop.counted) :
    (n.setActor a actor).Backlogged busy K M bound := by
  subst hloop
  apply h.setActor
  · exact congrArg₂ (· + ·) hqueue hcounted
  · exact fun hvacant => absurd hvacant.loop hlive

/-- A step of a call, of an actor, of a drain or of another goroutine of the node. -/
theorem step {db : Database} {action : Action}
    (h : n.Backlogged busy K M (cfg.limit.toNat - 1 + K * M))
    (hbound : cfg.limit.toNat - 1 + K * M < UInt64.size) (hw : n.Wellformed) (hk : n.Kept)
    (harrive : ∀ p sender batch, action ≠ .arrive p sender batch)
    (henabled : n.enabled cfg action = true) :
    (n.apply cfg db action).Backlogged busy K M (cfg.limit.toNat - 1 + K * M) := by
  cases action with
  | arrive p sender batch => exact absurd rfl (harrive p sender batch)
  | gate p sender batch =>
      have hp : n.thread p = .gate sender batch := by simpa [enabled] using henabled
      simp only [apply]
      split
      next => exact h.setThread hp (by simp) ⟨rfl, Nat.le_refl _, Nat.le_refl _⟩
      next hlimit => exact h.gate hp (UInt64.not_le.mp hlimit)
  | reject p sender env rest =>
      have hp : n.thread p = .reject sender (env :: rest) ∧ n.hasRoom = true := by
        simpa [enabled] using henabled
      exact (h.enqueueResult sender _).setThread hp.1 (by simp) ⟨rfl, Nat.le_refl _, Nat.le_succ _⟩
  | next p sender env rest =>
      have hp : n.thread p = .next sender (env :: rest) := by simpa [enabled] using henabled
      simp only [apply]
      split
      next => exact h.setThread hp (by simp) ⟨rfl, Nat.le_refl _, Nat.le_refl _⟩
      next => exact h.setThread hp (by simp) ⟨rfl, Nat.le_succ _, Nat.le_succ _⟩
  | push p sender rest res =>
      have hp : n.thread p = .push sender rest res ∧ n.hasRoom = true := by
        simpa [enabled] using henabled
      exact (h.enqueueResult sender _).setThread hp.1 (by simp) ⟨rfl, Nat.le_refl _, Nat.le_refl _⟩
  | finish p sender =>
      have hp : n.thread p = .reject sender [] ∨ n.thread p = .next sender [] := by
        simpa [enabled] using henabled
      rcases hp with hp | hp
      · exact h.setThread hp (by simp) ⟨rfl, Nat.le_refl _, Nat.le_refl _⟩
      · exact h.setThread hp (by simp) ⟨rfl, Nat.le_refl _, Nat.le_refl _⟩
  | owner p call answer =>
      have hp : n.thread p = .serving call .owner ∧ answer.isSome = cfg.resolver := by
        simpa [enabled] using henabled
      simp only [apply]
      split
      next => exact h.serve hp.1 rfl (Nat.le_refl _)
      next => exact h.serve hp.1 rfl (Nat.zero_le _)
  | lookup p call =>
      have hp : n.thread p = .serving call .lookup ∧ n.unlocked call.key = true := by
        simpa [enabled] using henabled
      simp only [apply]
      cases n.shards call.key with
      | none => exact h.serve hp.1 rfl (Nat.le_refl _)
      | some a => exact h.serve hp.1 rfl (Nat.le_refl _)
  | create p call now =>
      have hp : n.thread p = .serving call .create ∧ n.unlocked call.key = true := by
        simpa [enabled] using henabled
      simp only [apply]
      cases n.shards call.key with
      | none => exact (h.setLock _ _).serve hp.1 rfl (Nat.le_refl _)
      | some a => exact (h.setLock _ _).serve hp.1 rfl (Nat.le_refl _)
  | loadSnapshot p call now closeErr =>
      have hp : n.thread p = .serving call (.loadSnapshot now) := by simpa [enabled] using henabled
      simp only [apply]
      split
      next => exact (h.setLock _ none).refuse hp rfl _
      next => exact h.serve hp rfl (Nat.le_refl _)
  | loadEvents p call now snapshot closeErr =>
      have hp : n.thread p = .serving call (.loadEvents now snapshot) := by
        simpa [enabled] using henabled
      simp only [apply]
      split
      next => exact (h.setLock _ none).refuse hp rfl _
      next b _ =>
        exact (((h.setShard _ _).setLock _ none).start call.key b).serve hp rfl (Nat.le_refl _)
  | route p call a =>
      have hp : n.thread p = .serving call (.route a) := by simpa [enabled] using henabled
      exact (h.setRoute _ _).serve hp rfl (Nat.le_refl _)
  | send p call a =>
      have hp : n.thread p = .serving call (.send a) := by simpa [enabled] using henabled
      simp only [apply]
      split <;> exact h.serve hp rfl (Nat.le_refl _)
  | count p call a =>
      have hp : n.thread p = .serving call (.count a) := by simpa [enabled] using henabled
      exact h.count hbound hp
  | swap p call a =>
      have hp : n.thread p = .serving call (.swap a) := by simpa [enabled] using henabled
      exact h.swap hp (hw.targets p call _ a hp rfl).1 ((n.actor a).backlog_swap p call.env)
  | link p call a =>
      have hp : n.thread p = .serving call (.link a) := by simpa [enabled] using henabled
      exact (h.setActor ((n.actor a).backlog_link p) fun hvacant =>
        ⟨by simp [Mailbox.link, linkEntry, hvacant.queue], hvacant.loop⟩).serve hp rfl
        (Nat.le_refl _)
  | wake p call a =>
      have hp : n.thread p = .serving call (.wake a) := by simpa [enabled] using henabled
      exact (h.signal a).setThread hp (by simp) ⟨rfl, Nat.le_refl _, Nat.le_succ _⟩
  | unroute p call a =>
      have hp : n.thread p = .serving call (.unroute a) := by simpa [enabled] using henabled
      exact (h.setRoute _ none).serve hp rfl (Nat.le_refl _)
  | forget p call a =>
      have hp : n.thread p = .serving call (.forget a) ∧ n.unlocked call.key = true := by
        simpa [enabled] using henabled
      exact (h.setShard _ _).serve hp.1 rfl (Nat.le_refl _)
  | kill p call =>
      have hp : n.thread p = .serving call .kill ∧ n.unlocked call.key = true := by
        simpa [enabled] using henabled
      simp only [apply]
      cases n.shards call.key with
      | none => exact (h.setShard _ none).refuse hp.1 rfl _
      | some a => exact (h.setShard _ none).serve hp.1 rfl (Nat.le_refl _)
  | close p call a =>
      have hp : n.thread p = .serving call (.close a) := by simpa [enabled] using henabled
      simp only [apply]
      split <;> exact (h.stop a).serve hp rfl (Nat.le_refl _)
  | killSignal p call a =>
      have hp : n.thread p = .serving call (.killSignal a) := by simpa [enabled] using henabled
      exact (h.signal a).serve hp rfl (Nat.le_refl _)
  | spawn p call a =>
      have hp : n.thread p = .serving call (.spawn a) := by simpa [enabled] using henabled
      exact (h.spawn a).refuse hp rfl _
  | await d a =>
      have hd : n.drain d = .await a ∧ (n.actor a).Dead := by simpa [enabled] using henabled
      exact h.setDrain (by rw [hd.1]; rfl)
  | collect d a envs =>
      have hd : n.drain d = .collect a envs := by simpa [enabled] using henabled
      simp only [apply]
      cases hfront : (n.actor a).mailbox.front with
      | none =>
          exact (h.setActor rfl fun hvacant => ⟨hvacant.queue, hvacant.loop⟩).setDrain
            (by rw [show (n.setActor a _).drain d = _ from hd]; rfl)
      | some env => exact h.collect hk hd (LocalActor.backlog_pop hfront)
  | drainUncount d a envs =>
      have hd : n.drain d = .uncount a envs := by simpa [enabled] using henabled
      exact h.drainUncount hk hd
  | answer d a env envs =>
      have hd : n.drain d = .answer a (env :: envs) := by simpa [enabled] using henabled
      simp only [apply]
      cases n.replyRoutes (routeKey env) with
      | none => exact (h.setRoute _ none).setDrain (congrArg Drain.counted hd).symm
      | some reply => exact (h.setRoute _ none).setDrain (congrArg Drain.counted hd).symm
  | drainPush d a env reply envs =>
      have hd : n.drain d = .push a env reply envs ∧ n.hasRoom = true := by
        simpa [enabled] using henabled
      exact (h.enqueueResult reply _).setDrain (congrArg Drain.counted hd.1).symm
  | drainEnd d a =>
      have hd : n.drain d = .answer a [] := by simpa [enabled] using henabled
      exact h.setDrain (congrArg Drain.counted hd).symm
  | dequeue a =>
      have hloop : (n.actor a).loop = .dequeue := by simpa [enabled] using henabled
      exact h.setActor (LocalActor.backlog_dequeue hloop) fun hvacant =>
        absurd (hloop.symm.trans hvacant.loop) (by simp)
  | uncount a env =>
      have hloop : (n.actor a).loop = .uncount env := by simpa [enabled] using henabled
      exact h.uncount (h.lt_started (by rw [hloop]; simp)) (LocalActor.backlog_uncount hloop)
  | handle a env now =>
      have hloop : (n.actor a).loop = .handle env := by simpa [enabled] using henabled
      exact h.turn hloop (by simp) rfl rfl
  | execute a env now outcome =>
      have hloop : (n.actor a).loop = .execute env now := by simpa [enabled] using henabled
      have hproduced : ({ n with produced := (n.execute db a env now outcome).produced } :
          NodeState).Backlogged busy K M (cfg.limit.toNat - 1 + K * M) :=
        h.congr rfl rfl rfl rfl rfl rfl
      exact hproduced.turn hloop (by simp) rfl rfl
  | emit a res =>
      have hloop : (n.actor a).loop = .emit res := by simpa [enabled] using henabled
      simp only [apply]
      cases n.replyRoutes (resultKey res) with
      | none => exact (h.setRoute _ none).turn hloop (by simp) rfl rfl
      | some reply => exact (h.setRoute _ none).turn hloop (by simp) rfl rfl
  | deliver a queued =>
      have hloop : (n.actor a).loop = .push queued ∧ n.hasRoom = true := by
        simpa [enabled] using henabled
      exact (h.enqueue queued).turn hloop.1 (by simp) rfl rfl
  | checkStatus a =>
      have hloop : (n.actor a).loop = .missed := by simpa [enabled] using henabled
      simp only [apply]
      split <;> exact h.turn hloop (by simp) rfl rfl
  | wakeUp a =>
      have hloop : (n.actor a).loop = .waiting ∧ (n.actor a).mailbox.wake = true := by
        simpa [enabled] using henabled
      exact h.turn hloop.1 (by simp) rfl rfl
  | exit a =>
      have hloop : (n.actor a).loop = .exit := by simpa [enabled] using henabled
      exact h.turn hloop (by simp) rfl rfl
  | sweepClose | stopScan => exact (h.stop _).congr rfl rfl rfl rfl rfl rfl
  | sweepSignal | stopSignal => exact (h.signal _).congr rfl rfl rfl rfl rfl rfl
  | _ => exact h.congr rfl rfl rfl rfl rfl rfl

theorem newNode (K M : Nat) : newNode.Backlogged ∅ K M (cfg.limit.toNat - 1 + K * M) where
  idle _ _ := rfl
  few := Nat.zero_le K
  size _ := Nat.zero_le M
  vacant _ _ := ⟨rfl, rfl⟩
  gauge := rfl
  room := Nat.zero_le _

end Backlogged

end NodeState

/-- A call begins only while fewer than `K` others are running, with a batch of at
most `M` envelopes. -/
def Streams (K M : Nat) (r : NodeRun) : Event → Prop
  | .act (.arrive _ _ batch) =>
      batch.length ≤ M ∧
        ∃ busy : Finset Nat, busy.card < K ∧ ∀ p, p ∉ busy → r.node.thread p = .idle
  | _ => True

theorem backlogged_of_run {cfg : Config} {K M : Nat} {r : NodeRun}
    (hbound : cfg.limit.toNat - 1 + K * M < UInt64.size)
    (hr : (node cfg).ReachableIf (Streams K M) r) :
    ∃ busy, r.node.Wellformed ∧ r.node.Kept ∧
      r.node.Backlogged busy K M (cfg.limit.toNat - 1 + K * M) := by
  have hinit : ∃ busy, newNode.Wellformed ∧ newNode.Kept ∧
      newNode.Backlogged busy K M (cfg.limit.toNat - 1 + K * M) :=
    ⟨∅, NodeState.wellformed_newNode, NodeState.kept_newNode, .newNode K M⟩
  refine System.ReachableIf.invariant (P := fun r => ∃ busy, r.node.Wellformed ∧ r.node.Kept ∧
    r.node.Backlogged busy K M (cfg.limit.toNat - 1 + K * M)) hinit ?_ hr
  rintro r event r' ⟨busy, hw, hk, h⟩ hguard hstep
  obtain ⟨henabled, rfl⟩ := System.guarded_step_eq_some_iff.mp hstep
  cases event with
  | land key snapshot => exact ⟨busy, hw, hk, h⟩
  | act action =>
      have hw' : (r.node.apply cfg r.db action).Wellformed := hw.step henabled
      have hk' : (r.node.apply cfg r.db action).Kept := hk.step hw henabled
      by_cases harrive : ∃ p sender batch, action = .arrive p sender batch
      · obtain ⟨p, sender, batch, rfl⟩ := harrive
        obtain ⟨hbatch, busy', hfew, hidle⟩ := hguard
        have hp : r.node.thread p = .idle := by
          simpa [NodeRun.enabled, NodeState.enabled] using henabled
        exact ⟨insert p busy', hw', hk',
          (h.arrive hfew hidle p hp hbatch).congr rfl rfl rfl rfl rfl rfl⟩
      · exact ⟨busy, hw', hk', h.step hbound hw hk
          (fun p sender batch haction => harrive ⟨p, sender, batch, haction⟩) henabled⟩

/-- The overload gate bounds the backlog of the process, whatever the interleaving of
the calls with the loops of the actors, the evictions and the drains. -/
theorem backlog_bounded {cfg : Config} {K M : Nat} {r : NodeRun}
    (hr : (node cfg).ReachableIf (Streams K M) r) :
    r.node.mailboxPending.toNat ≤ cfg.limit.toNat - 1 + K * M := by
  by_cases hbound : cfg.limit.toNat - 1 + K * M < UInt64.size
  · obtain ⟨busy, -, -, h⟩ := backlogged_of_run hbound hr
    exact Nat.le_trans (Nat.le_add_right _ _) h.room
  · have hlt : r.node.mailboxPending.toNat < UInt64.size := UInt64.toNat_lt_size _
    omega

/-- A node that refuses every batch while a message is pending. -/
def oneMessage : Config := ⟨1, true, "node-a"⟩

/-- Two deposits pass the gate together, and both are sent. -/
def bothPassed : List Event :=
  [Event.act (.gate 0 0 [deposit "1" 1]), .act (.gate 1 1 [deposit "2" 2])] ++
    [Event.act (.next 0 0 (deposit "1" 1) []),
      .act (.owner 0 ⟨0, deposit "1" 1, []⟩ (some (.ok "node-a"))),
      .act (.lookup 0 ⟨0, deposit "1" 1, []⟩), .act (.create 0 ⟨0, deposit "1" 1, []⟩ 0)] ++
    rehydration 0 (deposit "1" 1) ++ dispatch 0 (deposit "1" 1) 0 ++
    [Event.act (.next 1 1 (deposit "2" 2) []),
      .act (.owner 1 ⟨1, deposit "2" 2, []⟩ (some (.ok "node-a"))),
      .act (.lookup 1 ⟨1, deposit "2" 2, []⟩)] ++ dispatch 1 (deposit "2" 2) 0

/-- The deposits arrive on two streams. -/
def twoBatches : List Event :=
  [Event.act (.arrive 0 0 [deposit "1" 1])] ++ [Event.act (.arrive 1 1 [deposit "2" 2])] ++
    bothPassed

theorem backlog_bounded_twoBatches :
    ((node oneMessage).after twoBatches).node.mailboxPending = 2 ∧
      ((node oneMessage).after twoBatches).node.mailboxPending.toNat ≤
        oneMessage.limit.toNat - 1 + 2 * 1 := by
  have hfirst : (node oneMessage).ReachableIf (Streams 2 1)
      ((node oneMessage).after [.act (.arrive 0 0 [deposit "1" 1])]) :=
    System.reachableIf_singleton ⟨Nat.le_refl 1, ∅, by decide, fun _ _ => rfl⟩
  have hguard : Streams 2 1 ((node oneMessage).after [.act (.arrive 0 0 [deposit "1" 1])])
      (.act (.arrive 1 1 [deposit "2" 2])) :=
    ⟨Nat.le_refl 1, {0}, by decide, fun p hp => Function.update_of_ne (by simpa using hp) _ _⟩
  have hreachable : (node oneMessage).ReachableIf (Streams 2 1)
      ((node oneMessage).after twoBatches) := by
    apply (hfirst.concat hguard).append
    simp only [bothPassed, rehydration, dispatch, List.cons_append, List.nil_append,
      List.forall_mem_cons, Streams, implies_true, true_and]
    exact List.forall_mem_nil _
  exact ⟨by decide +kernel, backlog_bounded hreachable⟩

end ActorCluster.Node
