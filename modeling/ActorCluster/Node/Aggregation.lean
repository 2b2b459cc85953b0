import ActorCluster.Foundation.Grouping
import ActorCluster.Node.Step

/-! # The aggregator

A flush regroups the batch by stream and sends each group in slices. It neither
loses nor repeats a result, so every result put on the channel is in the
channel, in the batch, in a response still to be sent, or sent.
-/

namespace ActorCluster.Node

open Remote Transition
open scoped List

/-- The results of some responses, each with the stream it goes to. -/
def unpack (responses : List (BatchSender × List RemoteResult)) : List QueuedResult :=
  responses.flatMap fun response => response.2.map fun res => ⟨res, response.1⟩

/-- The aggregator may hold a batch. -/
def Aggregator.collects : Aggregator → Bool
  | .select | .flush _ => true
  | .send _ _ | .returned => false

@[simp] theorem unpack_append (first second : List (BatchSender × List RemoteResult)) :
    unpack (first ++ second) = unpack first ++ unpack second :=
  List.flatMap_append

theorem slices_flatten (ress : List RemoteResult) : (slices ress).flatten = ress := by
  rw [slices, ← List.flatMap_def]
  exact Grouping.flatMap_slices_eq (by decide) ress

/-- What is sent to one stream are the results of that stream, in order. -/
theorem unpack_slices (batch : List QueuedResult) (reply : BatchSender) :
    unpack ((slices (resultsFor batch reply)).map fun ress => (reply, ress)) =
      batch.filter fun queued => queued.reply = reply := by
  have hunpack : ∀ groups : List (List RemoteResult),
      unpack (groups.map fun ress => (reply, ress)) =
        groups.flatten.map fun res => ⟨res, reply⟩ := by
    intro groups
    induction groups with
    | nil => rfl
    | cons ress groups ih =>
        rw [List.map_cons, List.flatten_cons, List.map_append, ← ih]
        rfl
  rw [hunpack, slices_flatten, resultsFor, List.map_map]
  conv_rhs => rw [← List.map_id (batch.filter _)]
  apply List.map_congr_left
  intro queued hqueued
  have hreply : queued.reply = reply := by simpa using (List.mem_filter.mp hqueued).2
  rw [Function.comp, ← hreply]
  rfl

/-- A flush visits the streams in some order. -/
theorem unpack_responses (batch : List QueuedResult) (order : List BatchSender) :
    unpack (responses batch order) =
      order.flatMap fun reply => batch.filter fun queued => queued.reply = reply := by
  rw [responses, unpack, List.flatMap_assoc]
  apply List.flatMap_congr
  intro reply _
  exact unpack_slices batch reply

/-- A flush sends every result of the batch once, to its own stream. -/
theorem unpack_responses_perm {batch : List QueuedResult} {order : List BatchSender}
    (horder : order ~ (batch.map QueuedResult.reply).dedup) :
    unpack (responses batch order) ~ batch := by
  rw [unpack_responses]
  apply Grouping.flatMap_filter_perm
  · exact horder.nodup_iff.mpr (List.nodup_dedup _)
  · intro queued hqueued
    exact horder.symm.subset (List.mem_dedup.mpr (List.mem_map_of_mem hqueued))

/-- The aggregator has taken `done`. -/
def Aggregator.closing : Aggregator → Bool
  | .flush last | .send _ last => last
  | .select => false
  | .returned => true

/-- The results of the responses that a flush has yet to send. -/
def Aggregator.pending : Aggregator → List QueuedResult
  | .send responses _ => unpack responses
  | _ => []

namespace NodeState

/-- Where the results put on the channel are. -/
def Conserved (n : NodeState) : Prop :=
  n.put ~ n.resultCh ++ (n.batch ++ (n.aggregator.pending ++ unpack n.sent))

variable {cfg : Config} {n : NodeState} {db : Database} {action : Action}

theorem conserved_newNode : newNode.Conserved := .refl _

theorem Conserved.enqueue (h : n.Conserved) (queued : QueuedResult) :
    (n.enqueue queued).Conserved := by
  unfold Conserved NodeState.enqueue
  dsimp only
  rw [List.append_assoc]
  refine (h.append_right [queued]).trans ?_
  rw [List.append_assoc]
  exact List.perm_append_comm.append_left _

theorem Conserved.step (h : n.Conserved) (henabled : n.enabled cfg action = true) :
    (n.apply cfg db action).Conserved := by
  have hkeep (n' : NodeState) (hput : n'.put = n.put) (hresultCh : n'.resultCh = n.resultCh)
      (hbatch : n'.batch = n.batch) (hpending : n'.aggregator.pending = n.aggregator.pending)
      (hsent : n'.sent = n.sent) : n'.Conserved := by
    rw [Conserved, hput, hresultCh, hbatch, hpending, hsent]
    exact h
  cases action with
  | reject p sender env rest => exact h.enqueue _
  | push p sender rest res => exact h.enqueue _
  | drainPush d a env reply envs => exact h.enqueue _
  | deliver a queued => exact h.enqueue _
  | receive queued rest =>
      have hselect : n.aggregator = .select ∧ n.resultCh = queued :: rest := by
        simpa [enabled] using henabled
      have hpending : (n.apply cfg db (.receive queued rest)).aggregator.pending = [] := by
        simp only [apply]
        split <;> rfl
      unfold Conserved at h ⊢
      rw [hselect.1, hselect.2] at h
      rw [hpending]
      refine h.trans ?_
      simp only [apply, List.append_assoc]
      exact List.perm_middle.symm.trans (List.perm_middle.symm.append_left rest)
  | tick =>
      have hselect : n.aggregator = .select := by simpa [enabled] using henabled
      exact hkeep _ rfl rfl rfl (by rw [hselect]; rfl) rfl
  | takeDone =>
      have hselect : n.aggregator = .select ∧ n.done := by simpa [enabled] using henabled
      exact hkeep _ rfl rfl rfl (by rw [hselect.1]; rfl) rfl
  | flush last order =>
      have hflush : n.aggregator = .flush last ∧
          order ~ (n.batch.map QueuedResult.reply).dedup := by
        simpa [enabled] using henabled
      unfold Conserved at h ⊢
      rw [hflush.1] at h
      exact h.trans (((unpack_responses_perm hflush.2).symm.append_right _).append_left _)
  | respond response rest last =>
      have hsend : n.aggregator = .send (response :: rest) last := by
        simpa [enabled] using henabled
      unfold Conserved at h ⊢
      rw [hsend] at h
      refine h.trans (.append_left _ (.append_left _ ?_))
      have hhead : unpack (response :: rest) = unpack [response] ++ unpack rest :=
        unpack_append [response] rest
      simp only [apply, Aggregator.pending, unpack_append]
      rw [hhead, List.append_assoc, ← List.append_assoc (unpack rest)]
      exact List.perm_append_comm
  | flushEnd last =>
      have hsend : n.aggregator = .send [] last := by simpa [enabled] using henabled
      refine hkeep _ rfl rfl rfl ?_ rfl
      simp only [apply, hsend]
      split <;> rfl
  | loadSnapshot p call now closeErr =>
      simp only [apply]
      split <;> exact hkeep _ rfl rfl rfl rfl rfl
  | loadEvents p call now snapshot closeErr =>
      simp only [apply]
      split <;> exact hkeep _ rfl rfl rfl rfl rfl
  | _ => exact hkeep _ rfl rfl rfl rfl rfl

end NodeState

end ActorCluster.Node
