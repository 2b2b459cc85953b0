import ActorCluster.Node.Aggregation

/-! # The aggregator as a demultiplexer

The aggregator takes the results of all streams off one channel, collects them in a
batch and sends them on, grouped by stream and cut into slices. Whatever the streams
of the results, the ticks and the order in which the groups are visited, each stream
gets exactly its own results, in the order in which they were received.
-/

namespace ActorCluster.Node

open Remote Transition
open scoped List

/-- The results of all responses sent to one stream. -/
def sentTo (responses : List (BatchSender × List RemoteResult)) (reply : BatchSender) :
    List RemoteResult :=
  (responses.filter fun response => response.1 = reply).flatMap Prod.snd

@[simp] theorem sentTo_append (first second : List (BatchSender × List RemoteResult))
    (reply : BatchSender) :
    sentTo (first ++ second) reply = sentTo first reply ++ sentTo second reply := by
  rw [sentTo, List.filter_append, List.flatMap_append, sentTo, sentTo]

@[simp] theorem resultsFor_append (first second : List QueuedResult) (reply : BatchSender) :
    resultsFor (first ++ second) reply = resultsFor first reply ++ resultsFor second reply := by
  rw [resultsFor, List.filter_append, List.map_append, resultsFor, resultsFor]

/-- The results of one response go to its stream. -/
theorem resultsFor_map (ress : List RemoteResult) (sender reply : BatchSender) :
    resultsFor (ress.map fun res => ⟨res, sender⟩) reply = if sender = reply then ress else [] := by
  induction ress with
  | nil => simp [resultsFor]
  | cons res rest ih =>
      unfold resultsFor at ih ⊢
      by_cases hreply : sender = reply
      · rw [if_pos hreply] at ih ⊢
        simpa [hreply] using ih
      · rw [if_neg hreply]
        simp [hreply]

theorem sentTo_eq_resultsFor (responses : List (BatchSender × List RemoteResult))
    (reply : BatchSender) : sentTo responses reply = resultsFor (unpack responses) reply := by
  induction responses with
  | nil => rfl
  | cons response rest ih =>
      rw [unpack, List.flatMap_cons, ← unpack, resultsFor_append, resultsFor_map, ← ih, sentTo,
        List.filter_cons]
      by_cases hreply : response.1 = reply
      · rw [if_pos (decide_eq_true hreply), if_pos hreply, List.flatMap_cons, sentTo]
      · rw [if_neg (by simpa using hreply), if_neg hreply, List.nil_append, sentTo]

/-- A flush sends to each stream the results that the batch has for it. -/
theorem sentTo_responses {batch : List QueuedResult} {order : List BatchSender}
    (horder : order ~ (batch.map QueuedResult.reply).dedup) (reply : BatchSender) :
    sentTo (responses batch order) reply = resultsFor batch reply := by
  rw [sentTo_eq_resultsFor, unpack_responses, resultsFor, resultsFor]
  congr 1
  apply Grouping.filter_flatMap_filter
  · exact horder.nodup_iff.mpr (List.nodup_dedup _)
  · intro queued hqueued
    exact horder.symm.subset (List.mem_dedup.mpr (List.mem_map_of_mem hqueued))

/-- A response is neither empty nor too large. -/
def Sized (response : BatchSender × List RemoteResult) : Prop :=
  1 ≤ response.2.length ∧ response.2.length ≤ maxBatchSize

theorem sized_of_mem_responses {batch : List QueuedResult} {order : List BatchSender}
    {response : BatchSender × List RemoteResult} (h : response ∈ responses batch order) :
    Sized response := by
  obtain ⟨reply, _, hslice⟩ := List.mem_flatMap.mp h
  obtain ⟨ress, hress, rfl⟩ := List.mem_map.mp hslice
  obtain ⟨j, hj, rfl⟩ := List.mem_map.mp hress
  have hcount := List.mem_range.mp hj
  have hstart : j * maxBatchSize < (resultsFor batch reply).length := by
    have hle := (Nat.le_div_iff_mul_le (show 0 < maxBatchSize by decide)).mp hcount
    simp only [maxBatchSize] at hle ⊢
    omega
  have hpositive : 0 < maxBatchSize := by decide
  unfold Sized
  rw [List.length_take, List.length_drop]
  omega

/-- The responses that a flush has yet to send. -/
def Aggregator.unsent : Aggregator → List (BatchSender × List RemoteResult)
  | .send responses _ => responses
  | _ => []

namespace NodeState

/-- The results for one stream that the aggregator has received and not yet sent. -/
def withheld (n : NodeState) (reply : BatchSender) : List RemoteResult :=
  sentTo n.aggregator.unsent reply ++ resultsFor n.batch reply

/-- The aggregator is at its beginning: whatever is in the channel, nothing has been
received. -/
def AggregatorStarts (n : NodeState) : Prop :=
  n.aggregator = .select ∧ n.batch = [] ∧ n.sent = [] ∧ n.put = n.resultCh

/-- What has been received so far, and what has become of it. -/
structure Demultiplexes (n : NodeState) (received : List QueuedResult) : Prop where
  put : n.put = received ++ n.resultCh
  routed : ∀ reply, sentTo n.sent reply ++ n.withheld reply = resultsFor received reply
  sized : ∀ response ∈ n.sent ++ n.aggregator.unsent, Sized response
  emptied : n.aggregator.collects = false → n.batch = []

/-- The results received after a step. -/
def receivedAfter (received : List QueuedResult) : Action → List QueuedResult
  | .receive queued _ => received ++ [queued]
  | _ => received

namespace Demultiplexes

variable {cfg : Config} {n : NodeState} {db : Database} {action : Action}
variable {received : List QueuedResult}

theorem start (h : n.AggregatorStarts) : n.Demultiplexes [] := by
  obtain ⟨hselect, hbatch, hsent, hput⟩ := h
  refine ⟨hput, fun reply => ?_, ?_, fun _ => hbatch⟩
  · rw [withheld, hselect, hbatch, hsent]
    rfl
  · rw [hselect, hsent]
    nofun

theorem congr {n' : NodeState} (h : n.Demultiplexes received) (hput : n'.put = n.put)
    (hresultCh : n'.resultCh = n.resultCh) (hbatch : n'.batch = n.batch)
    (haggregator : n'.aggregator = n.aggregator) (hsent : n'.sent = n.sent) :
    n'.Demultiplexes received where
  put := by rw [hput, hresultCh, h.put]
  routed reply := by
    rw [withheld, hsent, hbatch, haggregator]
    exact h.routed reply
  sized := by
    rw [hsent, haggregator]
    exact h.sized
  emptied := by
    rw [haggregator, hbatch]
    exact h.emptied

/-- Whatever is put on the channel waits there. -/
theorem enqueue (h : n.Demultiplexes received) (queued : QueuedResult) :
    (n.enqueue queued).Demultiplexes received where
  put := by
    simp only [NodeState.enqueue, h.put, List.append_assoc]
  routed := h.routed
  sized := h.sized
  emptied := h.emptied

/-- The loop moves on and sends nothing. -/
theorem turn (h : n.Demultiplexes received) {aggregator : Aggregator}
    (hunsent : aggregator.unsent = n.aggregator.unsent)
    (hcollects : aggregator.collects = false → n.batch = []) :
    Demultiplexes { n with aggregator := aggregator } received where
  put := h.put
  routed reply := by
    rw [← h.routed reply, withheld, withheld, hunsent]
  sized := by
    rw [hunsent]
    exact h.sized
  emptied := hcollects

/-- The next result is taken off the channel. -/
theorem receive (h : n.Demultiplexes received) (hselect : n.aggregator = .select)
    {queued : QueuedResult} {rest : List QueuedResult} (hchannel : n.resultCh = queued :: rest)
    {aggregator : Aggregator} (hunsent : aggregator.unsent = [])
    (hcollects : aggregator.collects = true) :
    Demultiplexes { n with
      resultCh := rest, batch := n.batch ++ [queued], aggregator := aggregator }
      (received ++ [queued]) where
  put := by
    rw [h.put, hchannel, List.append_assoc]
    rfl
  routed reply := by
    have hrouted := h.routed reply
    rw [withheld, hselect] at hrouted
    rw [withheld, hunsent, resultsFor_append, resultsFor_append, ← hrouted]
    simp only [List.append_assoc]
    rfl
  sized := by
    have hsized := h.sized
    rw [hselect] at hsized
    rw [hunsent]
    exact hsized
  emptied hidle := by
    rw [hcollects] at hidle
    cases hidle

/-- A flush groups the batch. -/
theorem flush (h : n.Demultiplexes received) {last : Bool} (hflush : n.aggregator = .flush last)
    {order : List BatchSender} (horder : order ~ (n.batch.map QueuedResult.reply).dedup) :
    Demultiplexes { n with batch := [], aggregator := .send (responses n.batch order) last }
      received where
  put := h.put
  routed reply := by
    have hrouted := h.routed reply
    rw [withheld, hflush] at hrouted
    rw [← hrouted, withheld]
    simp only [Aggregator.unsent, sentTo_responses horder, resultsFor, List.filter_nil,
      List.map_nil, List.append_nil]
    rfl
  sized response hresponse := by
    rcases List.mem_append.mp hresponse with hsent | hunsent
    · exact h.sized response (List.mem_append_left _ hsent)
    · exact sized_of_mem_responses hunsent
  emptied _ := rfl

/-- The next response is sent. -/
theorem respond (h : n.Demultiplexes received) {response : BatchSender × List RemoteResult}
    {rest : List (BatchSender × List RemoteResult)} {last : Bool}
    (hsend : n.aggregator = .send (response :: rest) last) :
    Demultiplexes { n with sent := n.sent ++ [response], aggregator := .send rest last }
      received where
  put := h.put
  routed reply := by
    have hhead : sentTo (response :: rest) reply = sentTo [response] reply ++ sentTo rest reply :=
      sentTo_append [response] rest reply
    rw [← h.routed reply, withheld, withheld, hsend]
    simp only [Aggregator.unsent, sentTo_append, hhead, List.append_assoc]
  sized := by
    have hsized := h.sized
    rw [hsend] at hsized
    simpa only [Aggregator.unsent, List.append_assoc, List.singleton_append] using hsized
  emptied _ := h.emptied (by rw [hsend]; rfl)

/-- Every step keeps the books. -/
theorem step (h : n.Demultiplexes received) (henabled : n.enabled cfg action = true) :
    (n.apply cfg db action).Demultiplexes (receivedAfter received action) := by
  cases action with
  | reject p sender env rest => exact (h.enqueue _).congr rfl rfl rfl rfl rfl
  | push p sender rest res => exact (h.enqueue _).congr rfl rfl rfl rfl rfl
  | drainPush d a env reply envs => exact (h.enqueue _).congr rfl rfl rfl rfl rfl
  | deliver a queued => exact (h.enqueue _).congr rfl rfl rfl rfl rfl
  | receive queued rest =>
      have hselect : n.aggregator = .select ∧ n.resultCh = queued :: rest := by
        simpa [enabled] using henabled
      refine h.receive hselect.1 hselect.2 ?_ ?_ <;> split <;> rfl
  | tick =>
      have hselect : n.aggregator = .select := by simpa [enabled] using henabled
      exact h.turn (by rw [hselect]; rfl) (by rintro ⟨⟩)
  | takeDone =>
      have hselect : n.aggregator = .select ∧ n.done := by simpa [enabled] using henabled
      exact h.turn (by rw [hselect.1]; rfl) (by rintro ⟨⟩)
  | flush last order =>
      have hflush : n.aggregator = .flush last ∧
          order ~ (n.batch.map QueuedResult.reply).dedup := by
        simpa [enabled] using henabled
      exact h.flush hflush.1 hflush.2
  | respond response rest last =>
      have hsend : n.aggregator = .send (response :: rest) last := by
        simpa [enabled] using henabled
      exact h.respond hsend
  | flushEnd last =>
      have hsend : n.aggregator = .send [] last := by simpa [enabled] using henabled
      refine h.turn ?_ fun _ => h.emptied (by rw [hsend]; rfl)
      rw [hsend]
      split <;> rfl
  | loadSnapshot p call now closeErr =>
      simp only [apply]
      split <;> exact h.congr rfl rfl rfl rfl rfl
  | loadEvents p call now snapshot closeErr =>
      simp only [apply]
      split <;> exact h.congr rfl rfl rfl rfl rfl
  | _ => exact h.congr rfl rfl rfl rfl rfl

end Demultiplexes

end NodeState

variable {cfg : Config}

theorem demultiplexes_of_run {r₀ r : NodeRun} (hstart : r₀.node.AggregatorStarts)
    (hrun : (node cfg).Run r₀ r) : ∃ received, r.node.Demultiplexes received := by
  refine hrun.preserves (P := fun r => ∃ received, r.node.Demultiplexes received) ?_
    ⟨[], .start hstart⟩
  rintro r event t ⟨received, h⟩ _ hstep
  obtain ⟨henabled, rfl⟩ := System.guarded_step_eq_some_iff.mp hstep
  cases event with
  | act action => exact ⟨_, h.step henabled⟩
  | land => exact ⟨received, h⟩

/-- Whatever the channel holds when the aggregator starts and whatever is put on it
afterwards, what was sent to a stream and what is withheld for it are together the
results received for it, in the order in which they were received. Responses are
neither empty nor too large, and nothing is withheld after the last flush. -/
theorem aggregation_faithful {r₀ r : NodeRun} (hstart : r₀.node.AggregatorStarts)
    (hrun : (node cfg).Run r₀ r) :
    ∃ received, r.node.put = received ++ r.node.resultCh ∧
      (∀ reply, sentTo r.node.sent reply ++ r.node.withheld reply = resultsFor received reply) ∧
      (∀ response ∈ r.node.sent, 1 ≤ response.2.length ∧ response.2.length ≤ 1000) ∧
      (r.node.aggregator = .returned →
        ∀ reply, sentTo r.node.sent reply = resultsFor received reply) := by
  obtain ⟨received, h⟩ := demultiplexes_of_run hstart hrun
  refine ⟨received, h.put, h.routed, fun response hresponse =>
    h.sized response (List.mem_append_left _ hresponse), fun hreturned reply => ?_⟩
  have hwithheld : r.node.withheld reply = [] := by
    rw [NodeState.withheld, hreturned, h.emptied (by rw [hreturned]; rfl)]
    rfl
  rw [← h.routed reply, hwithheld, List.append_nil]

/-- A refusal of the request with the given number. -/
def refusalOf (requestId : UInt64) : RemoteResult :=
  badRequestResult ⟨1, 42, "", requestId, 1, []⟩

/-- Results of two streams, in turn. -/
def interleaved : List QueuedResult := [⟨refusalOf 1, 7⟩, ⟨refusalOf 2, 8⟩, ⟨refusalOf 3, 7⟩]

/-- They are in the channel when the aggregator starts, and it is told to end. -/
def loaded : NodeRun :=
  ⟨{ newNode with resultCh := interleaved, put := interleaved, done := true }, .empty⟩

/-- The aggregator receives all three and sends them with its last flush. -/
def separateFlush : List Event :=
  [.act (.receive ⟨refusalOf 1, 7⟩ [⟨refusalOf 2, 8⟩, ⟨refusalOf 3, 7⟩]),
    .act (.receive ⟨refusalOf 2, 8⟩ [⟨refusalOf 3, 7⟩]), .act (.receive ⟨refusalOf 3, 7⟩ []),
    .act .takeDone, .act (.flush true [7, 8]),
    .act (.respond (7, [refusalOf 1, refusalOf 3]) [(8, [refusalOf 2])] true),
    .act (.respond (8, [refusalOf 2]) [] true), .act (.flushEnd true)]

theorem aggregation_faithful_interleaved :
    ∃ r, (node ⟨0, false, ""⟩).Run loaded r ∧ r.node.aggregator = .returned ∧
      sentTo r.node.sent 7 = [refusalOf 1, refusalOf 3] ∧
      sentTo r.node.sent 8 = [refusalOf 2] := by
  obtain ⟨r, hr⟩ : ∃ r, (node ⟨0, false, ""⟩).exec loaded separateFlush = some r := ⟨_, rfl⟩
  have hrun : (node ⟨0, false, ""⟩).Run loaded r :=
    System.runIf_of_exec (fun _ _ _ => trivial) hr
  have hreturned : r.node.aggregator = .returned := by
    cases hr
    rfl
  have hput : r.node.put = interleaved ∧ r.node.resultCh = [] := by
    cases hr
    exact ⟨rfl, rfl⟩
  obtain ⟨received, hreceived, _, _, hsent⟩ :=
    aggregation_faithful (show loaded.node.AggregatorStarts from ⟨rfl, rfl, rfl, rfl⟩) hrun
  rw [hput.1, hput.2, List.append_nil] at hreceived
  subst hreceived
  exact ⟨r, hrun, hreturned, hsent hreturned 7, hsent hreturned 8⟩

end ActorCluster.Node
