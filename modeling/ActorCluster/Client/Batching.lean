import ActorCluster.Client.LiveStream
import ActorCluster.Remote.Server

/-! # Batching and framing

`flusherLoop` collects the envelopes that it takes from the channel in one batch, and
sends the batch when it is full, when the ticker fires and when the streamer is stopped.
Up to the first failure of `Send`, the batches on the stream are the envelopes taken, cut
into pieces that are neither empty nor larger than the target size. A server that allows
batches of that size passes them on as they are.
-/

namespace ActorCluster.Client

open Remote Transition
open scoped List

/-- What the flusher meets in its `select`, and its own steps. -/
inductive FlusherAction where
  | take (env : RemoteEnvelope)
  | tick
  | stop
  | cancel
  | send
  | sendErr
  | count
  | closeSend
  | failed
  deriving DecidableEq

/-- A flusher and its stream. The history has the envelopes taken from the channel and
the batches sent. -/
structure Wire where
  flusher : Flusher
  taken : List RemoteEnvelope
  batches : List (List RemoteEnvelope)
  closed : Bool

namespace Wire

/-- One step of `flusherLoop` and `sendBatch`. -/
def step (targetSize : Nat) (w : Wire) (action : FlusherAction) : Option Wire :=
  match w.flusher, action with
  | .select batch, .take env =>
      some { w with
        taken := w.taken ++ [env]
        flusher := if targetSize ≤ (batch ++ [env]).length then .send (batch ++ [env]) false
          else .select (batch ++ [env]) }
  | .select batch, .tick =>
      some { w with flusher := if batch = [] then .select [] else .send batch false }
  | .select batch, .stop =>
      some { w with flusher := if batch = [] then .closeSend else .send batch true }
  | .select _, .cancel => some { w with flusher := .returned }
  | .send batch last, .send =>
      some { w with batches := w.batches ++ [batch], flusher := .count batch last }
  | .send _ _, .sendErr => some { w with flusher := .failing }
  | .count _ last, .count => some { w with flusher := NodeStreamer.afterSend last }
  | .closeSend, .closeSend => some { w with flusher := .returned, closed := true }
  | .failing, .failed => some { w with flusher := .returned }
  | _, _ => none

end Wire

def flusherLoop (targetSize : Nat) : System Wire FlusherAction where
  init := ⟨.select [], [], [], false⟩
  step := Wire.step targetSize

/-- The envelopes that the flusher has taken and not sent, unless it has failed or
returned. -/
def Flusher.hand : Flusher → Option (List RemoteEnvelope)
  | .select batch | .send batch _ => some batch
  | .count _ _ | .closeSend => some []
  | .failing | .returned => none

/-- A batch is sent as soon as it is full, and never empty. -/
def Flusher.Fits (targetSize : Nat) : Flusher → Prop
  | .select batch => batch.length < targetSize
  | .send batch _ => batch ≠ [] ∧ batch.length ≤ targetSize
  | _ => True

/-- The stream has what was taken, in pieces of the right size. -/
structure Wire.Faithful (targetSize : Nat) (w : Wire) : Prop where
  sized : ∀ batch ∈ w.batches, batch ≠ [] ∧ batch.length ≤ targetSize
  fits : w.flusher.Fits targetSize
  kept : ∀ hand, w.flusher.hand = some hand → w.batches.flatten ++ hand = w.taken
  sent : w.batches.flatten <+: w.taken
  closed : w.closed = true → w.flusher = .returned ∧ w.batches.flatten = w.taken

namespace Wire.Faithful

variable {targetSize : Nat} {w w' : Wire}

/-- The sending side is closed last. -/
theorem not_closed (h : w.Faithful targetSize) (hlive : w.flusher ≠ .returned) :
    w.closed ≠ true := by
  intro hclosed
  exact hlive (h.closed hclosed).1

/-- The flusher goes on, or gives up, with what it has in hand. -/
theorem advance (h : w.Faithful targetSize) (hlive : w.flusher ≠ .returned) {flusher : Flusher}
    (hfits : flusher.Fits targetSize)
    (hhand : ∀ hand, flusher.hand = some hand → w.flusher.hand = some hand) :
    Faithful targetSize { w with flusher := flusher } where
  sized := h.sized
  fits := hfits
  kept hand hsome := h.kept hand (hhand hand hsome)
  sent := h.sent
  closed hclosed := absurd hclosed (h.not_closed hlive)

/-- The ticker fires or the streamer is stopped: an empty batch is not sent. -/
theorem flush (h : w.Faithful targetSize) {batch : List RemoteEnvelope} {unsent : Flusher}
    (last : Bool) (hselect : w.flusher = .select batch) (hfits : unsent.Fits targetSize)
    (hhand : unsent.hand = some []) :
    Faithful targetSize { w with flusher := if batch = [] then unsent else .send batch last } := by
  have hbatch := h.fits
  rw [hselect] at hbatch
  apply h.advance (by rw [hselect]; nofun)
  · split
    next => exact hfits
    next hne => exact ⟨hne, Nat.le_of_lt hbatch⟩
  · rw [hselect]
    split
    next hnil =>
      rw [hhand, hnil]
      exact fun _ => id
    next => exact fun _ => id

theorem take (h : w.Faithful targetSize) {batch : List RemoteEnvelope} (env : RemoteEnvelope)
    (hselect : w.flusher = .select batch) {flusher : Flusher} (hfits : flusher.Fits targetSize)
    (hhand : flusher.hand = some (batch ++ [env])) :
    Faithful targetSize { w with taken := w.taken ++ [env], flusher := flusher } where
  sized := h.sized
  fits := hfits
  kept hand hsome := by
    rw [hhand] at hsome
    cases hsome
    have hkept := h.kept batch (by rw [hselect]; rfl)
    rw [← List.append_assoc, hkept]
  sent := h.sent.trans (List.prefix_append _ _)
  closed hclosed := absurd hclosed (h.not_closed (by rw [hselect]; nofun))

/-- The batch to be sent is all that is missing on the stream. -/
theorem taken_of_send (h : w.Faithful targetSize) {batch : List RemoteEnvelope} {last : Bool}
    (hsend : w.flusher = .send batch last) : w.batches.flatten ++ batch = w.taken :=
  h.kept batch (by rw [hsend]; rfl)

theorem send (h : w.Faithful targetSize) {batch : List RemoteEnvelope} {last : Bool}
    (hsend : w.flusher = .send batch last) :
    Faithful targetSize
      { w with batches := w.batches ++ [batch], flusher := .count batch last } where
  sized := by
    have hfits := h.fits
    rw [hsend] at hfits
    exact List.forall_mem_append.mpr ⟨h.sized, List.forall_mem_singleton.mpr hfits⟩
  fits := trivial
  kept hand hsome := by
    cases hsome
    rw [List.flatten_append, List.flatten_singleton, List.append_nil, h.taken_of_send hsend]
  sent := by
    rw [List.flatten_append, List.flatten_singleton, h.taken_of_send hsend]
  closed hclosed := absurd hclosed (h.not_closed (by rw [hsend]; nofun))

theorem closeSend (h : w.Faithful targetSize) (hclose : w.flusher = .closeSend) :
    Faithful targetSize { w with flusher := .returned, closed := true } where
  sized := h.sized
  fits := trivial
  kept := nofun
  sent := h.sent
  closed _ := by
    have hkept := h.kept [] (by rw [hclose]; rfl)
    rw [List.append_nil] at hkept
    exact ⟨rfl, hkept⟩

theorem step (h : w.Faithful targetSize) (hpos : 1 ≤ targetSize) {action : FlusherAction}
    (hstep : w.step targetSize action = some w') : w'.Faithful targetSize := by
  have hfits := h.fits
  unfold Wire.step at hstep
  split at hstep <;> cases hstep
  next batch env hselect =>
    rw [hselect] at hfits
    have hlength : (batch ++ [env]).length ≤ targetSize := by
      rw [List.length_append, List.length_singleton]
      exact hfits
    apply h.take env hselect
    · split
      next => exact ⟨List.append_ne_nil_of_right_ne_nil batch (List.cons_ne_nil env []), hlength⟩
      next hsmall => exact Nat.lt_of_not_le hsmall
    · split <;> rfl
  next hselect => exact h.flush false hselect hpos rfl
  next hselect => exact h.flush true hselect trivial rfl
  next hselect => exact h.advance (by rw [hselect]; nofun) trivial nofun
  next hsend => exact h.send hsend
  next hsend => exact h.advance (by rw [hsend]; nofun) trivial nofun
  next batch last hcount =>
    apply h.advance (by rw [hcount]; nofun)
    · cases last
      · exact hpos
      · trivial
    · rw [hcount]
      cases last <;> exact fun _ => id
  next hclose => exact h.closeSend hclose
  next hfailing => exact h.advance (by rw [hfailing]; nofun) trivial nofun

end Wire.Faithful

theorem faithful_of_run {targetSize : Nat} (hpos : 1 ≤ targetSize) {w : Wire}
    (hw : (flusherLoop targetSize).Reachable w) : w.Faithful targetSize := by
  have hinit : Wire.Faithful targetSize ⟨.select [], [], [], false⟩ := by
    refine ⟨nofun, hpos, fun hand hsome => ?_, List.nil_prefix, nofun⟩
    cases hsome
    rfl
  exact hw.invariant hinit fun w action w' h hstep => h.step hpos hstep

/-- The batches on the stream are the envelopes taken, up to the first failure of `Send`,
and the server passes them to the handler as long as it returns `nil`. -/
theorem stream_preserved {targetSize : Nat} {s : Server} (hpos : 1 ≤ targetSize)
    (hmax : (targetSize : Int) ≤ s.maxBatchSize) {w : Wire}
    (hw : (flusherLoop targetSize).Reachable w) :
    (∀ batch ∈ w.batches, batch ≠ [] ∧ batch.length ≤ targetSize) ∧
      (∀ hand, w.flusher.hand = some hand → w.batches.flatten ++ hand = w.taken) ∧
      w.batches.flatten <+: w.taken ∧ (w.closed = true → w.batches.flatten = w.taken) ∧
      ∀ received, received <+: w.batches → s.Accepts [] received →
        ∀ ending, ending = [] ∨ ending = [.eof] ∨ ending = [.error] →
          (s.streamMessages [] (received.map .batch ++ ending)).handled = received ∧
            (s.streamMessages [] (received.map .batch ++ ending)).state ≠
              .returned (some ⟨.invalidArgument, errBatchTooLarge⟩) := by
  have h := faithful_of_run hpos hw
  refine ⟨h.sized, h.kept, h.sent, fun hclosed => (h.closed hclosed).2, ?_⟩
  intro received hreceived haccepts ending hending
  have hfits : ∀ batch ∈ received, (batch.length : Int) ≤ s.maxBatchSize := by
    intro batch hbatch
    have hsize := (h.sized batch (hreceived.subset hbatch)).2
    omega
  rw [Server.streamMessages_append hfits haccepts, List.nil_append]
  rcases hending with rfl | rfl | rfl
  · exact ⟨rfl, nofun⟩
  · exact ⟨rfl, nofun⟩
  · refine ⟨rfl, fun hstate => ?_⟩
    cases hstate

/-- A full batch, one sent by the ticker, and one sent for the stop. -/
def threeFlushes : List FlusherAction :=
  [.take (request 1), .take (request 2), .send, .count, .tick, .take (request 3), .tick, .send,
    .count, .take (request 4), .stop, .send, .count, .closeSend]

/-- A server that allows two envelopes in a batch, with a handler that accepts everything. -/
def pairServer : Server := newServer (fun _ _ => none) 2

theorem stream_preserved_threeFlushes :
    ((flusherLoop 2).after threeFlushes).batches.map (fun batch => batch.map (·.requestId)) =
        [[1, 2], [3], [4]] ∧
      ((flusherLoop 2).after threeFlushes).batches.flatten =
        ((flusherLoop 2).after threeFlushes).taken ∧
      (pairServer.streamMessages []
        (((flusherLoop 2).after threeFlushes).batches.map .batch ++ [Recv.eof])).handled =
          ((flusherLoop 2).after threeFlushes).batches := by
  have h := stream_preserved (s := pairServer) (Nat.le_succ 1) (by decide)
    ((flusherLoop 2).reachable_after threeFlushes)
  exact ⟨by decide +kernel, h.2.2.2.1 (by decide +kernel),
    (h.2.2.2.2 _ (List.prefix_refl _) (fun _ _ _ => rfl) [.eof] (.inr (.inl rfl))).1⟩

/-- The flusher stands where that of the streamer stands, and has sent the same. -/
structure Wire.Follows (w : Wire) (ns : NodeStreamer) : Prop where
  flusher : w.flusher = ns.flusher
  sent : w.batches.flatten = ns.sent

section Refinement

variable {cfg : Config} {s : ClientState} {w : Wire}

/-- A step of one streamer leaves the others where they are. -/
theorem leadsTo_update {a b : Nat} {ns : NodeStreamer} (h : w.Follows (s.streamer b))
    (hmove : w.Follows (s.streamer a) →
      (flusherLoop cfg.batchSize).LeadsTo System.free w fun w' => w'.Follows ns) :
    (flusherLoop cfg.batchSize).LeadsTo System.free w fun w' =>
      w'.Follows (Function.update s.streamer a ns b) := by
  by_cases hb : b = a
  · subst hb
    simp only [Function.update_self]
    exact hmove h
  · simp only [Function.update_of_ne hb]
    exact .refl h

/-- A step that the flusher of one streamer takes. -/
theorem leadsTo_step (action : FlusherAction) {a b : Nat} {ns : NodeStreamer} {flusher : Flusher}
    {w' : Wire} (h : w.Follows (s.streamer b)) (ha : (s.streamer a).flusher = flusher)
    (hstep : Wire.step cfg.batchSize { w with flusher := flusher } action = some w')
    (hnext : w.batches.flatten = (s.streamer a).sent → w'.Follows ns) :
    (flusherLoop cfg.batchSize).LeadsTo System.free w fun w' =>
      w'.Follows (Function.update s.streamer a ns b) := by
  refine leadsTo_update h fun hw => ?_
  have hsame : ({ w with flusher := flusher } : Wire) = w := by
    rw [← ha, ← hw.flusher]
  rw [hsame] at hstep
  exact .step trivial hstep (.refl (hnext hw.sent))

theorem leadsTo_stay {a b : Nat} {ns : NodeStreamer} (h : w.Follows (s.streamer b))
    (hflusher : ns.flusher = (s.streamer a).flusher) (hsent : ns.sent = (s.streamer a).sent) :
    (flusherLoop cfg.batchSize).LeadsTo System.free w fun w' =>
      w'.Follows (Function.update s.streamer a ns b) :=
  leadsTo_update h fun hw => .refl ⟨hw.flusher.trans hflusher.symm, hw.sent.trans hsent.symm⟩

/-- The flusher of every streamer follows `flusherLoop`. -/
theorem leadsTo_apply {action : Action} (henabled : s.enabled cfg action = true) {b : Nat}
    (hb : b < s.created) (h : w.Follows (s.streamer b)) :
    (flusherLoop cfg.batchSize).LeadsTo System.free w fun w' =>
      w'.Follows ((s.apply cfg action).streamer b) := by
  cases action with
  | take a batch env rest =>
      have ha : (s.streamer a).flusher = .select batch ∧
          (s.streamer a).envelopeCh = env :: rest := by
        simpa [ClientState.enabled] using henabled
      exact leadsTo_step (.take env) h ha.1 rfl fun hsent => ⟨rfl, hsent⟩
  | tick a batch =>
      have ha : (s.streamer a).flusher = .select batch := by
        simpa [ClientState.enabled] using henabled
      exact leadsTo_step .tick h ha rfl fun hsent => ⟨rfl, hsent⟩
  | stopSeen a batch =>
      have ha : (s.streamer a).flusher = .select batch ∧ (s.streamer a).stopped = true := by
        simpa [ClientState.enabled] using henabled
      exact leadsTo_step .stop h ha.1 rfl fun hsent => ⟨rfl, hsent⟩
  | cancelSeen a batch =>
      have ha : (s.streamer a).flusher = .select batch ∧ (s.streamer a).cancelled = true := by
        simpa [ClientState.enabled] using henabled
      exact leadsTo_step .cancel h ha.1 rfl fun hsent => ⟨rfl, hsent⟩
  | send a batch last =>
      have ha : (s.streamer a).flusher = .send batch last ∧ (s.streamer a).ended = false := by
        simpa [ClientState.enabled] using henabled
      refine leadsTo_step .send h ha.1 rfl fun hsent => ⟨rfl, ?_⟩
      rw [List.flatten_append, List.flatten_singleton, hsent]
  | sendErr a batch last =>
      have ha : (s.streamer a).flusher = .send batch last := by
        simpa [ClientState.enabled] using henabled
      refine leadsTo_step .sendErr h ha rfl fun hsent => ?_
      rw [NodeStreamer.startFail_eq]
      exact ⟨rfl, hsent⟩
  | count a batch last =>
      have ha : (s.streamer a).flusher = .count batch last := by
        simpa [ClientState.enabled] using henabled
      exact leadsTo_step .count h ha rfl fun hsent => ⟨rfl, hsent⟩
  | closeSend a =>
      have ha : (s.streamer a).flusher = .closeSend := by
        simpa [ClientState.enabled] using henabled
      exact leadsTo_step .closeSend h ha rfl fun hsent => ⟨rfl, hsent⟩
  | flusherReturn a =>
      have ha : (s.streamer a).flusher = .failing ∧ (s.streamer a).failure = .done := by
        simpa [ClientState.enabled] using henabled
      exact leadsTo_step .failed h ha.1 rfl fun hsent => ⟨rfl, hsent⟩
  | create p d connected =>
      cases connected with
      | true =>
          have hne : (s.apply cfg (.create p d true)).streamer b = s.streamer b :=
            Function.update_of_ne (Nat.ne_of_lt hb) _ _
          rw [hne]
          exact .refl h
      | false => exact .refl h
  | recvEOF a =>
      simp only [ClientState.apply]
      split
      next => exact leadsTo_stay h rfl rfl
      next =>
        rw [NodeStreamer.startFail_eq]
        exact leadsTo_stay h rfl rfl
  | recvErr a =>
      simp only [ClientState.apply]
      rw [NodeStreamer.startFail_eq]
      exact leadsTo_stay h rfl rfl
  | tally a res rest =>
      simp only [ClientState.apply]
      split <;> exact leadsTo_stay h rfl rfl
  | demux a res rest =>
      simp only [ClientState.apply]
      split <;> exact leadsTo_stay h rfl rfl
  | failEntry a code i reqID entry =>
      obtain ⟨_ | ch⟩ := entry <;> exact leadsTo_stay h rfl rfl
  | store | enqueue | drop | expireDelete | recv | deliver | receiverReturn | mark | evictLoad
  | evictDelete | failLock | failUnlock | closeTransport | stopCheck | stopDone =>
      exact leadsTo_stay h rfl rfl
  | _ => exact .refl h

/-- A streamer starts with an empty batch and an empty stream. -/
theorem follows_newNodeStreamer (ip : String) :
    (flusherLoop cfg.batchSize).init.Follows (newNodeStreamer ip) := ⟨rfl, rfl⟩

/-- Each streamer of the client runs `flusherLoop` with the batch size of the router. -/
theorem client_runs_flusherLoop (hs : (client cfg).Reachable s) :
    ∀ a < s.created, ∃ w, (flusherLoop cfg.batchSize).Reachable w ∧ w.Follows (s.streamer a) := by
  refine System.Reachable.invariant (P := fun s => ∀ a < s.created,
    ∃ w, (flusherLoop cfg.batchSize).Reachable w ∧ w.Follows (s.streamer a)) ?_ ?_ hs
  · intro a ha
    exact absurd ha (Nat.not_lt_zero a)
  intro s action t h hstep a ha
  obtain ⟨henabled, rfl⟩ := System.guarded_step_eq_some_iff.mp hstep
  by_cases hold : a < s.created
  · obtain ⟨w, hw, hfollows⟩ := h a hold
    obtain ⟨w', hrun, hfollows'⟩ := leadsTo_apply henabled hold hfollows
    exact ⟨w', Relation.ReflTransGen.trans hw hrun, hfollows'⟩
  · rcases ClientState.created_apply cfg s action with hsame | ⟨p, d, rfl, hnext⟩
    · exact absurd (hsame ▸ ha) hold
    · have hnew : a = s.created := by omega
      subst hnew
      have hstreamer : (s.apply cfg (.create p d true)).streamer s.created =
          newNodeStreamer d.targetIP := Function.update_self _ _ _
      rw [hstreamer]
      exact ⟨_, Relation.ReflTransGen.refl, follows_newNodeStreamer d.targetIP⟩

end Refinement

end ActorCluster.Client
