import ActorCluster.Client.Moves
import ActorCluster.Foundation.Custody

/-! # The requests of the client

Request ids are used once. Then an envelope is in the hands of one caller or on
one stream, where it waits, is part of the flusher's batch, or has been sent; it
never goes back from a stream to a caller.
-/

namespace ActorCluster.Client

open Remote Transition Custody
open scoped List

/-- The request that a caller is busy with. -/
def Caller.request : Caller → Option UInt64
  | .idle => none
  | .resolve env _ | .giveUp env _ _ _ | .wait env _ | .expire env _ | .expireDelete env _ _ =>
      some env.requestId
  | .dispatch d _ => some d.env.requestId

/-- The request whose envelope a caller has in its hands, and its callback. -/
def Caller.carries : Caller → Option (UInt64 × CallbackEntry)
  | .resolve env entry => some (env.requestId, entry)
  | .dispatch d _ => some (d.env.requestId, d.entry)
  | _ => none

theorem Caller.request_of_carries {c : Caller} {x : UInt64 × CallbackEntry}
    (h : c.carries = some x) : c.request = some x.1 := by
  cases c <;> cases h <;> rfl

/-- The requests on a stream: sent, in the batch of the flusher, or waiting. -/
def NodeStreamer.traffic (ns : NodeStreamer) : List UInt64 :=
  (ns.sent ++ ns.flusher.batch ++ ns.envelopeCh).map RemoteEnvelope.requestId

/-- The contract of the callers: a request id is used once. -/
def UniqueIDs (s : ClientState) : Action → Prop
  | .emulate _ env | .execute _ env => env.requestId ∉ s.issued.map Prod.fst
  | _ => True

instance (s : ClientState) (action : Action) : Decidable (UniqueIDs s action) := by
  unfold UniqueIDs
  split <;> infer_instance

section Moves

variable {s : ClientState} {action : Action}

/-- The step begins a call of the caller. -/
def Action.Begins (p : Nat) (env : RemoteEnvelope) (action : Action) : Prop :=
  action = .emulate p env ∨ action = .execute p env

theorem CallerMove.request_back {p : Nat} {c : Caller} (h : CallerMove s action p c)
    {reqID : UInt64} (hc : c.request = some reqID) :
    (s.caller p).request = some reqID ∨ ∃ env, action.Begins p env ∧ env.requestId = reqID := by
  cases h with
  | stay => exact .inl hc
  | emulate env haction => exact .inr ⟨env, .inl haction, Option.some.inj hc⟩
  | execute env haction => exact .inr ⟨env, .inr haction, Option.some.inj hc⟩
  | enqueue d a _ hp =>
      obtain ⟨env, ⟨_ | ch⟩, targetIP, attempts⟩ := d
      · cases hc
      · rw [hp]
        exact .inl hc
  | go _ _ _ hp | resolved _ _ _ hp | unresolved _ _ _ hp | refused _ _ hp | retry _ _ _ hp
  | surrender _ _ _ hp | timeout _ _ hp | visit _ _ _ _ hp | skip _ _ _ hp | expire _ _ _ hp =>
      rw [hp]
      exact .inl hc
  | _ => cases hc

theorem CallerMove.carries_back {p : Nat} {c : Caller} (h : CallerMove s action p c)
    {x : UInt64 × CallbackEntry} (hc : c.carries = some x) :
    (s.caller p).carries = some x ∨
      ∃ env, action.Begins p env ∧ env.requestId = x.1 := by
  cases h with
  | stay => exact .inl hc
  | emulate env haction =>
      cases hc
      exact .inr ⟨env, .inl haction, rfl⟩
  | execute env haction =>
      cases hc
      exact .inr ⟨env, .inr haction, rfl⟩
  | enqueue d a =>
      obtain ⟨env, ⟨_ | ch⟩, targetIP, attempts⟩ := d <;> cases hc
  | go _ _ _ hp | resolved _ _ _ hp | retry _ _ _ hp =>
      rw [hp]
      exact .inl hc
  | _ => cases hc

/-- Only a caller adds to the traffic of a stream. -/
theorem StreamerMove.traffic {a : Nat} {ns : NodeStreamer} (h : StreamerMove s action a ns) :
    ns.traffic <+ (s.streamer a).traffic ∨
      ∃ p d, action = .enqueue p d a ∧ s.caller p = .dispatch d (.select a) ∧
        ns.traffic = (s.streamer a).traffic ++ [d.env.requestId] := by
  cases h with
  | create => exact .inl (List.nil_sublist _)
  | enqueue p d haction hp => exact .inr ⟨p, d, haction, hp, by simp [NodeStreamer.traffic]⟩
  | take batch env rest flusher hflusher hch hbatch =>
      have hold : (s.streamer a).flusher.batch = batch := by rw [hflusher, Flusher.batch]
      have hsame : ({ s.streamer a with envelopeCh := rest, flusher := flusher }).traffic =
          (s.streamer a).traffic := by
        simp [NodeStreamer.traffic, hbatch, hold, hch]
      exact .inl (hsame ▸ List.Sublist.refl _)
  | flusher flusher hbatch =>
      exact .inl (((hbatch.append_left _).append_right _).map _)
  | send batch last _ hflusher =>
      have hsame : ({ s.streamer a with
          sent := (s.streamer a).sent ++ batch, flusher := .count batch last }).traffic =
          (s.streamer a).traffic := by
        simp [NodeStreamer.traffic, hflusher, Flusher.batch]
      exact .inl (hsame ▸ List.Sublist.refl _)
  | sendErr code =>
      rw [NodeStreamer.startFail_eq]
      exact .inl ((((List.nil_sublist _).append_left _).append_right _).map _)
  | recvErr code =>
      rw [NodeStreamer.startFail_eq]
      exact .inl (List.Sublist.refl _)
  | _ => exact .inl (List.Sublist.refl _)

end Moves

/-- Who has an envelope. -/
inductive Holder where
  | caller (p : Nat)
  | stream (a : Nat)
  deriving DecidableEq

def ClientState.envelopes (s : ClientState) : Holder → List UInt64
  | .caller p => (s.caller p).carries.toList.map Prod.fst
  | .stream a => (s.streamer a).traffic

/-- Every request belongs to one call, and every channel to one request. -/
structure Issued (s : ClientState) : Prop where
  ids : (s.issued.map Prod.fst).Nodup
  opened : ∀ reqID ch, (reqID, ⟨some ch⟩) ∈ s.issued → ch < s.opened
  channels : ∀ reqID other ch, (reqID, ⟨some ch⟩) ∈ s.issued → (other, ⟨some ch⟩) ∈ s.issued →
    reqID = other
  calls : Sole fun p reqID => (s.caller p).request = some reqID
  requests : ∀ p reqID, (s.caller p).request = some reqID → reqID ∈ s.issued.map Prod.fst
  entries : ∀ p x, (s.caller p).carries = some x → x ∈ s.issued
  envelopes : Exclusive s.envelopes
  traffic : ∀ a, ∀ reqID ∈ (s.streamer a).traffic, reqID ∈ s.issued.map Prod.fst

theorem issued_newClient : Issued newClient where
  ids := List.nodup_nil
  opened _ _ h := absurd h List.not_mem_nil
  channels _ _ _ h := absurd h List.not_mem_nil
  calls _ _ _ h := by cases h
  requests _ _ h := by cases h
  entries _ _ h := by cases h
  envelopes :=
    ⟨fun place => by cases place <;> exact List.nodup_nil,
      fun place _ reqID h => by cases place <;> exact absurd h List.not_mem_nil⟩
  traffic _ _ h := absurd h List.not_mem_nil

section Step

variable {cfg : Config} {s : ClientState} {action : Action} {p : Nat} {env : RemoteEnvelope}

/-- A new call is entered with its callback, on a channel of its own. -/
theorem Action.Begins.apply (h : action.Begins p env) (cfg : Config) (s : ClientState) :
    ∃ entry, (s.apply cfg action).issued = s.issued ++ [(env.requestId, entry)] ∧
      (s.apply cfg action).caller = Function.update s.caller p (.resolve env entry) ∧
      (s.apply cfg action).streamer = s.streamer ∧ s.opened ≤ (s.apply cfg action).opened ∧
      ∀ ch, entry = ⟨some ch⟩ → ch = s.opened ∧ ch < (s.apply cfg action).opened := by
  rcases h with rfl | rfl
  · exact ⟨⟨none⟩, rfl, rfl, rfl, Nat.le_refl _, fun ch h => by cases h⟩
  · refine ⟨⟨some s.opened⟩, rfl, rfl, rfl, Nat.le_succ _, fun ch h => ?_⟩
    cases h
    exact ⟨rfl, Nat.lt_succ_self _⟩

/-- Other steps enter no call. -/
theorem issued_apply (h : ¬ ∃ p env, action.Begins p env) (cfg : Config) (s : ClientState) :
    (s.apply cfg action).issued = s.issued ∧ (s.apply cfg action).opened = s.opened := by
  have hmove := ClientState.issueMove_apply cfg s action
  generalize (s.apply cfg action).issued = issued, (s.apply cfg action).opened = opened at hmove ⊢
  cases hmove with
  | stay => exact ⟨rfl, rfl⟩
  | emulate p env haction => exact absurd ⟨p, env, .inl haction⟩ h
  | execute p env haction => exact absurd ⟨p, env, .inr haction⟩ h

namespace Issued

theorem begin (h : Issued s) (hbegins : action.Begins p env)
    (hfresh : env.requestId ∉ s.issued.map Prod.fst) : Issued (s.apply cfg action) := by
  obtain ⟨entry, hissued, hcaller, hstreamer, hopened, hchannel⟩ := hbegins.apply cfg s
  have hids : ∀ {reqID}, reqID ∈ s.issued.map Prod.fst →
      reqID ∈ (s.apply cfg action).issued.map Prod.fst := fun hreq => by
    rw [hissued, List.map_append]
    exact List.mem_append_left _ hreq
  have hmem {reqID : UInt64} {e : CallbackEntry} :
      (reqID, e) ∈ (s.apply cfg action).issued ↔
        (reqID, e) ∈ s.issued ∨ reqID = env.requestId ∧ e = entry := by
    rw [hissued, List.mem_append, List.mem_singleton, Prod.mk.injEq]
  have hrequest {q : Nat} {reqID : UInt64}
      (hq : ((s.apply cfg action).caller q).request = some reqID) :
      (s.caller q).request = some reqID ∨ q = p ∧ reqID = env.requestId := by
    rw [hcaller] at hq
    by_cases hqp : q = p
    · subst hqp
      rw [Function.update_self] at hq
      exact .inr ⟨rfl, (Option.some.inj hq).symm⟩
    · rw [Function.update_of_ne hqp] at hq
      exact .inl hq
  refine ⟨?_, ?_, ?_, ?_, ?_, ?_, ?_, ?_⟩
  · rw [hissued, List.map_append]
    exact h.ids.append (List.nodup_singleton _) (by simpa using hfresh)
  · intro reqID ch hch
    rcases hmem.mp hch with hold | ⟨_, hnew⟩
    · exact Nat.lt_of_lt_of_le (h.opened reqID ch hold) hopened
    · exact (hchannel ch hnew.symm).2
  · intro reqID other ch hreq hother
    rcases hmem.mp hreq with hreq | ⟨rfl, hnew⟩ <;> rcases hmem.mp hother with hother | ⟨rfl, hnew'⟩
    · exact h.channels reqID other ch hreq hother
    · have hlt := h.opened reqID ch hreq
      have heq := (hchannel ch hnew'.symm).1
      omega
    · have hlt := h.opened other ch hother
      have heq := (hchannel ch hnew.symm).1
      omega
    · rfl
  · exact h.calls.arrive env.requestId p (fun q reqID => hrequest)
      fun q hq => absurd (h.requests q _ hq) hfresh
  · intro q reqID hq
    rcases hrequest hq with hold | ⟨_, rfl⟩
    · exact hids (h.requests q reqID hold)
    · rw [hissued, List.map_append]
      exact List.mem_append_right _ List.mem_cons_self
  · intro q x hq
    rw [hcaller] at hq
    by_cases hqp : q = p
    · subst hqp
      rw [Function.update_self] at hq
      cases hq
      exact hmem.mpr (.inr ⟨rfl, rfl⟩)
    · rw [Function.update_of_ne hqp] at hq
      exact hmem.mpr (.inl (h.entries q x hq))
  · refine h.envelopes.gain (x := env.requestId) (q := .caller p) ?_ ?_ ?_
    · rintro (q | a) hheld
      · obtain ⟨x, hx, heq⟩ := List.mem_map.mp hheld
        exact hfresh (heq ▸ List.mem_map_of_mem (h.entries q x (Option.mem_toList.mp hx)))
      · exact hfresh (h.traffic a _ hheld)
    · rw [ClientState.envelopes, hcaller, Function.update_self]
      exact (List.singleton_sublist.mpr List.mem_cons_self).subperm
    · rintro (q | a) hne
      · have hqp : q ≠ p := fun hqp => hne (hqp ▸ rfl)
        rw [ClientState.envelopes, hcaller, Function.update_of_ne hqp, ClientState.envelopes]
      · rw [ClientState.envelopes, hstreamer, ClientState.envelopes]
  · rw [hstreamer]
    exact fun a reqID hreq => hids (h.traffic a reqID hreq)

theorem enqueue (h : Issued s) {d : Dispatch} {a : Nat}
    (hp : s.caller p = .dispatch d (.select a)) :
    Exclusive (s.apply cfg (.enqueue p d a)).envelopes := by
  refine h.envelopes.hand (p := .caller p) (q := .stream a) (x := d.env.requestId) nofun ?_ ?_ ?_
  · have hnone : d.accepted.carries = none := by
      obtain ⟨env, ⟨_ | ch⟩, targetIP, attempts⟩ := d <;> rfl
    have hnext : (s.apply cfg (.enqueue p d a)).caller p = d.accepted := Function.update_self _ _ _
    rw [ClientState.envelopes, ClientState.envelopes, hp, hnext, hnone]
    exact List.Perm.refl _
  · have hnext : (s.apply cfg (.enqueue p d a)).streamer a =
        { s.streamer a with envelopeCh := (s.streamer a).envelopeCh ++ [d.env] } :=
      Function.update_self _ _ _
    rw [ClientState.envelopes, ClientState.envelopes, hnext]
    simp only [NodeStreamer.traffic, ← List.append_assoc, List.map_append]
    exact List.perm_append_singleton _ _
  · rintro (q | b) hcaller hstream
    · have hqp : q ≠ p := fun hqp => hcaller (hqp ▸ rfl)
      exact congrArg (fun c : Caller => c.carries.toList.map Prod.fst)
        (Function.update_of_ne hqp _ _)
    · have hba : b ≠ a := fun hba => hstream (hba ▸ rfl)
      exact congrArg NodeStreamer.traffic (Function.update_of_ne hba _ _)

theorem keep (h : Issued s) (hbegins : ¬ ∃ p env, action.Begins p env)
    (henabled : s.enabled cfg action = true) : Issued (s.apply cfg action) := by
  obtain ⟨hissued, hopened⟩ := issued_apply hbegins cfg s
  have hrequest {q : Nat} {reqID : UInt64}
      (hq : ((s.apply cfg action).caller q).request = some reqID) :
      (s.caller q).request = some reqID :=
    ((ClientState.callerMove_apply henabled q).request_back hq).resolve_right
      fun ⟨env, hbegin, _⟩ => hbegins ⟨q, env, hbegin⟩
  have hcarries {q : Nat} {x : UInt64 × CallbackEntry}
      (hq : ((s.apply cfg action).caller q).carries = some x) : (s.caller q).carries = some x :=
    ((ClientState.callerMove_apply henabled q).carries_back hq).resolve_right
      fun ⟨env, hbegin, _⟩ => hbegins ⟨q, env, hbegin⟩
  refine ⟨hissued ▸ h.ids, hissued ▸ hopened ▸ h.opened, hissued ▸ h.channels,
    h.calls.mono fun q reqID => hrequest,
    fun q reqID hq => hissued ▸ h.requests q reqID (hrequest hq),
    fun q x hq => hissued ▸ h.entries q x (hcarries hq), ?_, fun a reqID hreq => ?_⟩
  · by_cases henqueue : ∃ p d a, action = .enqueue p d a
    · obtain ⟨p, d, a, rfl⟩ := henqueue
      have hp := henabled
      simp only [ClientState.enabled, Bool.and_eq_true, decide_eq_true_eq] at hp
      exact h.enqueue hp.1
    · refine h.envelopes.mono fun place => ?_
      cases place with
      | caller q =>
          simp only [ClientState.envelopes]
          cases hq : ((s.apply cfg action).caller q).carries with
          | none => exact List.nil_subperm
          | some x => rw [hcarries hq]
      | stream a =>
          rcases (ClientState.streamerMove_apply henabled a).traffic with hsub | ⟨p, d, haction, _⟩
          · exact hsub.subperm
          · exact absurd ⟨p, d, a, haction⟩ henqueue
  · rw [hissued]
    rcases (ClientState.streamerMove_apply henabled a).traffic with hsub | ⟨p, d, _, hp, htraffic⟩
    · exact h.traffic a reqID (hsub.subset hreq)
    · rw [htraffic, List.mem_append, List.mem_singleton] at hreq
      rcases hreq with hold | rfl
      · exact h.traffic a reqID hold
      · exact h.requests p _ (by rw [hp]; rfl)

theorem step (h : Issued s) (hguard : UniqueIDs s action) (henabled : s.enabled cfg action = true) :
    Issued (s.apply cfg action) := by
  by_cases hbegins : ∃ p env, action.Begins p env
  · obtain ⟨p, env, hbegin⟩ := hbegins
    refine h.begin hbegin ?_
    rcases hbegin with rfl | rfl <;> exact hguard
  · exact h.keep hbegins henabled

end Issued

end Step

end ActorCluster.Client
