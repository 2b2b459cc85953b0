import ActorCluster.Client.Moves

/-! # One live stream for each address

Whoever holds the mutex of the router sees the entry that it has read until it
replaces it: the entries are only written under the mutex. They are also deleted
outside of it, by a caller that has found a dead streamer and by a failing
streamer. As long as these remove no other streamer than the one that was found,
every streamer that is not dead is in the map or about to be put there.
-/

namespace ActorCluster.Client

open Remote Transition

/-- A delete outside the mutex removes the streamer that was found, or nothing. -/
def DeletesOwn (s : ClientState) : Action → Prop
  | .evict _ d a => s.streamers d.targetIP = some a ∨ s.streamers d.targetIP = none
  | .evictDelete a _ =>
      s.streamers (s.streamer a).targetIP = some a ∨ s.streamers (s.streamer a).targetIP = none
  | _ => True

instance (s : ClientState) (action : Action) : Decidable (DeletesOwn s action) := by
  unfold DeletesOwn
  split <;> infer_instance

/-- `getStreamer` has not returned. -/
def Stage.finding : Stage → Bool
  | .store _ | .select _ | .drop _ => false
  | _ => true

/-- What holds of the router while a caller stands in `getStreamer`. -/
def Caller.Routes (s : ClientState) (p : Nat) : Caller → Prop
  | .dispatch _ (.check a) => a < s.created
  | .dispatch _ (.evict a) => a < s.created ∧ (s.streamer a).dead = true
  | .dispatch _ .reload => s.mu = some p
  | .dispatch d (.recheck a) =>
      s.mu = some p ∧ (s.streamers d.targetIP = some a ∨ s.streamers d.targetIP = none) ∧
        a < s.created
  | .dispatch d (.reevict a) =>
      s.mu = some p ∧ (s.streamers d.targetIP = some a ∨ s.streamers d.targetIP = none) ∧
        a < s.created ∧ (s.streamer a).dead = true
  | .dispatch d .create => s.mu = some p ∧ s.streamers d.targetIP = none
  | .dispatch d (.publish a) =>
      s.mu = some p ∧ s.streamers d.targetIP = none ∧ a < s.created ∧
        (s.streamer a).targetIP = d.targetIP
  | _ => True

/-- Every streamer that is not dead is in the map or about to be put there. -/
structure Routed (s : ClientState) : Prop where
  callers : ∀ p, (s.caller p).Routes s p
  entry : ∀ ip a, s.streamers ip = some a → a < s.created ∧ (s.streamer a).targetIP = ip
  marked : ∀ a code, (s.streamer a).failure = .load code ∨ (s.streamer a).failure = .evict code →
    (s.streamer a).dead = true
  alive : ∀ a < s.created, (s.streamer a).dead = false →
    s.streamers (s.streamer a).targetIP = some a ∨
      ∃ p d, s.caller p = .dispatch d (.publish a)

theorem routed_newClient : Routed newClient where
  callers _ := trivial
  entry _ _ h := by cases h
  marked a code h := by rcases h with h | h <;> cases h
  alive _ h := absurd h (Nat.not_lt_zero _)

section Moves

variable {s : ClientState} {action : Action} {a : Nat} {ns : NodeStreamer}

/-- A streamer keeps its address, and once dead it stays dead. -/
theorem StreamerMove.frame (h : StreamerMove s action a ns) (ha : a < s.created) :
    ns.targetIP = (s.streamer a).targetIP ∧ ((s.streamer a).dead = true → ns.dead = true) := by
  cases h with
  | create p d _ _ hfresh => exact absurd ha (by omega)
  | sendErr code | recvErr code =>
      rw [NodeStreamer.startFail_eq]
      exact ⟨rfl, id⟩
  | mark => exact ⟨rfl, fun _ => rfl⟩
  | _ => exact ⟨rfl, id⟩

/-- A streamer is marked before it is taken from the map. -/
theorem StreamerMove.marked (h : StreamerMove s action a ns)
    (hmarked : ∀ code, (s.streamer a).failure = .load code ∨ (s.streamer a).failure = .evict code →
      (s.streamer a).dead = true) (code : ErrorCode)
    (hns : ns.failure = .load code ∨ ns.failure = .evict code) : ns.dead = true := by
  cases h with
  | create => rcases hns with hns | hns <;> cases hns
  | sendErr code' | recvErr code' =>
      rw [NodeStreamer.startFail_eq]
      unfold NodeStreamer.startFail at hns
      split at hns
      · rcases hns with hns | hns <;> cases hns
      · exact hmarked code hns
  | mark => rfl
  | failure failure hmove =>
      cases hfailure : (s.streamer a).failure <;> rw [hfailure] at hmove <;> cases hmove
      case load.found code' => exact hmarked code' (.inl hfailure)
      all_goals rcases hns with hns | hns <;> cases hns
  | close => rcases hns with hns | hns <;> cases hns
  | _ => exact hmarked code hns

end Moves

/-- What a step leaves as it was for a caller that does not move. -/
structure Undisturbed (s t : ClientState) (p : Nat) : Prop where
  mutex : s.mu = some p → t.mu = some p
  entry : s.mu = some p → ∀ ip, t.streamers ip = s.streamers ip ∨ t.streamers ip = none
  created : s.created ≤ t.created
  streamer : ∀ a < s.created, (t.streamer a).targetIP = (s.streamer a).targetIP ∧
    ((s.streamer a).dead = true → (t.streamer a).dead = true)

theorem Caller.Routes.undisturbed {s t : ClientState} {p : Nat} {c : Caller} (h : c.Routes s p)
    (ht : Undisturbed s t p) : c.Routes t p := by
  have hentry {ip : String} {a : Nat} (hmu : s.mu = some p)
      (hfound : s.streamers ip = some a ∨ s.streamers ip = none) :
      t.streamers ip = some a ∨ t.streamers ip = none := by
    rcases ht.entry hmu ip with hsame | hnone
    · rwa [hsame]
    · exact .inr hnone
  have hvacant {ip : String} (hmu : s.mu = some p) (hnone : s.streamers ip = none) :
      t.streamers ip = none := by
    rcases ht.entry hmu ip with hsame | hnone'
    · rwa [hsame]
    · exact hnone'
  cases c with
  | dispatch d stage =>
      cases stage with
      | check a => exact Nat.lt_of_lt_of_le h ht.created
      | evict a => exact ⟨Nat.lt_of_lt_of_le h.1 ht.created, (ht.streamer a h.1).2 h.2⟩
      | reload => exact ht.mutex h
      | recheck a =>
          exact ⟨ht.mutex h.1, hentry h.1 h.2.1, Nat.lt_of_lt_of_le h.2.2 ht.created⟩
      | reevict a =>
          obtain ⟨hmu, hfound, ha, hdead⟩ := h
          exact ⟨ht.mutex hmu, hentry hmu hfound, Nat.lt_of_lt_of_le ha ht.created,
            (ht.streamer a ha).2 hdead⟩
      | create => exact ⟨ht.mutex h.1, hvacant h.1 h.2⟩
      | publish a =>
          obtain ⟨hmu, hnone, ha, hip⟩ := h
          exact ⟨ht.mutex hmu, hvacant hmu hnone, Nat.lt_of_lt_of_le ha ht.created,
            (ht.streamer a ha).1.trans hip⟩
      | _ => trivial
  | _ => trivial

namespace Routed

variable {cfg : Config} {s : ClientState} {action : Action}

/-- Two callers do not hold the mutex. -/
theorem holder_unique {p q : Nat} (hp : s.mu = some p) (hq : s.mu = some q) : p = q :=
  Option.some.inj (hp.symm.trans hq)

/-- What the router guarantees to a caller at its position. -/
theorem routes_at (h : Routed s) {p : Nat} {c : Caller} (hp : s.caller p = c) : c.Routes s p :=
  hp ▸ h.callers p

/-- A step of another goroutine does not disturb a caller. -/
theorem undisturbed (h : Routed s) (henabled : s.enabled cfg action = true) {q : Nat}
    (hstay : (s.apply cfg action).caller q = s.caller q) :
    Undisturbed s (s.apply cfg action) q := by
  -- the holder of the mutex moves on when it releases the mutex or writes an entry
  have hmoves {p : Nat} {c : Caller} (hp : s.mu = some p) (hq : s.mu = some q)
      (hnext : (s.apply cfg action).caller p = c) (hne : s.caller p ≠ c) : False := by
    obtain rfl := holder_unique hp hq
    exact hne (hstay.symm.trans hnext)
  refine ⟨fun hmu => ?_, fun hmu ip => ?_, ?_, fun a ha => ?_⟩
  · have hmove := ClientState.mutexMove_apply henabled
    generalize hmu' : (s.apply cfg action).mu = mu' at hmove ⊢
    cases hmove with
    | stay => exact hmu
    | lock p d _ hnone => rw [hmu] at hnone; cases hnone
    | recheck p d a haction hp =>
        subst haction
        refine (hmoves (h.routes_at hp).1 hmu (Function.update_self _ _ _) ?_).elim
        rw [hp]
        split <;> simp
    | refused p d haction hp =>
        subst haction
        refine (hmoves (h.routes_at hp).1 hmu (Function.update_self _ _ _) ?_).elim
        simp [hp]
    | publish p d a haction hp =>
        subst haction
        refine (hmoves (h.routes_at hp).1 hmu (Function.update_self _ _ _) ?_).elim
        simp [hp]
  · have hmove := ClientState.entryMove_apply henabled ip
    generalize (s.apply cfg action).streamers ip = entry at hmove ⊢
    cases hmove with
    | stay => exact .inl rfl
    | evict | reevict | evictDelete => exact .inr rfl
    | publish p d a haction hp =>
        subst haction
        refine (hmoves (h.routes_at hp).1 hmu (Function.update_self _ _ _) ?_).elim
        simp [hp]
  · rcases ClientState.created_apply cfg s action with heq | ⟨_, _, _, heq⟩ <;> omega
  · exact (ClientState.streamerMove_apply henabled a).frame ha

/-- A caller that moves finds the router as its new position needs it. -/
theorem callers_step (h : Routed s) (henabled : s.enabled cfg action = true) (q : Nat) :
    ((s.apply cfg action).caller q).Routes (s.apply cfg action) q := by
  have hstay := h.undisturbed (q := q) henabled
  have hmove := ClientState.callerMove_apply henabled q
  generalize hc : (s.apply cfg action).caller q = c at hmove hstay ⊢
  cases hmove with
  | stay => exact (h.callers q).undisturbed (hstay rfl)
  | go d stage stage' hp hmove =>
      have hroutes := h.routes_at hp
      cases hmove with
      | found a haction hentry =>
          subst haction
          exact (h.entry _ _ hentry).1
      | dead a haction hdead =>
          subst haction
          exact ⟨hroutes, hdead⟩
      | lock haction =>
          subst haction
          exact rfl
      | refound a haction hentry =>
          subst haction
          exact ⟨hroutes, .inl hentry, (h.entry _ _ hentry).1⟩
      | remissing haction hentry =>
          subst haction
          exact ⟨hroutes, hentry⟩
      | redead a haction hdead =>
          subst haction
          exact ⟨(if_pos hdead).trans hroutes.1, hroutes.2.1, hroutes.2.2, hdead⟩
      | reevict a haction =>
          subst haction
          exact ⟨hroutes.1, Function.update_self _ _ _⟩
      | create haction =>
          subst haction
          refine ⟨hroutes.1, hroutes.2, Nat.lt_succ_self _, ?_⟩
          change (Function.update s.streamer s.created _ s.created).targetIP = _
          rw [Function.update_self]
          rfl
      | _ => trivial
  | enqueue d a =>
      obtain ⟨env, ⟨_ | ch⟩, targetIP, attempts⟩ := d <;> trivial
  | _ => trivial

/-- A streamer in the map has been created for its address. -/
theorem entry_step (h : Routed s) (henabled : s.enabled cfg action = true) {ip : String} {a : Nat}
    (ha : (s.apply cfg action).streamers ip = some a) :
    a < (s.apply cfg action).created ∧ ((s.apply cfg action).streamer a).targetIP = ip := by
  have hknown (hold : a < s.created ∧ (s.streamer a).targetIP = ip) :
      a < (s.apply cfg action).created ∧ ((s.apply cfg action).streamer a).targetIP = ip := by
    refine ⟨?_, ((ClientState.streamerMove_apply henabled a).frame hold.1).1.trans hold.2⟩
    rcases ClientState.created_apply cfg s action with heq | ⟨_, _, _, heq⟩ <;> omega
  have hmove := ClientState.entryMove_apply henabled ip
  rw [ha] at hmove
  generalize hentry : some a = entry at hmove
  cases hmove with
  | stay => exact hknown (h.entry ip a hentry.symm)
  | evict | reevict | evictDelete => cases hentry
  | publish p d b haction hp hip =>
      cases hentry
      obtain ⟨_, _, hlt, htarget⟩ := h.routes_at hp
      exact hknown ⟨hlt, htarget.trans hip.symm⟩

/-- A streamer that is not dead stays in the map. -/
theorem stored_step (h : Routed s) (hguard : DeletesOwn s action)
    (henabled : s.enabled cfg action = true) {a : Nat} (halive : (s.streamer a).dead = false)
    (hstored : s.streamers (s.streamer a).targetIP = some a) :
    (s.apply cfg action).streamers (s.streamer a).targetIP = some a := by
  have hne {b : Nat} {entry : Option Nat} (hfound : entry = some b ∨ entry = none)
      (hdead : (s.streamer b).dead = true) (hentry : entry = some a) : False := by
    rcases hfound with hb | hnone
    · obtain rfl := Option.some.inj (hb.symm.trans hentry)
      rw [hdead] at halive
      cases halive
    · rw [hnone] at hentry
      cases hentry
  have hmove := ClientState.entryMove_apply henabled (s.streamer a).targetIP
  generalize (s.apply cfg action).streamers (s.streamer a).targetIP = entry at hmove ⊢
  cases hmove with
  | stay => exact hstored
  | evict p d b haction hp hip =>
      subst haction
      rw [hip] at hstored
      exact (hne hguard (h.routes_at hp).2 hstored).elim
  | reevict p d b haction hp hip =>
      rw [hip] at hstored
      obtain ⟨_, hfound, _, hdead⟩ := h.routes_at hp
      exact (hne hfound hdead hstored).elim
  | evictDelete b code haction hfailure hip =>
      subst haction
      rw [hip] at hstored
      exact (hne hguard (h.marked b code (.inr hfailure)) hstored).elim
  | publish p d b haction hp hip =>
      rw [hip, (h.routes_at hp).2.1] at hstored
      cases hstored

/-- A streamer that is about to be put into the map stays so until it is there. -/
theorem publishing_step (h : Routed s) (henabled : s.enabled cfg action = true) {a p : Nat}
    {d : Dispatch} (hp : s.caller p = .dispatch d (.publish a)) :
    (s.apply cfg action).streamers (s.streamer a).targetIP = some a ∨
      (s.apply cfg action).caller p = .dispatch d (.publish a) := by
  have hmove := ClientState.callerMove_apply henabled p
  generalize (s.apply cfg action).caller p = c at hmove ⊢
  cases hmove with
  | stay => exact .inr hp
  | go d' stage stage' hp' hmove =>
      rw [hp] at hp'
      cases hp'
      cases hmove with
      | publish _ haction =>
          subst haction
          rw [(h.routes_at hp).2.2.2]
          exact .inl (Function.update_self _ _ _)
  | _ => simp_all

theorem step (h : Routed s) (hguard : DeletesOwn s action)
    (henabled : s.enabled cfg action = true) : Routed (s.apply cfg action) where
  callers := h.callers_step henabled
  entry _ _ := h.entry_step henabled
  marked a code := (ClientState.streamerMove_apply henabled a).marked (h.marked a) code
  alive := by
    intro a ha halive
    by_cases hold : a < s.created
    · obtain ⟨htarget, hdead⟩ := (ClientState.streamerMove_apply henabled a).frame hold
      have halive' : (s.streamer a).dead = false := by
        by_contra hne
        rw [hdead (by simpa using hne)] at halive
        cases halive
      rw [htarget]
      rcases h.alive a hold halive' with hstored | ⟨p, d, hp⟩
      · exact .inl (h.stored_step hguard henabled halive' hstored)
      · exact (h.publishing_step henabled hp).imp_right fun hp' => ⟨p, d, hp'⟩
    · rcases ClientState.created_apply cfg s action with heq | ⟨p, d, rfl, heq⟩
      · omega
      · obtain rfl : a = s.created := by omega
        exact .inr ⟨p, d, Function.update_self _ _ _⟩

end Routed

theorem routed_of_reachable {cfg : Config} {s : ClientState}
    (hs : (client cfg).ReachableIf DeletesOwn s) : Routed s := by
  refine hs.invariant routed_newClient fun s action t h hguard hstep => ?_
  obtain ⟨henabled, rfl⟩ := System.guarded_step_eq_some_iff.mp hstep
  exact h.step hguard henabled

/-- If the deletes outside the mutex remove no other streamer than the one that
was found, no address has two streamers that are not dead; and while nobody is in
`getStreamer`, each of them is the one in the map. -/
theorem one_live_stream {cfg : Config} {s : ClientState}
    (hs : (client cfg).ReachableIf DeletesOwn s) :
    (∀ a < s.created, ∀ b < s.created, (s.streamer a).dead = false → (s.streamer b).dead = false →
      (s.streamer a).targetIP = (s.streamer b).targetIP → a = b) ∧
    ((∀ p d stage, s.caller p = .dispatch d stage → stage.finding = false) →
      ∀ a < s.created, (s.streamer a).dead = false →
        s.streamers (s.streamer a).targetIP = some a) := by
  have h := routed_of_reachable hs
  -- a streamer that is about to be put into the map finds no entry there
  have hvacant {a p : Nat} {d : Dispatch} (hp : s.caller p = .dispatch d (.publish a)) :
      s.mu = some p ∧ s.streamers (s.streamer a).targetIP = none := by
    obtain ⟨hmu, hnone, _, htarget⟩ := h.routes_at hp
    exact ⟨hmu, htarget ▸ hnone⟩
  refine ⟨fun a ha b hb halive hblive hip => ?_, fun hidle a ha halive => ?_⟩
  · rcases h.alive a ha halive with hastored | ⟨p, d, hp⟩ <;>
      rcases h.alive b hb hblive with hbstored | ⟨q, e, hq⟩
    · exact Option.some.inj (hastored.symm.trans (hip ▸ hbstored))
    · rw [hip, (hvacant hq).2] at hastored
      cases hastored
    · rw [← hip, (hvacant hp).2] at hbstored
      cases hbstored
    · obtain rfl := Routed.holder_unique (hvacant hp).1 (hvacant hq).1
      rw [hp] at hq
      cases hq
      rfl
  · rcases h.alive a ha halive with hstored | ⟨p, d, hp⟩
    · exact hstored
    · cases hidle p d _ hp

def singles : Config := ⟨1, by decide⟩

/-- A request for the wallet `(1, 42)`. -/
def request (requestId : UInt64) : RemoteEnvelope where
  tenantId := 1
  uid := 42
  txId := toString requestId
  requestId := requestId
  opCode := 1
  payload := [0, 0, 0, 0, 0, 0, 0, 1]

def targetA : String := "10.0.0.1:9000"

/-- The first attempt of a fire-and-forget request. -/
def firstAttempt (requestId : UInt64) : Dispatch := ⟨request requestId, ⟨none⟩, targetA, 0⟩

/-- A caller begins a request and looks the streamer up. -/
def asking (p : Nat) (requestId : UInt64) : List Action :=
  [.emulate p (request requestId), .resolve p (request requestId) ⟨none⟩ (.ok targetA),
    .load p (firstAttempt requestId)]

/-- A caller that finds no entry creates a streamer. -/
def creating (p : Nat) (requestId : UInt64) (a : Nat) : List Action :=
  [.lock p (firstAttempt requestId), .reload p (firstAttempt requestId),
    .create p (firstAttempt requestId) true, .publish p (firstAttempt requestId) a]

/-- Two streamers of an address fail one after the other. The first one deletes its own
entry, the second one is deleted by the call that finds it dead, and each is replaced. -/
def succeeding : List Action :=
  asking 0 1 ++ creating 0 1 0 ++
    [Action.recvErr 0, .mark 0 .streamInterrupted, .evictLoad 0 .streamInterrupted,
      .evictDelete 0 .streamInterrupted] ++
    asking 1 2 ++ creating 1 2 1 ++ [Action.recvErr 1, .mark 1 .streamInterrupted] ++
    asking 2 3 ++ [Action.check 2 (firstAttempt 3) 1, .evict 2 (firstAttempt 3) 1] ++
    creating 2 3 2

def succeeded : ClientState := (client singles).after succeeding

theorem one_live_stream_succeeded :
    succeeded.created = 3 ∧ (succeeded.streamer 0).dead = true ∧
      (succeeded.streamer 1).dead = true ∧ (succeeded.streamer 2).dead = false ∧
      (∀ a < succeeded.created, (succeeded.streamer a).dead = false →
        (succeeded.streamer a).targetIP = (succeeded.streamer 2).targetIP → a = 2) ∧
      succeeded.streamers (succeeded.streamer 2).targetIP = some 2 := by
  have hreach : (client singles).ReachableIf DeletesOwn succeeded :=
    System.reachableIf_of_admits (by decide +kernel)
  have hcreated : succeeded.created = 3 := by decide +kernel
  have hlive : (succeeded.streamer 2).dead = false := by decide +kernel
  refine ⟨hcreated, by decide +kernel, by decide +kernel, hlive, fun a ha halive hip => ?_, ?_⟩
  · exact (one_live_stream hreach).1 a ha 2 (by rw [hcreated]; decide) halive hlive hip
  · refine (one_live_stream hreach).2 (fun p d stage hp => ?_) 2 (by rw [hcreated]; decide) hlive
    have hstored (q : Nat) (hq : q < 3) :
        succeeded.caller q = .dispatch (firstAttempt (q.toUInt64 + 1)) (.store q) := by
      revert q
      decide +kernel
    rcases Nat.lt_or_ge p 3 with hp3 | hp3
    · rw [hstored p hp3] at hp
      cases hp
      rfl
    · obtain ⟨q, rfl⟩ := Nat.exists_eq_add_of_le' hp3
      cases (show succeeded.caller (q + 3) = .idle from rfl).symm.trans hp

/-- The first streamer fails. Two callers find it dead; the second one replaces
it, and then the first one deletes the replacement and creates another. -/
def crossing : List Action :=
  asking 0 1 ++ creating 0 1 0 ++ [Action.recvErr 0, .mark 0 .streamInterrupted] ++
    asking 1 2 ++ [Action.check 1 (firstAttempt 2) 0] ++
    asking 2 3 ++ [Action.check 2 (firstAttempt 3) 0, .evict 2 (firstAttempt 3) 0] ++
    creating 2 3 1 ++ [Action.evict 1 (firstAttempt 2) 0] ++ creating 1 2 2

theorem two_live_streams :
    ∃ s, (client singles).Reachable s ∧ 1 < s.created ∧ 2 < s.created ∧
      (s.streamer 1).dead = false ∧ (s.streamer 2).dead = false ∧
      (s.streamer 1).targetIP = (s.streamer 2).targetIP ∧
      s.streamers (s.streamer 1).targetIP = some 2 :=
  ⟨_, System.reachable_after crossing, by decide +kernel, by decide +kernel, by decide +kernel,
    by decide +kernel, by decide +kernel, by decide +kernel⟩

end ActorCluster.Client
