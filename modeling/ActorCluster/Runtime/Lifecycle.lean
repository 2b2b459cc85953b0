import ActorCluster.Runtime.Queue

/-! # The end of an actor

`Stop` only ever leads from a status that accepts messages to one that does
not. A loop that has decided to exit finds its status unchanged until it stores
the last one, so no message is accepted after that decision.
-/

namespace ActorCluster.Runtime

open Transition

variable {Msg : Type}

/-- The consumer has stopped handling, and `Drain` may be at work. -/
def Loop.draining : Loop → Bool
  | .dead | .drain _ | .recycle _ _ none => true
  | _ => false

/-- What the status must be, given where the loop stands. -/
structure Actor.Lawful (actor : Actor) : Prop where
  exiting : actor.loop = .exit → actor.status = .stopping
  ended : actor.loop.draining = true ↔ actor.status = .dead

theorem Actor.Lawful.move {actor actor' : Actor} (h : actor.Lawful)
    (hstatus : actor'.status = actor.status)
    (hexit : actor'.loop = .exit → actor.status = .stopping)
    (hdraining : actor'.loop.draining = actor.loop.draining) : actor'.Lawful := by
  refine ⟨fun hloop => hstatus.trans (hexit hloop), ?_⟩
  rw [hdraining, hstatus]
  exact h.ended

/-- The status that a goroutine inside `Stop` expects. -/
def Thread.expected : Thread Msg → Option Status
  | .compareAndSwap _ st => some st
  | _ => none

namespace Machine

structure Lifecycle (s : Machine Msg) : Prop where
  compared : ∀ p st, (s.thread p).expected = some st → st.accepts = true
  lawful : ∀ a, (s.actor a).Lawful

namespace Lifecycle

variable {s s' : Machine Msg}

theorem congr (h : Lifecycle s) (hthread : s'.thread = s.thread) (hactor : s'.actor = s.actor) :
    Lifecycle s' :=
  ⟨fun p st hp => h.compared p st (hthread ▸ hp), fun a => hactor ▸ h.lawful a⟩

theorem setThread (h : Lifecycle s) (p : Nat) {t : Thread Msg}
    (ht : ∀ st, t.expected = some st → st.accepts = true) : Lifecycle (s.setThread p t) where
  compared r st hr := by
    by_cases hrp : r = p
    · subst hrp
      rw [setThread_thread_self] at hr
      exact ht st hr
    · rw [s.setThread_thread_of_ne t hrp] at hr
      exact h.compared r st hr
  lawful := h.lawful

theorem setActor (h : Lifecycle s) (a : Nat) (actor : Actor) (hactor : actor.Lawful) :
    Lifecycle (s.setActor a actor) where
  compared := h.compared
  lawful b := by
    by_cases hb : b = a
    · subst hb
      rwa [setActor_actor_self]
    · rw [s.setActor_actor_of_ne actor hb]
      exact h.lawful b

variable [DecidableEq Msg]

theorem step (h : Lifecycle s) {action : Action Msg} (henabled : s.enabled action = true) :
    Lifecycle (s.apply action) := by
  have hwrite (addr : Addr) (env : Envelope Msg) : Lifecycle (s.setEnvelope addr env) :=
    h.congr rfl rfl
  have hpending (delta : UInt64) : Lifecycle (s.addPending delta) := h.congr rfl rfl
  have hpool (qnode : Addr) : Lifecycle (s.poolGet qnode) := h.congr rfl rfl
  have hput (addr : Addr) : Lifecycle (s.poolPut addr) := h.congr rfl rfl
  have htouch {a : Nat} {actor : Actor} (hstatus : actor.status = (s.actor a).status)
      (hloop : actor.loop = (s.actor a).loop) : actor.Lawful :=
    (h.lawful a).move hstatus (fun hexit => (h.lawful a).exiting (hloop ▸ hexit)) (by rw [hloop])
  cases action with
  | send p a msg =>
      refine h.setThread p ?_
      split <;> rintro _ ⟨⟩
  | get p a msg qnode | getEnvelope p env => exact (hpool _).setThread p (by rintro _ ⟨⟩)
  | fill p a msg qnode | reset p a qnode | link p a qnode prev ticket | putEnvelope p env
  | putClearNext p env => exact (hwrite _ _).setThread p (by rintro _ ⟨⟩)
  | count p a qnode => exact (hpending _).setThread p (by rintro _ ⟨⟩)
  | swap p a qnode =>
      have hlawful : Actor.Lawful { s.actor a with tail := qnode } := htouch rfl rfl
      exact ((h.setActor a _ hlawful).setThread p
        (t := .link a qnode (s.actor a).tail (s.swaps a).length) (by rintro _ ⟨⟩)).congr rfl rfl
  | signal p a ticket =>
      have hlawful : Actor.Lawful { s.actor a with wake := true } := htouch rfl rfl
      exact ((h.setActor a _ hlawful).setThread p (t := .idle) (by rintro _ ⟨⟩)).congr rfl rfl
  | setMsg p env msg => exact hwrite _ _
  | sendEnvelope p a env =>
      refine h.setThread p ?_
      split <;> rintro _ ⟨⟩
  | poolPut p env => exact (hput _).setThread p (by rintro _ ⟨⟩)
  | callStop p a => exact h.setThread p (by rintro _ ⟨⟩)
  | stop p a =>
      refine h.setThread p ?_
      split
      next haccepts =>
        rintro _ ⟨⟩
        exact haccepts
      next => rintro _ ⟨⟩
  | compareAndSwap p a st =>
      have hp : s.thread p = .compareAndSwap a st := by simpa [enabled] using henabled
      have haccepts : st.accepts = true := h.compared p st (by rw [hp]; rfl)
      refine (h.setActor a _ ?_).setThread p ?_
      · by_cases hstatus : (s.actor a).status = st
        · -- an actor that accepts messages is neither exiting nor dead
          have hne := Status.accepts_iff.mp haccepts
          refine ⟨fun _ => ?_, fun hloop => ?_, fun hdead => ?_⟩
          · simp [hstatus]
          · exact absurd (hstatus.symm.trans ((h.lawful a).ended.mp hloop)) hne.2
          · simp [hstatus] at hdead
        · refine htouch ?_ rfl
          rw [decide_eq_false hstatus]
          rfl
      · split <;> rintro _ ⟨⟩
  | stopSignal p a =>
      refine (h.setActor a _ ?_).setThread p ?_
      · exact htouch rfl rfl
      · rintro _ ⟨⟩
  | start a => exact h.setActor a _ ⟨by simp, by simp [Loop.draining]⟩
  | wake a =>
      have ha : (s.actor a).loop = .waiting ∧ (s.actor a).wake = true := by
        simpa [enabled] using henabled
      exact h.setActor a _ ((h.lawful a).move rfl (by simp) (by rw [ha.1]; rfl))
  | peek a =>
      have ha : (s.actor a).loop = .dequeue := by simpa [enabled] using henabled
      refine h.setActor a _ ((h.lawful a).move rfl ?_ ?_)
      · cases (s.heap (s.actor a).head).next <;> simp
      · rw [ha]
        cases (s.heap (s.actor a).head).next <;> rfl
  | advance a next =>
      have ha : (s.actor a).loop = .advance next := by simpa [enabled] using henabled
      exact h.setActor a _ ((h.lawful a).move rfl (by simp) (by rw [ha]; rfl))
  | recycle a stage old qnode =>
      have ha : (s.actor a).loop = .recycle stage old qnode := by simpa [enabled] using henabled
      have hdraining (stage' : Recycle) :
          (Loop.recycle stage' old qnode).draining = (s.actor a).loop.draining := by
        rw [ha]
        cases qnode <;> rfl
      cases stage with
      | count => exact (hpending _).setActor a _ ((h.lawful a).move rfl (by simp) (hdraining _))
      | clearMsg | clearNext =>
          exact (hwrite _ _).setActor a _ ((h.lawful a).move rfl (by simp) (hdraining _))
      | put =>
          refine (hput _).setActor a _ ((h.lawful a).move rfl ?_ ?_)
          · cases qnode <;> simp
          · rw [← hdraining .put]
            cases qnode <;> rfl
  | handle a qnode =>
      have ha : (s.actor a).loop = .handle qnode := by simpa [enabled] using henabled
      exact (h.setActor a { s.actor a with loop := .release qnode }
        ((h.lawful a).move rfl (by simp) (by rw [ha]; rfl))).congr rfl rfl
  | release a qnode =>
      have ha : (s.actor a).loop = .release qnode := by simpa [enabled] using henabled
      exact (hwrite _ _).setActor a _ ((h.lawful a).move rfl (by simp) (by rw [ha]; rfl))
  | checkStatus a =>
      have ha : (s.actor a).loop = .missed := by simpa [enabled] using henabled
      refine h.setActor a _ ((h.lawful a).move rfl (fun hloop => ?_) ?_)
      · by_contra hstopping
        rw [if_neg hstopping] at hloop
        cases hloop
      · rw [ha]
        split <;> rfl
  | exit a | cancel a => exact h.setActor a _ ⟨(by simp), fun _ => rfl, fun _ => rfl⟩
  | drainPeek a =>
      have ha : (s.actor a).loop = .dead := by simpa [enabled] using henabled
      refine h.setActor a _ ((h.lawful a).move rfl ?_ ?_)
      · cases (s.heap (s.actor a).head).next <;> simp
      · rw [ha]
        cases (s.heap (s.actor a).head).next <;> rfl
  | drain a next =>
      have ha : (s.actor a).loop = .drain next := by simpa [enabled] using henabled
      exact (h.setActor a { s.actor a with
          head := next, loop := .recycle .count (s.actor a).head none }
        ((h.lawful a).move rfl (by simp) (by rw [ha]; rfl))).congr rfl rfl
  | poolDrop env => exact h.congr rfl rfl

end Lifecycle

end Machine

end ActorCluster.Runtime
