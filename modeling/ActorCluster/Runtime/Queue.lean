import ActorCluster.Runtime.Ownership

/-! # Partially linked queues

Between the tail swap and the link of a producer the queue is disconnected: the
new node is the tail, and the pointer from its predecessor is still missing.
The predicates below describe such a queue by the nodes and the mailbox entries
in the order of their swaps; an entry that is not linked names the producer
that holds the missing pointer.
-/

namespace ActorCluster.Runtime

open Transition Custody

variable {Msg : Type}

namespace Machine

/-- The node `y` was swapped in after `x`. Either the pointer is there, or the
producer that will write it stands between its swap and its link. -/
def Linked (s : Machine Msg) (a : Nat) (x y : Addr) : Option Nat → Prop
  | none => (s.heap x).next = some y
  | some p => (s.heap x).next = none ∧ ∃ ticket, s.thread p = .link a y x ticket

/-- The nodes behind `x`, up to the tail of the actor's queue. -/
inductive Chained (s : Machine Msg) (a : Nat) :
    Addr → List Addr → List (Entry (Option Msg)) → Prop
  | last {x : Addr} (hnone : (s.heap x).next = none) (htail : (s.actor a).tail = x) :
      Chained s a x [] []
  | link {x y : Addr} {ys : List Addr} {entry : Entry (Option Msg)}
      {entries : List (Entry (Option Msg))} (hlinked : s.Linked a x y entry.linking)
      (hmsg : (s.heap y).msg = entry.msg) (hrest : Chained s a y ys entries) :
      Chained s a x (y :: ys) (entry :: entries)

variable {s s' : Machine Msg} {a : Nat} {x y : Addr} {ys : List Addr}
variable {entries : List (Entry (Option Msg))}

theorem Linked.congr {producer : Option Nat} (h : s.Linked a x y producer)
    (hnext : (s'.heap x).next = (s.heap x).next)
    (hthread : ∀ p ticket, producer = some p → s.thread p = .link a y x ticket →
      s'.thread p = .link a y x ticket) :
    s'.Linked a x y producer := by
  cases producer with
  | none => exact hnext.trans h
  | some p =>
      obtain ⟨hnone, ticket, hp⟩ := h
      exact ⟨hnext.trans hnone, ticket, hthread p ticket rfl hp⟩

/-- The pointer tells whether the entry is linked. -/
theorem Linked.next_eq_some_iff {producer : Option Nat} (h : s.Linked a x y producer) {z : Addr} :
    (s.heap x).next = some z ↔ producer = none ∧ z = y := by
  cases producer with
  | none => rw [show (s.heap x).next = some y from h]; simp [eq_comm]
  | some p => rw [h.1]; simp

namespace Chained

/-- A chain depends on the pointers and messages of its own nodes, on the tail,
and on the producers that have yet to link. -/
theorem congr (h : s.Chained a x ys entries)
    (htail : (s'.actor a).tail = (s.actor a).tail)
    (hnext : ∀ z ∈ x :: ys, (s'.heap z).next = (s.heap z).next)
    (hmsg : ∀ z ∈ ys, (s'.heap z).msg = (s.heap z).msg)
    (hthread : ∀ p y z ticket, some p ∈ entries.map Entry.linking →
      s.thread p = .link a y z ticket → s'.thread p = .link a y z ticket) :
    s'.Chained a x ys entries := by
  induction h with
  | last hnone hlast =>
      exact .last ((hnext _ List.mem_cons_self).trans hnone) (htail.trans hlast)
  | link hlinked hentry _ ih =>
      rw [List.forall_mem_cons] at hnext hmsg
      simp only [List.map_cons, List.mem_cons] at hthread
      refine .link (hlinked.congr hnext.1 fun p ticket hp => ?_) (hmsg.1.trans hentry)
        (ih hnext.2 hmsg.2 fun p y z ticket hp => ?_)
      · exact hthread p _ _ ticket (Or.inl hp.symm)
      · exact hthread p y z ticket (Or.inr hp)

/-- The tail is the last node. -/
theorem tail_mem (h : s.Chained a x ys entries) : (s.actor a).tail ∈ x :: ys := by
  induction h with
  | last _ htail => exact htail ▸ List.mem_cons_self
  | link _ _ _ ih => exact List.mem_cons_of_mem _ ih

/-- A pointer out of the chain leads back into it. -/
theorem next_mem (h : s.Chained a x ys entries) {z w : Addr} (hz : z ∈ x :: ys)
    (hnext : (s.heap z).next = some w) : w ∈ ys := by
  induction h with
  | last hnone _ =>
      obtain rfl := List.mem_singleton.mp hz
      rw [hnone] at hnext
      cases hnext
  | link hlinked _ _ ih =>
      rcases List.mem_cons.mp hz with rfl | hz
      · rw [(hlinked.next_eq_some_iff.mp hnext).2]
        exact List.mem_cons_self
      · exact List.mem_cons_of_mem _ (ih hz)

/-- Every node that can be reached from the head is in the chain. -/
theorem mem_of_reaches (h : s.Chained a x ys entries) {z : Addr}
    (hz : Relation.ReflTransGen (fun z w => (s.heap z).next = some w) x z) : z ∈ x :: ys := by
  induction hz with
  | refl => exact List.mem_cons_self
  | tail _ hlast ih => exact List.mem_cons_of_mem _ (h.next_mem ih hlast)

/-- The producer of an entry that is not linked holds its predecessor. -/
theorem producer (h : s.Chained a x ys entries) {p : Nat}
    (hp : some p ∈ entries.map Entry.linking) :
    ∃ y ∈ ys, ∃ z ∈ x :: ys, ∃ ticket, s.thread p = .link a y z ticket ∧
      (s.heap z).next = none := by
  induction h with
  | last => simp at hp
  | @link x y ys entry entries hlinked _ _ ih =>
      rw [List.map_cons, List.mem_cons] at hp
      rcases hp with hp | hp
      · rw [← hp] at hlinked
        obtain ⟨hnone, ticket, hthread⟩ := hlinked
        exact ⟨y, List.mem_cons_self, x, List.mem_cons_self, ticket, hthread, hnone⟩
      · obtain ⟨y', hy', z, hz, ticket, hthread, hnone⟩ := ih hp
        exact ⟨y', List.mem_cons_of_mem _ hy', z, List.mem_cons_of_mem _ hz, ticket, hthread,
          hnone⟩

/-- A tail swap appends a node whose link is missing. -/
theorem snoc (h : s.Chained a x ys entries) {p ticket : Nat} {qnode : Addr}
    (htail : (s'.actor a).tail = qnode)
    (hnext : ∀ z ∈ x :: ys, (s'.heap z).next = (s.heap z).next)
    (hmsg : ∀ z ∈ ys, (s'.heap z).msg = (s.heap z).msg)
    (hthread : ∀ r y z ticket, s.thread r = .link a y z ticket → s'.thread r = .link a y z ticket)
    (hp : s'.thread p = .link a qnode (s.actor a).tail ticket)
    (hnone : (s'.heap qnode).next = none) :
    s'.Chained a x (ys ++ [qnode]) (entries ++ [⟨(s'.heap qnode).msg, some p⟩]) := by
  induction h with
  | last hlast hx =>
      refine .link ⟨(hnext _ List.mem_cons_self).trans hlast, ticket, ?_⟩ rfl (.last hnone htail)
      rw [hp, hx]
  | link hlinked hentry _ ih =>
      rw [List.forall_mem_cons] at hnext hmsg
      exact .link (hlinked.congr hnext.1 fun p ticket _ => hthread p _ _ ticket)
        (hmsg.1.trans hentry) (ih hnext.2 hmsg.2)

/-- The missing link is written. -/
theorem linkEntry (h : s.Chained a x ys entries) (hnodup : (x :: ys).Nodup) {p ticket : Nat}
    {qnode prev : Addr} (hp : s.thread p = .link a qnode prev ticket)
    (hmem : some p ∈ entries.map Entry.linking)
    (htail : (s'.actor a).tail = (s.actor a).tail)
    (hprev : (s'.heap prev).next = some qnode)
    (hnext : ∀ z, z ≠ prev → (s'.heap z).next = (s.heap z).next)
    (hmsg : ∀ z, (s'.heap z).msg = (s.heap z).msg)
    (hthread : ∀ r, r ≠ p → s'.thread r = s.thread r) :
    s'.Chained a x ys (Runtime.linkEntry p entries) := by
  induction h with
  | last => simp at hmem
  | @link x y ys entry entries hlinked hentry hrest ih =>
      obtain ⟨hx, hnodup'⟩ := List.nodup_cons.mp hnodup
      by_cases hentryp : entry.linking = some p
      · -- the rest of the chain is behind other nodes, and has no entry of `p`
        rw [hentryp] at hlinked
        obtain ⟨_, _, hp'⟩ := hlinked
        obtain ⟨_, rfl, rfl, _⟩ := Thread.link.inj (hp.symm.trans hp')
        have hother : some p ∉ entries.map Entry.linking := by
          intro hmem'
          obtain ⟨y', hy', z, _, _, hp'', _⟩ := hrest.producer hmem'
          obtain ⟨_, rfl, _⟩ := Thread.link.inj (hp.symm.trans hp'')
          exact (List.nodup_cons.mp hnodup').1 hy'
        have hsame : Runtime.linkEntry p (entry :: entries) =
            { entry with linking := none } :: entries := by
          refine congrArg₂ List.cons (if_pos hentryp) (linkEntry_of_forall_ne ?_)
          exact fun other hother' heq => hother (heq ▸ List.mem_map_of_mem hother')
        rw [hsame]
        refine .link hprev ((hmsg _).trans hentry) (hrest.congr htail ?_ (fun z _ => hmsg z) ?_)
        · exact fun z hz => hnext z fun heq => hx (heq ▸ hz)
        · intro r y z ticket hr hthread'
          rw [hthread r fun heq => hother (heq ▸ hr), hthread']
      · have hmem' : some p ∈ entries.map Entry.linking := by
          rw [List.map_cons, List.mem_cons] at hmem
          exact hmem.resolve_left fun heq => hentryp heq.symm
        have hne : x ≠ prev := by
          obtain ⟨_, _, z, hz, _, hp', _⟩ := hrest.producer hmem'
          obtain ⟨_, _, rfl, _⟩ := Thread.link.inj (hp.symm.trans hp')
          exact fun heq => hx (heq ▸ hz)
        have hsame : Runtime.linkEntry p (entry :: entries) =
            entry :: Runtime.linkEntry p entries :=
          congrArg₂ List.cons (if_neg hentryp) rfl
        rw [hsame]
        refine .link (hlinked.congr (hnext x hne) fun r ticket hr hthread' => ?_)
          ((hmsg _).trans hentry) (ih hnodup' hmem')
        rw [hthread r fun heq => hentryp (heq ▸ hr), hthread']

end Chained

end Machine

/-- The node that a consumer is about to deliver, or has just delivered. -/
def Loop.qnode : Loop → Option Addr
  | .recycle _ _ qnode => qnode
  | .handle qnode | .release qnode => some qnode
  | _ => none

/-- The node that a consumer has seen behind the head. -/
def Loop.seen : Loop → Option Addr
  | .advance next | .drain next => some next
  | _ => none

/-- What the local state of a consumer says of its actor. -/
structure Actor.Sound (actor : Actor) : Prop where
  unstarted : actor.status = .init → actor.loop = .unstarted
  current : ∀ qnode, actor.loop.qnode = some qnode → actor.head = qnode

/-- The goroutine stands between a tail swap and the link it owes. -/
def Thread.owesLink : Thread Msg → Bool
  | .link _ _ _ _ => true
  | _ => false

/-- A node that is about to be swapped in. -/
def Thread.entering : Thread Msg → Option Addr
  | .count _ qnode | .swap _ qnode => some qnode
  | _ => none

namespace Machine

/-- The queues of a machine: the nodes and the entries of each, in the order of
their swaps. -/
structure Queued (s : Machine Msg) (nodes : Nat → List Addr)
    (queue : Nat → List (Entry (Option Msg))) : Prop where
  chained : ∀ a, s.Chained a (s.actor a).head (nodes a) (queue a)
  linking : ∀ p a qnode prev ticket, s.thread p = .link a qnode prev ticket →
    some p ∈ (queue a).map Entry.linking
  blank : ∀ p qnode, (s.thread p).entering = some qnode → (s.heap qnode).next = none
  ahead : ∀ a next, (s.actor a).loop.seen = some next →
    (s.heap (s.actor a).head).next = some next
  sound : ∀ a, (s.actor a).Sound

namespace Queued

variable {s s' : Machine Msg} {nodes : Nat → List Addr} {queue : Nat → List (Entry (Option Msg))}

/-- The pool, the pending count and the histories do not matter to the queues. -/
theorem congr (h : Queued s nodes queue) (hheap : s'.heap = s.heap) (hactor : s'.actor = s.actor)
    (hthread : s'.thread = s.thread) : Queued s' nodes queue where
  chained a := by
    rw [hactor]
    refine (h.chained a).congr (by rw [hactor]) ?_ ?_ ?_ <;> simp [hheap, hthread]
  linking p a qnode prev ticket hp := h.linking p a qnode prev ticket (hthread ▸ hp)
  blank p qnode hp := by
    rw [hheap]
    exact h.blank p qnode (hthread ▸ hp)
  ahead a next ha := by
    rw [hheap, hactor]
    exact h.ahead a next (hactor ▸ ha)
  sound a := hactor ▸ h.sound a

/-- A goroutine that neither makes nor pays a debt moves on. -/
theorem setThread (h : Queued s nodes queue) {p : Nat} {t t' : Thread Msg} (hp : s.thread p = t)
    (ht : t.owesLink = false) (ht' : t'.owesLink = false)
    (hblank : ∀ qnode, t'.entering = some qnode → (s.heap qnode).next = none) :
    Queued (s.setThread p t') nodes queue where
  chained a := by
    refine (h.chained a).congr rfl (fun _ _ => rfl) (fun _ _ => rfl) ?_
    intro r y z ticket _ hr
    have hne : r ≠ p := by
      rintro rfl
      rw [← hp, hr] at ht
      cases ht
    exact (s.setThread_thread_of_ne t' hne).trans hr
  linking r a qnode prev ticket hr := by
    by_cases hrp : r = p
    · subst hrp
      rw [setThread_thread_self] at hr
      rw [hr] at ht'
      cases ht'
    · rw [s.setThread_thread_of_ne t' hrp] at hr
      exact h.linking r a qnode prev ticket hr
  blank r qnode hr := by
    by_cases hrp : r = p
    · subst hrp
      rw [setThread_thread_self] at hr
      exact hblank qnode hr
    · rw [s.setThread_thread_of_ne t' hrp] at hr
      exact h.blank r qnode hr
  ahead := h.ahead
  sound := h.sound

/-- An actor changes in place. -/
theorem setActor (h : Queued s nodes queue) {a : Nat} {actor : Actor}
    (hhead : actor.head = (s.actor a).head) (htail : actor.tail = (s.actor a).tail)
    (hahead : ∀ next, actor.loop.seen = some next → (s.heap actor.head).next = some next)
    (hsound : actor.Sound) : Queued (s.setActor a actor) nodes queue where
  chained b := by
    have hends : ((s.setActor a actor).actor b).head = (s.actor b).head ∧
        ((s.setActor a actor).actor b).tail = (s.actor b).tail := by
      by_cases hb : b = a
      · subst hb
        rw [setActor_actor_self]
        exact ⟨hhead, htail⟩
      · rw [s.setActor_actor_of_ne actor hb]
        exact ⟨rfl, rfl⟩
    rw [hends.1]
    exact (h.chained b).congr hends.2 (fun _ _ => rfl) (fun _ _ => rfl) fun _ _ _ _ _ hr => hr
  linking := h.linking
  blank := h.blank
  ahead := Function.forall_update_iff s.actor
      (p := fun _ actor => ∀ next, actor.loop.seen = some next →
        (s.heap actor.head).next = some next) |>.mpr ⟨hahead, fun b _ => h.ahead b⟩
  sound := (Function.forall_update_iff s.actor (p := fun _ actor => actor.Sound)).mpr
    ⟨hsound, fun b _ => h.sound b⟩

/-- A wake-up is sent or taken. -/
theorem setWake (h : Queued s nodes queue) (a : Nat) (wake : Bool) :
    Queued (s.setActor a { s.actor a with wake := wake }) nodes queue :=
  h.setActor rfl rfl (h.ahead a) ⟨(h.sound a).unstarted, (h.sound a).current⟩

/-- A started consumer moves to a position where it refers to no node. -/
theorem rest (h : Queued s nodes queue) {a : Nat} {actor : Actor}
    (hhead : actor.head = (s.actor a).head) (htail : actor.tail = (s.actor a).tail)
    (hseen : actor.loop.seen = none) (hqnode : actor.loop.qnode = none)
    (hstatus : actor.status ≠ .init) : Queued (s.setActor a actor) nodes queue := by
  refine h.setActor hhead htail (fun next hnext => ?_)
    ⟨fun hinit => absurd hinit hstatus, fun qnode hcurrent => ?_⟩
  · rw [hseen] at hnext
    cases hnext
  · rw [hqnode] at hcurrent
    cases hcurrent

/-- A consumer looks behind its head. -/
theorem peek (h : Queued s nodes queue) {a : Nat} {empty : Loop} {found : Addr → Loop}
    (hstatus : (s.actor a).status ≠ .init) (hempty : empty.seen = none ∧ empty.qnode = none)
    (hfound : ∀ next, (found next).seen = some next ∧ (found next).qnode = none) :
    Queued (s.setLoop a ((s.heap (s.actor a).head).next.elim empty found)) nodes queue := by
  cases hnext : (s.heap (s.actor a).head).next with
  | none => exact h.rest rfl rfl hempty.1 hempty.2 hstatus
  | some next =>
      refine h.setActor rfl rfl (fun seen hseen => ?_)
        ⟨fun hinit => absurd hinit hstatus, fun qnode hqnode => ?_⟩
      · rw [← (hfound next).1.symm.trans hseen]
        exact hnext
      · cases (hfound next).2.symm.trans hqnode

/-- A node outside every queue is written; the head of a queue may lose its
message. -/
theorem setEnvelope (h : Queued s nodes queue) {addr : Addr} {env : Envelope Msg}
    (hmsg : ∀ a, addr ∉ nodes a)
    (hnext : env.next = (s.heap addr).next ∨
      env.next = none ∧ ∀ a, addr ≠ (s.actor a).head) :
    Queued (s.setEnvelope addr env) nodes queue := by
  have hkeep : ∀ z, z ≠ addr → (s.setEnvelope addr env).heap z = s.heap z :=
    fun z hz => s.setEnvelope_heap_of_ne env hz
  have hself := s.setEnvelope_heap_self addr env
  have hheads : ∀ a, ((s.setEnvelope addr env).heap (s.actor a).head).next =
      (s.heap (s.actor a).head).next := by
    intro a
    by_cases haddr : (s.actor a).head = addr
    · rw [haddr, hself]
      exact hnext.elim id fun hnone => absurd haddr.symm (hnone.2 a)
    · rw [hkeep _ haddr]
  refine ⟨fun a => (h.chained a).congr rfl ?_ ?_ (fun _ _ _ _ _ hr => hr), h.linking, ?_, ?_,
    h.sound⟩
  · rw [List.forall_mem_cons]
    refine ⟨hheads a, fun z hz => ?_⟩
    rw [hkeep z fun heq => hmsg a (heq ▸ hz)]
  · intro z hz
    rw [hkeep z fun heq => hmsg a (heq ▸ hz)]
  · intro p qnode hp
    by_cases haddr : qnode = addr
    · subst haddr
      rw [hself]
      exact hnext.elim (fun hsame => hsame.trans (h.blank p qnode hp)) fun hnone => hnone.1
    · rw [hkeep _ haddr]
      exact h.blank p qnode hp
  · intro a next ha
    exact (hheads a).trans (h.ahead a next ha)

theorem storeMsg (h : Queued s nodes queue) {addr : Addr} (hapart : ∀ a, addr ∉ nodes a)
    (msg : Option Msg) : Queued (s.storeMsg addr msg) nodes queue :=
  h.setEnvelope hapart (Or.inl rfl)

theorem clearNext (h : Queued s nodes queue) {addr : Addr}
    (hapart : ∀ a, addr ∉ (s.actor a).head :: nodes a) :
    Queued (s.storeNext addr none) nodes queue :=
  h.setEnvelope (fun a hmem => hapart a (List.mem_cons_of_mem _ hmem))
    (Or.inr ⟨rfl, fun a heq => hapart a (heq ▸ List.mem_cons_self)⟩)

/-- What a consumer has seen behind the head is the oldest entry, and linked. -/
theorem front (h : Queued s nodes queue) {a : Nat} {next : Addr}
    (hseen : (s.heap (s.actor a).head).next = some next) :
    ∃ rest entry entries, nodes a = next :: rest ∧ queue a = entry :: entries ∧
      entry.linking = none ∧ (s.heap next).msg = entry.msg ∧ s.Chained a next rest entries := by
  have hchain := h.chained a
  generalize (s.actor a).head = head at hchain hseen
  generalize nodes a = ys at hchain
  generalize queue a = entries at hchain
  cases hchain with
  | last hnone => rw [hnone] at hseen; cases hseen
  | link hlinked hmsg hrest =>
      obtain ⟨hlinking, rfl⟩ := hlinked.next_eq_some_iff.mp hseen
      exact ⟨_, _, _, rfl, rfl, hlinking, hmsg, hrest⟩

/-- A tail swap. -/
theorem swap (h : Queued s nodes queue) {p a ticket : Nat} {qnode : Addr}
    (hp : s.thread p = .swap a qnode) :
    Queued ((s.setActor a { s.actor a with tail := qnode }).setThread p
        (.link a qnode (s.actor a).tail ticket))
      (Function.update nodes a (nodes a ++ [qnode]))
      (Function.update queue a (queue a ++ [⟨(s.heap qnode).msg, some p⟩])) := by
  have hthread : ∀ r b y z ticket', s.thread r = .link b y z ticket' →
      ((s.setActor a { s.actor a with tail := qnode }).setThread p
        (.link a qnode (s.actor a).tail ticket)).thread r = .link b y z ticket' := by
    intro r b y z ticket' hr
    rw [setThread_thread_of_ne]
    · exact hr
    · rintro rfl
      rw [hp] at hr
      cases hr
  refine ⟨fun b => ?_, fun r b y z ticket' hr => ?_, fun r y hr => ?_, ?_, ?_⟩
  · by_cases hb : b = a
    · subst hb
      simp only [Function.update_self]
      change Chained _ b ((s.setActor b { s.actor b with tail := qnode }).actor b).head _ _
      rw [setActor_actor_self]
      refine (h.chained b).snoc ?_ (fun _ _ => rfl) (fun _ _ => rfl) (hthread · b)
        (setThread_thread_self _ _ _) (h.blank p qnode (by rw [hp]; rfl))
      change ((s.setActor b { s.actor b with tail := qnode }).actor b).tail = qnode
      rw [setActor_actor_self]
    · simp only [Function.update_of_ne hb]
      change Chained _ b ((s.setActor a { s.actor a with tail := qnode }).actor b).head _ _
      rw [s.setActor_actor_of_ne _ hb]
      refine (h.chained b).congr ?_ (fun _ _ => rfl) (fun _ _ => rfl)
        (fun r y z ticket' _ => hthread r b y z ticket')
      change ((s.setActor a { s.actor a with tail := qnode }).actor b).tail = _
      rw [s.setActor_actor_of_ne _ hb]
  · by_cases hrp : r = p
    · subst hrp
      rw [setThread_thread_self] at hr
      cases hr
      simp
    · rw [setThread_thread_of_ne _ _ hrp] at hr
      have hold := h.linking r b y z ticket' hr
      by_cases hb : b = a
      · subst hb
        rw [Function.update_self, List.map_append]
        exact List.mem_append_left _ hold
      · rwa [Function.update_of_ne hb]
  · by_cases hrp : r = p
    · subst hrp
      rw [setThread_thread_self] at hr
      cases hr
    · rw [setThread_thread_of_ne _ _ hrp] at hr
      exact h.blank r y hr
  · exact (Function.forall_update_iff s.actor (p := fun _ actor => ∀ next,
      actor.loop.seen = some next → (s.heap actor.head).next = some next)).mpr
      ⟨h.ahead a, fun b _ => h.ahead b⟩
  · exact (Function.forall_update_iff s.actor (p := fun _ actor => actor.Sound)).mpr
      ⟨⟨(h.sound a).unstarted, (h.sound a).current⟩, fun b _ => h.sound b⟩

/-- The head moves on to the oldest entry. -/
theorem advance (h : Queued s nodes queue) {a : Nat} {next : Addr} {actor : Actor}
    (hseen : (s.heap (s.actor a).head).next = some next) (hhead : actor.head = next)
    (htail : actor.tail = (s.actor a).tail) (hloop : actor.loop.seen = none)
    (hsound : actor.Sound) :
    Queued (s.setActor a actor) (Function.update nodes a (nodes a).tail)
      (Function.update queue a (queue a).tail) := by
  obtain ⟨rest, entry, entries, hnodes, hqueue, hlinking, _, hrest⟩ := h.front hseen
  refine ⟨fun b => ?_, fun r b y z ticket hr => ?_, h.blank, ?_, ?_⟩
  · by_cases hb : b = a
    · subst hb
      rw [Function.update_self, Function.update_self, setActor_actor_self, hhead, hnodes, hqueue]
      refine hrest.congr ?_ (fun _ _ => rfl) (fun _ _ => rfl) fun _ _ _ _ _ hr => hr
      rw [setActor_actor_self, htail]
    · rw [Function.update_of_ne hb, Function.update_of_ne hb, s.setActor_actor_of_ne actor hb]
      refine (h.chained b).congr ?_ (fun _ _ => rfl) (fun _ _ => rfl) fun _ _ _ _ _ hr => hr
      rw [s.setActor_actor_of_ne actor hb]
  · have hold := h.linking r b y z ticket hr
    by_cases hb : b = a
    · subst hb
      rw [hqueue, List.map_cons, List.mem_cons, hlinking] at hold
      rw [Function.update_self, hqueue]
      exact hold.resolve_left (by simp)
    · rwa [Function.update_of_ne hb]
  · refine (Function.forall_update_iff s.actor (p := fun _ actor => ∀ next,
      actor.loop.seen = some next → (s.heap actor.head).next = some next)).mpr
      ⟨fun next hnext => ?_, fun b _ => h.ahead b⟩
    rw [hloop] at hnext
    cases hnext
  · exact (Function.forall_update_iff s.actor (p := fun _ actor => actor.Sound)).mpr
      ⟨hsound, fun b _ => h.sound b⟩

/-- A producer writes the link it owes. -/
theorem link (h : Queued s nodes queue) (howned : Owned s nodes) {p a ticket : Nat}
    {qnode prev : Addr} (hp : s.thread p = .link a qnode prev ticket) :
    Queued ((s.storeNext prev (some qnode)).setThread p (.signal a ticket)) nodes
      (Function.update queue a (linkEntry p (queue a))) := by
  have hmem := h.linking p a qnode prev ticket hp
  obtain ⟨_, _, prev', hprev, _, hp', hnone⟩ := (h.chained a).producer hmem
  obtain ⟨_, _, rfl, _⟩ := Thread.link.inj (hp.symm.trans hp')
  have hkept {b : Nat} {z : Addr} (hz : z ∈ (s.actor b).head :: nodes b) :
      z ∈ s.hold nodes (.actor b) := List.mem_append_right _ hz
  have hother {b : Nat} (hb : b ≠ a) {z : Addr} (hz : z ∈ (s.actor b).head :: nodes b) :
      z ≠ prev := by
    rintro rfl
    exact hb (Owner.actor.inj (howned.exclusive.unique _ _ _ (hkept hz) (hkept hprev)))
  have hnext : ∀ z, z ≠ prev → (s.storeNext prev (some qnode)).heap z = s.heap z :=
    fun z hz => s.setEnvelope_heap_of_ne _ hz
  have hmsg : ∀ z, ((s.storeNext prev (some qnode)).heap z).msg = (s.heap z).msg := by
    intro z
    by_cases hz : z = prev
    · subst hz
      simp [storeNext]
    · rw [hnext z hz]
  have hthread : ∀ r, r ≠ p →
      ((s.storeNext prev (some qnode)).setThread p (.signal a ticket)).thread r = s.thread r :=
    fun r hr => setThread_thread_of_ne _ _ hr
  refine ⟨fun b => ?_, fun r b y z ticket' hr => ?_, fun r y hr => ?_, fun b next hb => ?_,
    h.sound⟩
  · by_cases hb : b = a
    · subst hb
      rw [Function.update_self]
      refine (h.chained b).linkEntry ?_ hp hmem rfl ?_ (fun z hz => congrArg _ (hnext z hz)) hmsg
        hthread
      · exact (howned.exclusive.nodup (.actor b)).sublist (List.sublist_append_right _ _)
      · change ((s.setEnvelope prev _).heap prev).next = _
        rw [setEnvelope_heap_self]
    · rw [Function.update_of_ne hb]
      refine (h.chained b).congr rfl (fun z hz => congrArg _ (hnext z (hother hb hz)))
        (fun z _ => hmsg z) fun r y z ticket' _ hr => ?_
      rw [hthread, hr]
      rintro rfl
      rw [hp] at hr
      exact hb (Thread.link.inj hr).1.symm
  · by_cases hrp : r = p
    · subst hrp
      rw [setThread_thread_self] at hr
      cases hr
    · rw [hthread r hrp] at hr
      have hold := h.linking r b y z ticket' hr
      by_cases hb : b = a
      · subst hb
        rw [Function.update_self]
        exact (some_mem_linking_linkEntry hrp).mpr hold
      · rwa [Function.update_of_ne hb]
  · by_cases hrp : r = p
    · subst hrp
      rw [setThread_thread_self] at hr
      cases hr
    · rw [hthread r hrp] at hr
      have hne : y ≠ prev := by
        rintro rfl
        have hmine : y ∈ s.hold nodes (.thread r) := by
          change y ∈ (s.thread r).owned
          cases ht : s.thread r <;> rw [ht] at hr <;> cases hr <;> exact List.mem_cons_self
        cases howned.exclusive.unique _ _ _ hmine (hkept hprev)
      change ((s.storeNext prev (some qnode)).heap y).next = none
      rw [hnext y hne]
      exact h.blank r y hr
  · have hold := h.ahead b next hb
    have hne : (s.actor b).head ≠ prev := by
      intro heq
      rw [heq, hnone] at hold
      cases hold
    exact (congrArg _ (hnext _ hne)).trans hold

end Queued

/-- The entries of each queue after an action. -/
def queueAfter (s : Machine Msg) (queue : Nat → List (Entry (Option Msg))) :
    Action Msg → Nat → List (Entry (Option Msg))
  | .swap p a qnode => Function.update queue a (queue a ++ [⟨(s.heap qnode).msg, some p⟩])
  | .link p a _ _ _ => Function.update queue a (linkEntry p (queue a))
  | .advance a _ | .drain a _ => Function.update queue a (queue a).tail
  | _ => queue

section Step

variable [DecidableEq Msg]
variable {s : Machine Msg} {nodes : Nat → List Addr} {queue : Nat → List (Entry (Option Msg))}

/-- Every step keeps the queues in shape. -/
theorem Queued.step (h : Queued s nodes queue) (howned : Owned s nodes) {action : Action Msg}
    (henabled : s.enabled action = true) :
    Queued (s.apply action) (nodesAfter nodes action) (s.queueAfter queue action) := by
  have hpending (delta : UInt64) : Queued (s.addPending delta) nodes queue := h.congr rfl rfl rfl
  -- a node that a goroutine has taken, or that is being recycled, may be written
  have hthread {p : Nat} {addr : Addr} (hp : (s.thread p).owned = [addr]) :
      ∀ a, addr ∉ (s.actor a).head :: nodes a :=
    howned.thread_apart (show addr ∈ (s.thread p).owned by simp [hp])
  have hrecycle {a : Nat} {old : Addr} (ha : (s.actor a).loop.recycling = [old]) :
      ∀ a, old ∉ (s.actor a).head :: nodes a :=
    howned.recycling_apart (show old ∈ (s.actor a).loop.recycling by simp [ha])
  -- a consumer whose loop has begun
  have hstarted {a : Nat} {loop : Loop} (ha : (s.actor a).loop = loop)
      (hloop : loop ≠ .unstarted) : (s.actor a).status ≠ .init := by
    intro hinit
    exact hloop (ha.symm.trans ((h.sound a).unstarted hinit))
  cases action with
  | send p a msg =>
      have hp : s.thread p = .idle := by simpa [enabled] using henabled
      refine h.setThread hp rfl ?_ ?_
      · split <;> rfl
      · split <;> rintro _ ⟨⟩
  | get p a msg qnode =>
      obtain ⟨hp, _⟩ : s.thread p = .get a msg ∧ s.canGet qnode = true := by
        simpa [enabled] using henabled
      have h' : Queued (s.poolGet qnode) nodes queue := h.congr rfl rfl rfl
      exact h'.setThread hp rfl rfl (by rintro _ ⟨⟩)
  | fill p a msg qnode =>
      have hp : s.thread p = .fill a msg qnode := by simpa [enabled] using henabled
      have hapart := hthread (show (s.thread p).owned = [qnode] by rw [hp]; rfl)
      exact (h.storeMsg (fun a => (List.not_mem_of_not_mem_cons (hapart a))) _).setThread hp rfl rfl
        (by rintro _ ⟨⟩)
  | reset p a qnode =>
      have hp : s.thread p = .reset a qnode := by simpa [enabled] using henabled
      have hapart := hthread (show (s.thread p).owned = [qnode] by rw [hp]; rfl)
      refine (h.clearNext hapart).setThread hp rfl rfl ?_
      rintro _ ⟨⟩
      rw [storeNext, setEnvelope_heap_self]
  | count p a qnode =>
      have hp : s.thread p = .count a qnode := by simpa [enabled] using henabled
      refine (hpending 1).setThread hp rfl rfl ?_
      rintro _ ⟨⟩
      exact h.blank p qnode (by rw [hp]; rfl)
  | swap p a qnode =>
      have hp : s.thread p = .swap a qnode := by simpa [enabled] using henabled
      exact (h.swap hp).congr rfl rfl rfl
  | link p a qnode prev ticket =>
      exact h.link howned (by simpa [enabled] using henabled)
  | signal p a ticket =>
      have hp : s.thread p = .signal a ticket := by simpa [enabled] using henabled
      have h' : Queued { s with
          returned := Function.update s.returned a (s.returned a ++ [ticket]) } nodes queue :=
        h.congr rfl rfl rfl
      exact (h'.setWake a true).setThread hp rfl rfl (by rintro _ ⟨⟩)
  | getEnvelope p env =>
      obtain ⟨hp, _⟩ : s.thread p = .idle ∧ s.canGet env = true := by
        simpa [enabled] using henabled
      have h' : Queued (s.poolGet env) nodes queue := h.congr rfl rfl rfl
      exact h'.setThread hp rfl rfl (by rintro _ ⟨⟩)
  | setMsg p env msg =>
      have hp : s.thread p = .holding env := by simpa [enabled] using henabled
      have hapart := hthread (show (s.thread p).owned = [env] by rw [hp]; rfl)
      exact h.storeMsg (fun a => List.not_mem_of_not_mem_cons (hapart a)) msg
  | sendEnvelope p a env =>
      have hp : s.thread p = .holding env := by simpa [enabled] using henabled
      refine h.setThread hp rfl ?_ ?_
      · split <;> rfl
      · split <;> rintro _ ⟨⟩
  | putEnvelope p env =>
      have hp : s.thread p = .holding env := by simpa [enabled] using henabled
      have hapart := hthread (show (s.thread p).owned = [env] by rw [hp]; rfl)
      exact (h.storeMsg (fun a => List.not_mem_of_not_mem_cons (hapart a)) _).setThread hp rfl rfl
        (by rintro _ ⟨⟩)
  | putClearNext p env =>
      have hp : s.thread p = .clearNext env := by simpa [enabled] using henabled
      have hapart := hthread (show (s.thread p).owned = [env] by rw [hp]; rfl)
      exact (h.clearNext hapart).setThread hp rfl rfl (by rintro _ ⟨⟩)
  | poolPut p env =>
      have hp : s.thread p = .put env := by simpa [enabled] using henabled
      have h' : Queued (s.poolPut env) nodes queue := h.congr rfl rfl rfl
      exact h'.setThread hp rfl rfl (by rintro _ ⟨⟩)
  | callStop p a =>
      have hp : s.thread p = .idle := by simpa [enabled] using henabled
      exact h.setThread hp rfl rfl (by rintro _ ⟨⟩)
  | stop p a =>
      have hp : s.thread p = .stop a := by simpa [enabled] using henabled
      refine h.setThread hp rfl ?_ ?_
      · split <;> rfl
      · split <;> rintro _ ⟨⟩
  | compareAndSwap p a st =>
      have hp : s.thread p = .compareAndSwap a st := by simpa [enabled] using henabled
      refine (h.setActor ?_ ?_ ?_ ?_).setThread hp rfl ?_ ?_
      · rfl
      · rfl
      · exact h.ahead a
      · refine ⟨fun hinit => (h.sound a).unstarted ?_, (h.sound a).current⟩
        revert hinit
        dsimp only
        split <;> simp
      · split <;> rfl
      · split <;> rintro _ ⟨⟩
  | stopSignal p a =>
      have hp : s.thread p = .stopSignal a := by simpa [enabled] using henabled
      exact (h.setWake a true).setThread hp rfl rfl (by rintro _ ⟨⟩)
  | start a => exact h.rest rfl rfl rfl rfl (by simp)
  | peek a =>
      have ha : (s.actor a).loop = .dequeue := by simpa [enabled] using henabled
      exact h.peek (hstarted ha (by simp)) ⟨rfl, rfl⟩ fun _ => ⟨rfl, rfl⟩
  | advance a next =>
      have ha : (s.actor a).loop = .advance next := by simpa [enabled] using henabled
      refine h.advance (h.ahead a next (by rw [ha]; rfl)) rfl rfl rfl ⟨fun hinit => ?_, ?_⟩
      · exact absurd hinit (hstarted ha (by simp))
      · rintro _ ⟨⟩
        rfl
  | recycle a stage old qnode =>
      have ha : (s.actor a).loop = .recycle stage old qnode := by simpa [enabled] using henabled
      have hapart := hrecycle (show (s.actor a).loop.recycling = [old] by rw [ha]; rfl)
      have hcurrent : ∀ qnode', qnode = some qnode' → (s.actor a).head = qnode' := by
        intro qnode' hqnode
        exact (h.sound a).current qnode' (by rw [ha]; exact hqnode)
      have hinit := hstarted ha (by simp)
      cases stage with
      | count =>
          refine (hpending _).setActor rfl rfl ?_ ⟨fun hinit' => absurd hinit' hinit, hcurrent⟩
          rintro _ ⟨⟩
      | clearMsg =>
          have h' := h.storeMsg (fun a => List.not_mem_of_not_mem_cons (hapart a)) none
          refine h'.setActor rfl rfl ?_ ⟨fun hinit' => absurd hinit' hinit, hcurrent⟩
          rintro _ ⟨⟩
      | clearNext =>
          refine (h.clearNext hapart).setActor rfl rfl ?_
            ⟨fun hinit' => absurd hinit' hinit, hcurrent⟩
          rintro _ ⟨⟩
      | put =>
          have h' : Queued (s.poolPut old) nodes queue := h.congr rfl rfl rfl
          refine h'.setActor rfl rfl ?_ ⟨fun hinit' => absurd hinit' hinit, ?_⟩
          · cases qnode <;> rintro _ ⟨⟩
          · cases qnode with
            | none => rintro _ ⟨⟩
            | some qnode => rintro _ ⟨⟩; exact hcurrent qnode rfl
  | handle a qnode =>
      have ha : (s.actor a).loop = .handle qnode := by simpa [enabled] using henabled
      have h' : Queued (s.setLoop a (.release qnode)) nodes queue := by
        refine h.setActor rfl rfl ?_ ⟨fun hinit => absurd hinit (hstarted ha (by simp)), ?_⟩
        · rintro _ ⟨⟩
        · rintro _ ⟨⟩
          exact (h.sound a).current qnode (by rw [ha]; rfl)
      exact h'.congr rfl rfl rfl
  | release a qnode =>
      have ha : (s.actor a).loop = .release qnode := by simpa [enabled] using henabled
      have hhead : (s.actor a).head = qnode := (h.sound a).current qnode (by rw [ha]; rfl)
      have h' := h.storeMsg (fun b => hhead ▸ howned.head_apart a b) none
      exact h'.rest rfl rfl rfl rfl (hstarted ha (by simp))
  | checkStatus a =>
      have ha : (s.actor a).loop = .missed := by simpa [enabled] using henabled
      refine h.rest rfl rfl ?_ ?_ (hstarted ha (by simp)) <;>
        · dsimp only
          split <;> rfl
  | exit a | cancel a => exact h.rest rfl rfl rfl rfl (by simp)
  | wake a =>
      obtain ⟨ha, _⟩ : (s.actor a).loop = .waiting ∧ (s.actor a).wake = true := by
        simpa [enabled] using henabled
      exact h.rest rfl rfl rfl rfl (hstarted ha (by simp))
  | drainPeek a =>
      have ha : (s.actor a).loop = .dead := by simpa [enabled] using henabled
      exact h.peek (hstarted ha (by simp)) ⟨rfl, rfl⟩ fun _ => ⟨rfl, rfl⟩
  | drain a next =>
      have ha : (s.actor a).loop = .drain next := by simpa [enabled] using henabled
      have hseen := h.ahead a next (by rw [ha]; rfl)
      have h' : Queued (s.setActor a { s.actor a with
            head := next, loop := .recycle .count (s.actor a).head none })
          (Function.update nodes a (nodes a).tail) (Function.update queue a (queue a).tail) := by
        refine h.advance hseen rfl rfl rfl ⟨fun hinit => ?_, ?_⟩
        · exact absurd hinit (hstarted ha (by simp))
        · rintro _ ⟨⟩
      -- once the head has moved on, the message of the new head may be cleared
      obtain ⟨rest, _, _, hnodes, _⟩ := h.front hseen
      have hapart : ∀ b, next ∉ Function.update nodes a (nodes a).tail b := by
        have howned' := howned.advance (show (s.actor a).loop.recycling = [] by rw [ha]; rfl) hnodes
          (show Actor.head { s.actor a with
            head := next, loop := .recycle .count (s.actor a).head none } = next from rfl) rfl
        intro b
        have hapart' := howned'.head_apart a b
        rwa [setActor_actor_self] at hapart'
      exact (h'.storeMsg hapart none).congr rfl rfl rfl
  | poolDrop env => exact h.congr rfl rfl rfl

end Step

end Machine

end ActorCluster.Runtime
