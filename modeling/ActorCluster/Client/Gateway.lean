import ActorCluster.Client.Envelopes
import ActorCluster.Foundation.BigEndian
import ActorCluster.Foundation.Refinement
import ActorCluster.Node.State

/-! # The gateway

A client process with its request handlers: `handleExecute` of the HTTP server
and the generators of a stress run. A handler draws a request id from the
generator of the process, makes an envelope and calls the router. The generator
starts at the machine id of the process in the upper sixteen bits, so processes
with different machine ids draw different ids until one of them has drawn 2⁴⁸.
-/

namespace ActorCluster.Client

open Remote Transition Custody
open scoped List

/-- `rand.Intn(65536)` -/
abbrev MachineID := Fin 65536

/-- The value that `init` stores in the generator. -/
def initialRequestID (machineID : MachineID) : UInt64 := UInt64.ofNat machineID <<< 48

/-- `strconv.FormatUint(reqID, 10)` -/
def formatUint (reqID : UInt64) : String := toString reqID.toNat

structure ExecuteRequest where
  uid : Int64
  amount : Int64
  deriving DecidableEq, Repr

/-- What a handler works on. A generator deposits one unit for a user drawn from the
range of its configuration, which `normalize` has checked. -/
inductive Job where
  | execute (req : ExecuteRequest)
  | generate (uid : Int64)
  deriving DecidableEq, Repr

namespace Job

def uid : Job → Int64
  | .execute req => req.uid
  | .generate uid => uid

def amount : Job → Int64
  | .execute req => req.amount
  | .generate _ => 1

/-- The envelope that a handler makes. -/
def envelope (job : Job) (reqID : UInt64) : RemoteEnvelope where
  tenantId := 1
  uid := job.uid
  txId := formatUint reqID
  requestId := reqID
  opCode := 1
  payload := BigEndian.putUint64 job.amount.toUInt64

/-- The call of the router. -/
def call (job : Job) (p : Nat) (reqID : UInt64) : Action :=
  match job with
  | .execute _ => .execute p (job.envelope reqID)
  | .generate _ => .emulate p (job.envelope reqID)

end Job

def mapErrorToHTTPStatus : Option ErrorCode → Nat
  | some .deadlineExceeded => 504
  | some .insufficientFunds | some .invalidPayload => 400
  | some .wrongNode | some .discovery | some .connection | some .transportClosed
  | some .streamInterrupted | some .nodeOverloaded => 503
  | _ => 500

/-- The answer of `handleExecute`. -/
structure ExecuteResponse where
  status : Nat
  success : Bool
  requestID : String
  uid : Int64
  amount : Int64
  errorCode : Option ErrorCode
  errorMsg : String
  balance : Option Int64
  deriving DecidableEq, Repr

/-- The balance that `handleExecute` reads from a payload. -/
def reported (payload : List UInt8) : Option Int64 :=
  if 8 ≤ payload.length then some (BigEndian.uint64 payload).toInt64 else none

def executeResponse (req : ExecuteRequest) (reqID : UInt64) (res : RemoteResult) :
    ExecuteResponse where
  status := if res.success then 200 else mapErrorToHTTPStatus res.errorCode
  success := res.success
  requestID := formatUint reqID
  uid := req.uid
  amount := req.amount
  errorCode := res.errorCode
  errorMsg := res.errorMsg
  balance := reported res.payload

/-- Where a handler stands. -/
inductive Handler where
  | idle
  | drawn (job : Job) (reqID : UInt64)
  | calling (req : ExecuteRequest) (reqID : UInt64)
  deriving DecidableEq, Repr

/-- A client process. Handlers and callers have the same identities. The history has the
envelopes handed to the router and the answers of `handleExecute`. -/
structure GatewayState where
  client : ClientState
  reqIDGenerator : UInt64
  handler : Nat → Handler
  begun : List RemoteEnvelope
  responses : List ExecuteResponse

def newGateway (machineID : MachineID) : GatewayState where
  client := newClient
  reqIDGenerator := initialRequestID machineID
  handler _ := .idle
  begun := []
  responses := []

inductive GatewayAction where
  -- `nextRequestID`, after the request was checked
  | draw (p : Nat) (job : Job)
  | call (p : Nat) (job : Job) (reqID : UInt64)
  | client (action : Action)

/-- What a step sends on a stream. -/
def GatewayAction.sends (a : Nat) : GatewayAction → List RemoteEnvelope
  | .client (.send b batch _) => if b = a then batch else []
  | _ => []

/-- The step begins a call of the router. -/
def Action.begins : Action → Bool
  | .emulate _ _ | .execute _ _ => true
  | _ => false

namespace GatewayState

def setHandler (s : GatewayState) (p : Nat) (handler : Handler) : GatewayState :=
  { s with handler := Function.update s.handler p handler }

/-- The handler whose call has returned writes its answer. -/
def answer (s : GatewayState) : Option (Nat × RemoteResult) → GatewayState
  | none => s
  | some (p, res) =>
      match s.handler p with
      | .calling req reqID =>
          { s with responses := s.responses ++ [executeResponse req reqID res] }.setHandler p .idle
      | _ => s

def enabled (cfg : Config) (s : GatewayState) : GatewayAction → Bool
  | .draw p job => s.handler p = .idle && s.client.caller p = .idle && decide (0 < job.uid)
  | .call p job reqID =>
      s.handler p = .drawn job reqID && s.client.enabled cfg (job.call p reqID)
  | .client action => !action.begins && s.client.enabled cfg action

def apply (cfg : Config) (s : GatewayState) : GatewayAction → GatewayState
  | .draw p job =>
      { s with reqIDGenerator := s.reqIDGenerator + 1 }.setHandler p
        (.drawn job (s.reqIDGenerator + 1))
  | .call p job reqID =>
      { s with
        client := s.client.apply cfg (job.call p reqID)
        begun := s.begun ++ [job.envelope reqID] }.setHandler p
        (match job with
          | .execute req => .calling req reqID
          | .generate _ => .idle)
  | .client action => { s with client := s.client.apply cfg action }.answer action.returned

/-- The sequence number of the next id fits into 48 bits. -/
def InSequence (s : GatewayState) : GatewayAction → Prop
  | .draw _ _ => s.reqIDGenerator.toNat % 2 ^ 48 + 1 < 2 ^ 48
  | _ => True

instance (s : GatewayState) (action : GatewayAction) : Decidable (s.InSequence action) := by
  cases action <;> unfold InSequence <;> infer_instance

end GatewayState

def gateway (cfg : Config) (machineID : MachineID) : System GatewayState GatewayAction :=
  System.guarded (newGateway machineID) (GatewayState.enabled cfg) (GatewayState.apply cfg)

/-! ## Envelopes -/

theorem toNat_formatUint (reqID : UInt64) :
    Nat.ofDigitChars 10 (formatUint reqID).toList 0 = reqID.toNat := by
  rw [formatUint, Nat.toString_eq_repr, Nat.repr, String.toList_ofList,
    Nat.ofDigitChars_ten_toDigits]

theorem formatUint_injective : Function.Injective formatUint := by
  intro first second h
  rw [← UInt64.toNat_inj, ← toNat_formatUint first, ← toNat_formatUint second, h]

/-- An envelope that a handler has made, with an id that was drawn. -/
def Genuine (env : RemoteEnvelope) : Prop :=
  ∃ (job : Job) (reqID : UInt64), 0 < job.uid ∧ 0 < reqID ∧ env = job.envelope reqID

theorem Genuine.txId {env : RemoteEnvelope} (h : Genuine env) :
    env.txId = formatUint env.requestId := by
  obtain ⟨job, reqID, _, _, rfl⟩ := h
  rfl

/-- A node does not refuse the envelope as incomplete. -/
theorem Genuine.wellFormed {env : RemoteEnvelope} (h : Genuine env) :
    Node.wellFormed env = true := by
  obtain ⟨job, reqID, huid, hreqID, rfl⟩ := h
  have hne : job.uid ≠ 0 := by
    rintro heq
    rw [heq] at huid
    exact absurd huid (by decide)
  have hid : reqID ≠ 0 := by
    rintro rfl
    exact absurd hreqID (by decide)
  have htext : formatUint reqID ≠ "" := by
    intro hempty
    have hdigits := toNat_formatUint reqID
    rw [hempty] at hdigits
    exact hid (UInt64.toNat_inj.mp hdigits.symm)
  simp [Node.wellFormed, Job.envelope, hne, hid, htext]

/-- The amount of the job is what an actor reads. -/
theorem decodeAmount_envelope (job : Job) (reqID : UInt64) :
    Wallet.BusinessActor.decodeAmount (job.envelope reqID).payload = job.amount := by
  simp [Wallet.BusinessActor.decodeAmount, Job.envelope]

/-! ## Request ids -/

theorem toNat_initialRequestID (machineID : MachineID) :
    (initialRequestID machineID).toNat = machineID.val * 2 ^ 48 := by
  have hlt := machineID.isLt
  have hword : (UInt64.ofNat machineID).toNat = machineID := by
    rw [UInt64.toNat_ofNat']
    exact Nat.mod_eq_of_lt (by omega)
  have hfits : machineID.val * 2 ^ 48 < 2 ^ 64 := by omega
  rw [initialRequestID, UInt64.toNat_shiftLeft, hword, Nat.shiftLeft_eq]
  exact Nat.mod_eq_of_lt hfits

/-- The id that a handler has drawn and not used yet. -/
def Handler.drawnID : Handler → List UInt64
  | .drawn _ reqID => [reqID]
  | _ => []

/-- Who has a request id. -/
inductive IDPlace where
  | handler (p : Nat)
  | begun
  deriving DecidableEq

namespace GatewayState

def ids (s : GatewayState) : IDPlace → List UInt64
  | .handler p => (s.handler p).drawnID
  | .begun => s.begun.map RemoteEnvelope.requestId

/-- What holds in every state of a process: ids are drawn once, in the order of the
sequence, and the router knows those of the envelopes it was handed. -/
structure Sound (machineID : MachineID) (s : GatewayState) : Prop where
  block : s.reqIDGenerator.toNat / 2 ^ 48 = machineID
  ids : Exclusive s.ids
  drawn : ∀ place, ∀ reqID ∈ s.ids place,
    machineID * 2 ^ 48 < reqID.toNat ∧ reqID.toNat ≤ s.reqIDGenerator.toNat
  jobs : ∀ p job reqID, s.handler p = .drawn job reqID → 0 < job.uid
  genuine : ∀ env ∈ s.begun, Genuine env
  issued : s.client.issued.map Prod.fst = s.begun.map RemoteEnvelope.requestId

theorem sound_newGateway (machineID : MachineID) : (newGateway machineID).Sound machineID where
  block := by
    rw [newGateway, toNat_initialRequestID]
    exact Nat.mul_div_cancel _ (by decide)
  ids :=
    ⟨fun place => by cases place <;> exact List.nodup_nil,
      fun place _ reqID h => by cases place <;> exact absurd h List.not_mem_nil⟩
  drawn place reqID h := by cases place <;> exact absurd h List.not_mem_nil
  jobs _ _ _ h := by cases h
  genuine _ h := absurd h List.not_mem_nil
  issued := rfl

section Answer

variable (s : GatewayState) (outcome : Option (Nat × RemoteResult))

@[simp] theorem answer_client : (s.answer outcome).client = s.client := by
  unfold answer
  split
  · rfl
  · split <;> rfl

@[simp] theorem answer_begun : (s.answer outcome).begun = s.begun := by
  unfold answer
  split
  · rfl
  · split <;> rfl

@[simp] theorem answer_reqIDGenerator :
    (s.answer outcome).reqIDGenerator = s.reqIDGenerator := by
  unfold answer
  split
  · rfl
  · split <;> rfl

/-- An answer ends a call, and leaves the other handlers where they are. -/
theorem handler_answer (p : Nat) :
    (s.answer outcome).handler p = s.handler p ∨
      (s.answer outcome).handler p = .idle ∧ ∃ req reqID, s.handler p = .calling req reqID := by
  unfold answer
  split
  · exact .inl rfl
  next q res =>
    split
    next req reqID hq =>
      by_cases hpq : p = q
      · subst hpq
        exact .inr ⟨Function.update_self _ _ _, req, reqID, hq⟩
      · exact .inl (Function.update_of_ne hpq _ _)
    next => exact .inl rfl

theorem ids_answer : (s.answer outcome).ids = s.ids := by
  funext place
  cases place with
  | handler p =>
      rcases handler_answer s outcome p with hsame | ⟨hidle, req, reqID, hcalling⟩
      · rw [ids, hsame, ids]
      · rw [ids, hidle, ids, hcalling]
        rfl
  | begun => rw [ids, answer_begun, ids]

end Answer

variable {cfg : Config} {machineID : MachineID} {s : GatewayState}

namespace Sound

/-- The next id is above all that were drawn, and still has the machine id. -/
theorem draw (h : s.Sound machineID) {p : Nat} {job : Job} (hp : s.handler p = .idle)
    (huid : 0 < job.uid) (hseq : s.reqIDGenerator.toNat % 2 ^ 48 + 1 < 2 ^ 48) :
    (s.apply cfg (.draw p job)).Sound machineID := by
  have hlt := s.reqIDGenerator.toNat_lt
  have hblock := h.block
  have hnext : (s.reqIDGenerator + 1).toNat = s.reqIDGenerator.toNat + 1 := by
    rw [UInt64.toNat_add]
    exact Nat.mod_eq_of_lt (by simp; omega)
  have hself : (s.apply cfg (.draw p job)).ids (.handler p) = [s.reqIDGenerator + 1] := by
    simp only [GatewayState.ids, apply, setHandler, Function.update_self, Handler.drawnID]
  have hother : ∀ place, place ≠ .handler p →
      (s.apply cfg (.draw p job)).ids place = s.ids place := by
    rintro (q | _) hne
    · have hqp : q ≠ p := fun hqp => hne (hqp ▸ rfl)
      simp only [GatewayState.ids, apply, setHandler, Function.update_of_ne hqp]
    · rfl
  have hfresh : ∀ place, s.reqIDGenerator + 1 ∉ s.ids place := by
    intro place hmem
    have hle := (h.drawn place _ hmem).2
    omega
  refine ⟨?_, ?_, fun place reqID hmem => ?_, fun q job' reqID hq => ?_, h.genuine, h.issued⟩
  · change (s.reqIDGenerator + 1).toNat / 2 ^ 48 = machineID
    omega
  · refine h.ids.gain (q := .handler p) hfresh ?_ hother
    rw [hself]
    exact (List.singleton_sublist.mpr List.mem_cons_self).subperm
  · change _ ∧ reqID.toNat ≤ (s.reqIDGenerator + 1).toNat
    by_cases hplace : place = .handler p
    · subst hplace
      rw [hself, List.mem_singleton] at hmem
      subst hmem
      omega
    · rw [hother place hplace] at hmem
      have hbounds := h.drawn place reqID hmem
      omega
  · change Function.update s.handler p (.drawn job (s.reqIDGenerator + 1)) q = _ at hq
    by_cases hqp : q = p
    · subst hqp
      rw [Function.update_self] at hq
      cases hq
      exact huid
    · rw [Function.update_of_ne hqp] at hq
      exact h.jobs q job' reqID hq

/-- The id passes from the handler to the envelope. -/
theorem call (h : s.Sound machineID) {p : Nat} {job : Job} {reqID : UInt64}
    (hp : s.handler p = .drawn job reqID) : (s.apply cfg (.call p job reqID)).Sound machineID := by
  have hheld : reqID ∈ s.ids (.handler p) := by
    rw [GatewayState.ids, hp]
    exact List.mem_cons_self
  have hbegun : (s.apply cfg (.call p job reqID)).ids .begun = s.ids .begun ++ [reqID] := by
    simp [GatewayState.ids, apply, setHandler, Job.envelope]
  have hself : (s.apply cfg (.call p job reqID)).ids (.handler p) = [] := by
    simp only [GatewayState.ids, apply, setHandler, Function.update_self]
    cases job <;> rfl
  have hother : ∀ place, place ≠ .handler p → place ≠ .begun →
      (s.apply cfg (.call p job reqID)).ids place = s.ids place := by
    rintro (q | _) hne hnot
    · have hqp : q ≠ p := fun hqp => hne (hqp ▸ rfl)
      simp only [GatewayState.ids, apply, setHandler, Function.update_of_ne hqp]
    · exact absurd rfl hnot
  refine ⟨h.block, ?_, fun place reqID' hmem => ?_, fun q job' reqID' hq => ?_, ?_, ?_⟩
  · refine h.ids.hand (p := .handler p) (q := .begun) (x := reqID) nofun ?_ ?_ hother
    · rw [hself, GatewayState.ids, hp]
      exact List.Perm.refl _
    · rw [hbegun]
      exact List.perm_append_singleton _ _
  · by_cases hplace : place = .handler p
    · subst hplace
      rw [hself] at hmem
      cases hmem
    by_cases hnot : place = .begun
    · subst hnot
      rw [hbegun, List.mem_append, List.mem_singleton] at hmem
      rcases hmem with hold | rfl
      · exact h.drawn .begun reqID' hold
      · exact h.drawn (.handler p) reqID' hheld
    · rw [hother place hplace hnot] at hmem
      exact h.drawn place reqID' hmem
  · simp only [apply, setHandler] at hq
    by_cases hqp : q = p
    · subst hqp
      rw [Function.update_self] at hq
      cases job <;> cases hq
    · rw [Function.update_of_ne hqp] at hq
      exact h.jobs q job' reqID' hq
  · intro env henv
    rcases List.mem_append.mp henv with hold | hnew
    · exact h.genuine env hold
    · obtain rfl := List.mem_singleton.mp hnew
      have hpos := (h.drawn (.handler p) reqID hheld).1
      exact ⟨job, reqID, h.jobs p job reqID hp, UInt64.lt_iff_toNat_lt.mpr (by simp; omega), rfl⟩
  · have hissued : (s.client.apply cfg (job.call p reqID)).issued.map Prod.fst =
        s.client.issued.map Prod.fst ++ [reqID] := by
      cases job <;> simp [Job.call, ClientState.apply, ClientState.setCaller, Job.envelope]
    change (s.client.apply cfg (job.call p reqID)).issued.map Prod.fst =
      (s.begun ++ [job.envelope reqID]).map RemoteEnvelope.requestId
    rw [hissued, h.issued, List.map_append]
    rfl

theorem client (h : s.Sound machineID) {action : Action} (hbegins : action.begins = false) :
    (s.apply cfg (.client action)).Sound machineID where
  block := by
    rw [apply, answer_reqIDGenerator]
    exact h.block
  ids := by
    rw [apply, ids_answer]
    exact h.ids
  drawn place reqID hmem := by
    rw [apply, ids_answer] at hmem
    rw [apply, answer_reqIDGenerator]
    exact h.drawn place reqID hmem
  jobs p job reqID hp := by
    rcases handler_answer { s with client := s.client.apply cfg action } action.returned p with
      hsame | ⟨hidle, _⟩
    · exact h.jobs p job reqID (hsame.symm.trans hp)
    · cases hidle.symm.trans hp
  genuine env henv := by
    rw [apply, answer_begun] at henv
    exact h.genuine env henv
  issued := by
    rw [apply, answer_client, answer_begun]
    have hkept : (s.client.apply cfg action).issued = s.client.issued := by
      refine (issued_apply ?_ cfg s.client).1
      rintro ⟨p, env, rfl | rfl⟩ <;> cases hbegins
    exact (congrArg (List.map Prod.fst) hkept).trans h.issued

theorem step (h : s.Sound machineID) {action : GatewayAction} (hseq : s.InSequence action)
    (henabled : s.enabled cfg action = true) : (s.apply cfg action).Sound machineID := by
  cases action with
  | draw p job =>
      simp only [enabled, Bool.and_eq_true, decide_eq_true_eq] at henabled
      exact h.draw henabled.1.1 henabled.2 hseq
  | call p job reqID =>
      simp only [enabled, Bool.and_eq_true, decide_eq_true_eq] at henabled
      exact h.call henabled.1
  | client action =>
      simp only [enabled, Bool.and_eq_true, Bool.not_eq_true'] at henabled
      exact h.client henabled.1

/-- An id that is drawn is not one of those begun. -/
theorem fresh (h : s.Sound machineID) {p : Nat} {job : Job} {reqID : UInt64}
    (hp : s.handler p = .drawn job reqID) : reqID ∉ s.client.issued.map Prod.fst := by
  rw [h.issued]
  refine h.ids.notMem (p := .handler p) (q := .begun) ?_ nofun
  rw [GatewayState.ids, hp]
  exact List.mem_cons_self

end Sound

/-- The router holds only envelopes that it was handed, and while a handler waits for an
answer its caller is busy with the handler's envelope. -/
structure Confined (s : GatewayState) : Prop where
  bounded : s.client.Bounded
  callers : ∀ p env, (s.client.caller p).envelope = some env → env ∈ s.begun
  streamers : ∀ a, ∀ env ∈ (s.client.streamer a).envelopes, env ∈ s.begun
  calls : ∀ p req reqID, s.handler p = .calling req reqID →
    (s.client.caller p).envelope = some ((Job.execute req).envelope reqID) ∧
      (s.client.caller p).waits = true

theorem confined_newGateway (machineID : MachineID) : (newGateway machineID).Confined where
  bounded := ClientState.bounded_newClient
  callers _ _ h := by cases h
  streamers _ _ h := by cases h
  calls _ _ _ h := by cases h

namespace Confined

/-- A step of the router brings in no other envelope than that of a call it begins. -/
theorem envelopes (h : s.Confined) {action : Action} (henabled : s.client.enabled cfg action = true)
    {begun : List RemoteEnvelope} (hbegun : ∀ env ∈ s.begun, env ∈ begun)
    (hbegins : ∀ p env, action.Begins p env → env ∈ begun) :
    (∀ p env, ((s.client.apply cfg action).caller p).envelope = some env → env ∈ begun) ∧
      ∀ a, ∀ env ∈ ((s.client.apply cfg action).streamer a).envelopes, env ∈ begun := by
  constructor
  · intro p env henv
    rcases (ClientState.callerMove_apply henabled p).envelope_back henv with hold | hnew
    · exact hbegun env (h.callers p env hold)
    · exact hbegins p env hnew
  · intro a env henv
    rcases (ClientState.streamerMove_apply henabled a).envelopes_back henv with
      hold | ⟨p, d, hp, rfl⟩
    · exact hbegun env (h.streamers a env hold)
    · exact hbegun d.env (h.callers p d.env (by rw [hp]; rfl))

theorem call (h : s.Confined) {p : Nat} {job : Job} {reqID : UInt64}
    (henabled : s.client.enabled cfg (job.call p reqID) = true) :
    (s.apply cfg (.call p job reqID)).Confined := by
  have hnew : ∀ q env, (job.call p reqID).Begins q env →
      env ∈ s.begun ++ [job.envelope reqID] := by
    rintro q env (haction | haction) <;> cases job <;> cases haction <;>
      exact List.mem_append_right _ List.mem_cons_self
  obtain ⟨hcallers, hstreamers⟩ :=
    h.envelopes henabled (fun env henv => List.mem_append_left _ henv) hnew
  refine ⟨h.bounded.step henabled, hcallers, hstreamers, fun q req reqID' hq => ?_⟩
  have hidle : s.client.caller p = .idle := by
    cases job <;> exact of_decide_eq_true henabled
  change Function.update s.handler p _ q = _ at hq
  change ((s.client.apply cfg (job.call p reqID)).caller q).envelope = _ ∧ _
  by_cases hqp : q = p
  · subst hqp
    rw [Function.update_self] at hq
    cases job with
    | generate uid => cases hq
    | execute req' =>
        cases hq
        have hcaller : (s.client.apply cfg ((Job.execute req).call q reqID)).caller q =
            .resolve ((Job.execute req).envelope reqID) ⟨some s.client.opened⟩ :=
          Function.update_self _ _ _
        exact ⟨congrArg Caller.envelope hcaller, congrArg Caller.waits hcaller⟩
  · rw [Function.update_of_ne hqp] at hq
    obtain ⟨henvelope, hwaits⟩ := h.calls q req reqID' hq
    have hcaller : (s.client.apply cfg (job.call p reqID)).caller q = s.client.caller q := by
      cases job <;> exact Function.update_of_ne hqp _ _
    exact ⟨(congrArg Caller.envelope hcaller).trans henvelope,
      (congrArg Caller.waits hcaller).trans hwaits⟩

theorem client (h : s.Confined) {action : Action} (hbegins : action.begins = false)
    (henabled : s.client.enabled cfg action = true) :
    (s.apply cfg (.client action)).Confined := by
  have hnone : ∀ p env, ¬ action.Begins p env := by
    rintro p env (rfl | rfl) <;> cases hbegins
  obtain ⟨hcallers, hstreamers⟩ :=
    h.envelopes henabled (fun _ henv => henv) fun p env hnew => absurd hnew (hnone p env)
  refine ⟨?_, ?_, ?_, fun p req reqID hp => ?_⟩
  · rw [apply, answer_client]
    exact h.bounded.step henabled
  · rw [apply, answer_client, answer_begun]
    exact hcallers
  · rw [apply, answer_client, answer_begun]
    exact hstreamers
  · rw [apply, answer_client]
    -- the handler was waiting before, and its call has not returned
    have hbefore : s.handler p = .calling req reqID := by
      rcases handler_answer { s with client := s.client.apply cfg action } action.returned p with
        hsame | ⟨hidle, _⟩
      · exact hsame.symm.trans hp
      · cases hidle.symm.trans hp
    obtain ⟨henvelope, hwaits⟩ := h.calls p req reqID hbefore
    have hbusy : (s.client.apply cfg action).caller p ≠ .idle := by
      intro hidle
      obtain ⟨res, hreturned⟩ := ClientState.returned_of_idle henabled hwaits hidle
      rw [apply, hreturned, answer, hbefore] at hp
      cases (Function.update_self _ _ _).symm.trans hp
    obtain ⟨hkept, hwaits'⟩ := (ClientState.callerMove_apply henabled p).envelope_kept hwaits hbusy
    exact ⟨hkept.trans henvelope, hwaits'⟩

theorem step (h : s.Confined) {action : GatewayAction} (henabled : s.enabled cfg action = true) :
    (s.apply cfg action).Confined := by
  cases action with
  | draw p job =>
      simp only [enabled, Bool.and_eq_true, decide_eq_true_eq] at henabled
      refine ⟨h.bounded, h.callers, h.streamers, fun q req reqID hq => ?_⟩
      change Function.update s.handler p _ q = _ at hq
      by_cases hqp : q = p
      · subst hqp
        rw [Function.update_self] at hq
        cases hq
      · rw [Function.update_of_ne hqp] at hq
        exact h.calls q req reqID hq
  | call p job reqID =>
      simp only [enabled, Bool.and_eq_true, decide_eq_true_eq] at henabled
      exact h.call henabled.2
  | client action =>
      simp only [enabled, Bool.and_eq_true, Bool.not_eq_true'] at henabled
      exact h.client henabled.1 henabled.2

/-- What a streamer has sent grows by what it sends. -/
theorem sent_apply (h : s.Confined) {action : GatewayAction}
    (henabled : s.enabled cfg action = true) (a : Nat) :
    ((s.apply cfg action).client.streamer a).sent =
      (s.client.streamer a).sent ++ action.sends a := by
  have hkeep {action : Action} (henabled : s.client.enabled cfg action = true)
      (hsend : ∀ batch last, action ≠ .send a batch last) :
      ((s.client.apply cfg action).streamer a).sent = (s.client.streamer a).sent :=
    (ClientState.streamerMove_apply henabled a).sent (h.bounded.vacant a) hsend
  cases action with
  | draw p job => exact (List.append_nil _).symm
  | call p job reqID =>
      simp only [enabled, Bool.and_eq_true] at henabled
      refine (hkeep henabled.2 ?_).trans (List.append_nil _).symm
      cases job <;> exact nofun
  | client action =>
      simp only [enabled, Bool.and_eq_true] at henabled
      rw [apply, answer_client]
      by_cases hsend : ∃ batch last, action = .send a batch last
      · obtain ⟨batch, last, rfl⟩ := hsend
        have hnew : (s.client.apply cfg (.send a batch last)).streamer a =
            { s.client.streamer a with
              sent := (s.client.streamer a).sent ++ batch, flusher := .count batch last } :=
          Function.update_self _ _ _
        rw [GatewayAction.sends, if_pos rfl, hnew]
      · have hnone : (GatewayAction.client action).sends a = [] := by
          cases action with
          | send b batch last =>
              refine if_neg ?_
              rintro rfl
              exact hsend ⟨batch, last, rfl⟩
          | _ => rfl
        rw [hnone, List.append_nil]
        exact hkeep henabled.2 fun batch last haction => hsend ⟨batch, last, haction⟩

end Confined

end GatewayState

theorem confined_of_reachable {cfg : Config} {machineID : MachineID} {s : GatewayState}
    (hs : (gateway cfg machineID).ReachableIf GatewayState.InSequence s) : s.Confined := by
  refine hs.invariant (GatewayState.confined_newGateway machineID) fun s action t h _ hstep => ?_
  obtain ⟨henabled, rfl⟩ := System.guarded_step_eq_some_iff.mp hstep
  exact h.step henabled

theorem sound_of_reachable {cfg : Config} {machineID : MachineID} {s : GatewayState}
    (hs : (gateway cfg machineID).ReachableIf GatewayState.InSequence s) : s.Sound machineID := by
  refine hs.invariant (GatewayState.sound_newGateway machineID) fun s action t h hseq hstep => ?_
  obtain ⟨henabled, rfl⟩ := System.guarded_step_eq_some_iff.mp hstep
  exact h.step hseq henabled

/-- The gateway keeps the contract of the router. -/
theorem refines_client (cfg : Config) (machineID : MachineID) :
    (gateway cfg machineID).Refines GatewayState.InSequence (client cfg) UniqueIDs
      (GatewayState.Sound machineID) GatewayState.client where
  init := rfl
  step s action t h _ hstep := by
    obtain ⟨henabled, rfl⟩ := System.guarded_step_eq_some_iff.mp hstep
    cases action with
    | draw p job => exact .inl rfl
    | call p job reqID =>
        simp only [GatewayState.enabled, Bool.and_eq_true, decide_eq_true_eq] at henabled
        have hfresh := h.fresh henabled.1
        refine .inr ⟨job.call p reqID, ?_,
          System.guarded_step_eq_some_iff.mpr ⟨henabled.2, rfl⟩⟩
        cases job <;> exact hfresh
    | client action =>
        simp only [GatewayState.enabled, Bool.and_eq_true, Bool.not_eq_true'] at henabled
        refine .inr ⟨action, ?_, System.guarded_step_eq_some_iff.mpr ⟨henabled.2, ?_⟩⟩
        · cases action with
          | emulate | execute => cases henabled.1
          | _ => trivial
        · rw [GatewayState.apply, GatewayState.answer_client]

/-- As long as no process has drawn 2⁴⁸ ids, the requests of all processes have different
ids and different transaction ids, provided that the machine ids differ. No envelope is
one that a node refuses as incomplete. -/
theorem requests_distinct {cfg : Config} {machineID : MachineID} {s : GatewayState}
    (hs : (gateway cfg machineID).ReachableIf GatewayState.InSequence s) :
    (s.begun.map RemoteEnvelope.requestId).Nodup ∧ (s.begun.map RemoteEnvelope.txId).Nodup ∧
    (∀ env ∈ s.begun, Node.wellFormed env = true) ∧
    ∀ other ≠ machineID, ∀ cfg' t, (gateway cfg' other).ReachableIf GatewayState.InSequence t →
      ∀ env ∈ s.begun, ∀ env' ∈ t.begun,
        env.requestId ≠ env'.requestId ∧ env.txId ≠ env'.txId := by
  have h := sound_of_reachable hs
  have hids : (s.begun.map RemoteEnvelope.requestId).Nodup := h.ids.nodup .begun
  refine ⟨hids, ?_, fun env henv => (h.genuine env henv).wellFormed, ?_⟩
  · have htxIds : s.begun.map RemoteEnvelope.txId =
        (s.begun.map RemoteEnvelope.requestId).map formatUint := by
      rw [List.map_map]
      exact List.map_congr_left fun env henv => (h.genuine env henv).txId
    rw [htxIds]
    exact hids.map formatUint_injective
  · intro other hne cfg' t ht env henv env' henv'
    have h' := sound_of_reachable ht
    have hid : env.requestId ≠ env'.requestId := by
      intro heq
      have hbounds := h.drawn .begun _ (List.mem_map_of_mem henv)
      have hbounds' := h'.drawn .begun _ (List.mem_map_of_mem henv')
      have hblock := h.block
      have hblock' := h'.block
      rw [heq] at hbounds
      exact hne (Fin.ext (by omega))
    refine ⟨hid, fun heq => hid (formatUint_injective ?_)⟩
    rw [← (h.genuine env henv).txId, ← (h'.genuine env' henv').txId, heq]

def transfer : Job := .execute ⟨42, 100⟩

/-- The second of two handlers calls the router first. -/
def overtaking : List GatewayAction :=
  [.draw 0 transfer, .draw 1 (.generate 7), .call 1 (.generate 7) 281474976710658,
    .call 0 transfer 281474976710657]

theorem requests_distinct_overtaking :
    ((gateway singles 1).after overtaking).begun =
        [(Job.generate 7).envelope 281474976710658, transfer.envelope 281474976710657] ∧
      (((gateway singles 1).after overtaking).begun.map RemoteEnvelope.txId).Nodup :=
  ⟨by decide +kernel,
    (requests_distinct (System.reachableIf_of_admits (by decide +kernel))).2.1⟩

end ActorCluster.Client
