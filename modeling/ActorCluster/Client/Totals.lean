import ActorCluster.Client.Step
import ActorCluster.Client.StressEngine
import ActorCluster.Foundation.History

/-! # What the dashboard counts from

The history adds up what is counted, and remembers the sums at which `ResetMetrics` has
loaded the counters. `Status` shows what was added since then, until the next `Start`:
it clears the baseline, and the dashboard is back to the sums since the process started.
-/

namespace ActorCluster.Client

open Transition Remote

/-- What has been added to each metric: in all, before it was last loaded for a baseline,
and before it was loaded for the most recent `ResetMetrics` that is done. A `Start` that
succeeds after that one has `restarted`. -/
structure Increments where
  total : Metric → Nat
  loaded : Metric → Nat
  mark : Metric → Nat
  resets : Nat
  restarted : Bool

namespace Increments

/-- What has been added to a metric since the most recent `ResetMetrics`, or since the process
started if there was none. -/
def since (h : Increments) (m : Metric) : Nat := h.total m - h.mark m

def add (h : Increments) (m : Metric) (n : Nat) : Increments :=
  { h with total := Function.update h.total m (h.total m + n) }

def load (h : Increments) (m : Metric) : Increments :=
  { h with loaded := Function.update h.loaded m (h.total m) }

/-- A key that `Range` does not visit counts as loaded where `Range` begins. -/
def loadErrors (h : Increments) : Increments :=
  { h with loaded := fun
      | .counter c => h.loaded (.counter c)
      | .error key => h.total (.error key) }

def record (d : Dashboard) (h : Increments) : StressAction → Increments
  | .add c n => h.add (.counter c) n.toNat
  | .addError key => h.add (.error key) 1
  | .start cfg => if (d.start cfg).isOk then { h with restarted := true } else h
  | .load c => h.load (.counter c)
  | .range => h.loadErrors
  | .visit key => h.load (.error key)
  | .rebase => { h with mark := h.loaded, resets := h.resets + 1, restarted := false }
  | _ => h

theorem total_add_self (h : Increments) (m : Metric) (n : Nat) :
    (h.add m n).total m = h.total m + n :=
  Function.update_self _ _ _

theorem total_add_of_ne (h : Increments) {m m' : Metric} (hm : m' ≠ m) (n : Nat) :
    (h.add m n).total m' = h.total m' :=
  Function.update_of_ne hm _ _

theorem loaded_load_self (h : Increments) (m : Metric) : (h.load m).loaded m = h.total m :=
  Function.update_self _ _ _

theorem loaded_load_of_ne (h : Increments) {m m' : Metric} (hm : m' ≠ m) :
    (h.load m).loaded m' = h.loaded m' :=
  Function.update_of_ne hm _ _

theorem total_le_add (h : Increments) (m : Metric) (n : Nat) (m' : Metric) :
    h.total m' ≤ (h.add m n).total m' := by
  by_cases hm : m' = m
  · subst hm
    rw [total_add_self]
    exact Nat.le_add_right _ _
  · rw [h.total_add_of_ne hm]

end Increments

/-- The dashboard with the history of what is counted. -/
def countedDashboard : System (Dashboard × Increments) StressAction :=
  dashboard.recording ⟨fun _ => 0, fun _ => 0, fun _ => 0, 0, false⟩ Increments.record

section Invariant

variable {h : Increments}

/-- A baseline has the value that a metric had where it was loaded. -/
def Agrees (b : Metrics) (h : Increments) (m : Metric) : Prop :=
  b.value m = UInt64.ofNat (h.loaded m) ∧ h.loaded m ≤ h.total m

/-- What `ResetMetrics` has loaded so far. -/
def Loading (h : Increments) : Reset → Prop
  | .load rest b => (∀ c, c ∉ rest → Agrees b h (.counter c)) ∧ b.errBreakdown = ∅
  | .range todo b =>
      (∀ c, Agrees b h (.counter c)) ∧
        ∀ key, Agrees b h (.error key) ∨ key ∈ todo ∧ key ∉ b.errBreakdown
  | .clear => True

theorem Agrees.mono {b : Metrics} {m : Metric} (ha : Agrees b h m) {h' : Increments}
    (hloaded : h'.loaded = h.loaded) (htotal : h.total m ≤ h'.total m) : Agrees b h' m := by
  rw [Agrees, hloaded]
  exact ⟨ha.1, Nat.le_trans ha.2 htotal⟩

theorem Loading.mono {reset : Reset} (hl : Loading h reset) {h' : Increments}
    (hloaded : h'.loaded = h.loaded) (htotal : ∀ m, h.total m ≤ h'.total m) :
    Loading h' reset := by
  cases reset with
  | load rest b => exact ⟨fun c hc => (hl.1 c hc).mono hloaded (htotal _), hl.2⟩
  | range todo b =>
      exact ⟨fun c => (hl.1 c).mono hloaded (htotal _),
        fun key => (hl.2 key).imp_left fun ha => ha.mono hloaded (htotal _)⟩
  | clear => trivial

/-- One more metric is loaded. -/
theorem Agrees.load {b b' : Metrics} {m m' : Metric}
    (hvalue : b'.value = Function.update b.value m (UInt64.ofNat (h.total m)))
    (ha : m' ≠ m → Agrees b h m') : Agrees b' (h.load m) m' := by
  rw [Agrees, hvalue]
  by_cases hm : m' = m
  · subst hm
    rw [Function.update_self, Increments.loaded_load_self]
    exact ⟨rfl, Nat.le_refl _⟩
  · rw [Function.update_of_ne hm, h.loaded_load_of_ne hm]
    exact ha hm

/-- The counters have the sums, the baseline has those of the most recent `ResetMetrics` or
is empty, and the next one is being loaded. -/
structure Tracked (e : StressEngine) (h : Increments) : Prop where
  counted : ∀ m, e.router.value m = UInt64.ofNat (h.total m)
  absent : ∀ key, key ∉ e.router.errBreakdown → h.total (.error key) = 0
  marked : ∀ m, h.mark m ≤ h.total m
  unmarked : h.resets = 0 → ∀ m, h.mark m = 0
  baseline : ∀ m, e.baseline.value m = UInt64.ofNat (if h.restarted then 0 else h.mark m)
  loading : ∀ reset, e.mu = some reset → Loading h reset

theorem tracked_new :
    Tracked newDashboard.engine ⟨fun _ => 0, fun _ => 0, fun _ => 0, 0, false⟩ := by
  refine ⟨Metrics.value_zero, fun _ _ => rfl, fun _ => Nat.le_refl _, fun _ _ => rfl,
    Metrics.value_zero, fun reset hmu => ?_⟩
  cases hmu

namespace Tracked

variable {e : StressEngine}

/-- The rest of the engine does not matter. -/
theorem congr (ht : Tracked e h) {e' : StressEngine} (hrouter : e'.router = e.router)
    (hbaseline : e'.baseline = e.baseline)
    (hmu : ∀ reset, e'.mu = some reset → Loading h reset) : Tracked e' h :=
  ⟨hrouter ▸ ht.counted, hrouter ▸ ht.absent, ht.marked, ht.unmarked, hbaseline ▸ ht.baseline, hmu⟩

/-- A metric grows. -/
theorem add (ht : Tracked e h) {router : Metrics} {m : Metric} {n : UInt64}
    (hvalue : router.value = Function.update e.router.value m (e.router.value m + n))
    (hkeys : ∀ key, key ∉ router.errBreakdown →
      key ∉ e.router.errBreakdown ∧ Metric.error key ≠ m) :
    Tracked { e with router := router } (h.add m n.toNat) := by
  refine ⟨fun m' => ?_, fun key hkey => ?_, fun m' => ?_, ht.unmarked, ht.baseline, ?_⟩
  · rw [hvalue]
    by_cases hm : m' = m
    · subst hm
      rw [Function.update_self, Increments.total_add_self, UInt64.ofNat_add, UInt64.ofNat_toNat,
        ht.counted]
    · rw [Function.update_of_ne hm, h.total_add_of_ne hm, ht.counted]
  · obtain ⟨hold, hne⟩ := hkeys key hkey
    rw [h.total_add_of_ne hne]
    exact ht.absent key hold
  · exact Nat.le_trans (ht.marked m') (h.total_le_add m n.toNat m')
  · intro reset hmu
    exact (ht.loading reset hmu).mono rfl (h.total_le_add m n.toNat)

/-- A key is stored with the count zero. -/
theorem loadOrStore (ht : Tracked e h) (key : String) :
    Tracked { e with router := e.router.loadOrStore key } h := by
  refine ⟨fun m => ?_, fun key' hkey => ?_, ht.marked, ht.unmarked, ht.baseline, ht.loading⟩
  · rw [Metrics.value_loadOrStore]
    exact ht.counted m
  · exact ht.absent key' (mt Metrics.mem_loadOrStore hkey)

/-- `Start` clears the baseline. -/
theorem restart (ht : Tracked e h) {e' : StressEngine} (hrouter : e'.router = e.router)
    (hbaseline : e'.baseline = .zero) (hmu : e'.mu = e.mu) :
    Tracked e' { h with restarted := true } := by
  refine ⟨hrouter ▸ ht.counted, hrouter ▸ ht.absent, ht.marked, ht.unmarked, fun m => ?_, ?_⟩
  · rw [hbaseline, Metrics.value_zero]
    rfl
  · intro reset hreset
    exact (ht.loading reset (hmu ▸ hreset)).mono rfl fun _ => Nat.le_refl _

/-- `ResetMetrics` loads a metric. -/
theorem load (ht : Tracked e h) (m : Metric) {mu : Option Reset}
    (hmu : ∀ reset, mu = some reset → Loading (h.load m) reset) :
    Tracked { e with mu := mu } (h.load m) :=
  ⟨ht.counted, ht.absent, ht.marked, ht.unmarked, ht.baseline, hmu⟩

theorem start (d : Dashboard) (ht : Tracked d.engine h) (cfg : StressConfig) :
    Tracked ((d.start cfg).toOption.getD d).engine (h.record d (.start cfg)) := by
  rw [Increments.record]
  cases hstart : d.start cfg with
  | error err => exact ht
  | ok d' =>
      unfold Dashboard.start at hstart
      split at hstart
      · cases hstart
      · cases hcfg : cfg.normalize with
        | error err =>
            rw [hcfg] at hstart
            cases hstart
        | ok cfg' =>
            rw [hcfg] at hstart
            cases hstart
            exact ht.restart rfl rfl rfl

/-- The steps of `ResetMetrics`. -/
theorem resetStep {d d' : Dashboard} (ht : Tracked d.engine h) {action : StressAction}
    (hstep : d.resetStep action = some d') : Tracked d'.engine (h.record d action) := by
  cases action with
  | load c =>
      simp only [Dashboard.resetStep] at hstep
      split at hstep
      next c' rest b hmu =>
        split at hstep
        next hc =>
          subst hc
          cases hstep
          obtain ⟨hcounters, hempty⟩ := ht.loading _ hmu
          refine ht.load (.counter c) fun reset hreset => ?_
          cases hreset
          refine ⟨fun c' hc' => Agrees.load (b := b) ?_ fun hne => hcounters c' ?_, hempty⟩
          · rw [Metrics.value_setCounter, ← ht.counted]
            rfl
          · rw [List.mem_cons, not_or]
            exact ⟨fun heq => hne (congrArg Metric.counter heq), hc'⟩
        next => cases hstep
      next => cases hstep
  | range =>
      simp only [Dashboard.resetStep] at hstep
      split at hstep
      next b hmu =>
        cases hstep
        obtain ⟨hcounters, hempty⟩ := ht.loading _ hmu
        refine ⟨ht.counted, ht.absent, ht.marked, ht.unmarked, ht.baseline, fun reset hreset => ?_⟩
        cases hreset
        refine ⟨fun c => hcounters c List.not_mem_nil, fun key => ?_⟩
        by_cases hkey : key ∈ d.engine.router.errBreakdown
        · refine .inr ⟨AList.mem_keys.mp hkey, ?_⟩
          rw [hempty]
          exact AList.notMem_empty key
        · -- a key that is not there yet has counted nothing
          refine .inl ⟨?_, Nat.le_refl _⟩
          change b.errBreakdown.count key = UInt64.ofNat (h.total (.error key))
          rw [hempty, ht.absent key hkey]
          rfl
      next => cases hstep
  | visit key =>
      simp only [Dashboard.resetStep] at hstep
      split at hstep
      next todo b hmu =>
        split at hstep
        next hkey =>
          cases hstep
          obtain ⟨hcounters, hkeys⟩ := ht.loading _ hmu
          have hvalue : (b.setError key (d.engine.router.errBreakdown.count key)).value =
              Function.update b.value (.error key) (UInt64.ofNat (h.total (.error key))) := by
            rw [Metrics.value_setError, ← ht.counted]
            rfl
          refine ht.load (.error key) fun reset hreset => ?_
          cases hreset
          refine ⟨fun c => Agrees.load hvalue fun _ => hcounters c, fun key' => ?_⟩
          by_cases hne : key' = key
          · subst hne
            exact .inl (Agrees.load hvalue fun hne => absurd rfl hne)
          · refine (hkeys key').imp (fun ha => Agrees.load hvalue fun _ => ha) fun hunseen => ?_
            refine ⟨hunseen.1, fun hmem => ?_⟩
            rcases (AList.mem_insert _).mp hmem with heq | hmem
            · exact hne heq
            · exact hunseen.2 hmem
        next => cases hstep
      next => cases hstep
  | rebase =>
      simp only [Dashboard.resetStep] at hstep
      split at hstep
      next todo b hmu =>
        split at hstep
        next hdone =>
          cases hstep
          obtain ⟨hcounters, hkeys⟩ := ht.loading _ hmu
          have hagrees (m : Metric) : Agrees b h m := by
            cases m with
            | counter c => exact hcounters c
            | error key => exact (hkeys key).resolve_right fun hleft => hleft.2 (hdone key hleft.1)
          refine ⟨ht.counted, ht.absent, fun m => (hagrees m).2, fun hzero => ?_,
            fun m => (hagrees m).1, fun reset hreset => ?_⟩
          · cases hzero
          · cases hreset
            trivial
        next => cases hstep
      next => cases hstep
  | clear =>
      simp only [Dashboard.resetStep] at hstep
      split at hstep
      next hmu =>
        cases hstep
        refine ht.congr rfl rfl fun reset hreset => ?_
        cases hreset
      next => cases hstep
  | _ => cases hstep

theorem advance {d d' : Dashboard} (ht : Tracked d.engine h) {k : Nat}
    (hstep : d.advance k = some d') : Tracked d'.engine h := by
  unfold Dashboard.advance at hstep
  dsimp only at hstep
  split at hstep
  case h_4 | h_6 =>
    cases hstep
    exact ht.congr rfl rfl ht.loading
  case h_8 => cases hstep
  all_goals
    cases hstep
    exact ht

/-- Every step of the dashboard keeps the sums. -/
theorem step {d d' : Dashboard} (ht : Tracked d.engine h) {action : StressAction}
    (hstep : d.step action = some d') : Tracked d'.engine (h.record d action) := by
  cases action with
  | add c n =>
      cases hstep
      refine ht.add (m := .counter c) ?_ fun key hkey => ⟨hkey, by simp⟩
      rw [Metrics.value_setCounter]
      rfl
  | loadOrStore key =>
      cases hstep
      exact ht.loadOrStore key
  | addError key =>
      simp only [Dashboard.step] at hstep
      split at hstep
      next hkey =>
        cases hstep
        refine ht.add (m := .error key) (n := 1) ?_ fun key' hkey' => ?_
        · rw [Metrics.value_setError]
          rfl
        · have hnew : ¬ (key' = key ∨ key' ∈ d.engine.router.errBreakdown) :=
            mt (AList.mem_insert _).mpr hkey'
          rw [not_or] at hnew
          exact ⟨hnew.2, fun heq => hnew.1 (Metric.error.inj heq)⟩
      next => cases hstep
  | start cfg =>
      simp only [Dashboard.step] at hstep
      split at hstep
      · cases hstep
      · cases hstep
        exact ht.start d cfg
  | stop p =>
      simp only [Dashboard.step] at hstep
      split at hstep
      · cases hstep
      · cases hstep
        exact ht.congr rfl rfl ht.loading
  | cancel p =>
      simp only [Dashboard.step] at hstep
      split at hstep
      · cases hstep
        exact ht
      · cases hstep
        exact ht
      · cases hstep
  | stopReturn p =>
      simp only [Dashboard.step] at hstep
      split at hstep
      · split at hstep
        · cases hstep
          exact ht
        · cases hstep
      · cases hstep
  | reset =>
      simp only [Dashboard.step] at hstep
      split at hstep
      · cases hstep
      · cases hstep
        refine ht.congr rfl rfl fun reset hreset => ?_
        cases hreset
        refine ⟨fun c hc => absurd ?_ hc, rfl⟩
        cases c <;> decide
  | advance k => exact ht.advance hstep
  | tick k =>
      obtain ⟨lastSent, _, rfl⟩ := Option.map_eq_some_iff.mp hstep
      exact ht.congr rfl rfl ht.loading
  | reporterReturn k =>
      simp only [Dashboard.step] at hstep
      split at hstep
      · cases hstep
        exact ht
      · cases hstep
  | load | range | visit | rebase | clear => exact ht.resetStep hstep

end Tracked

theorem tracked_of_reachable {t : Dashboard × Increments} (ht : countedDashboard.Reachable t) :
    Tracked t.1.engine t.2 :=
  System.recording_invariant (P := fun d h => Tracked d.engine h) tracked_new
    (fun _ _ _ _ h hstep => h.step hstep) ht

end Invariant

section Shown

theorem toNat_subtractWithFloor {a b : Nat} (hle : b ≤ a) (hlt : a < UInt64.size) :
    (subtractWithFloor (UInt64.ofNat a) (UInt64.ofNat b)).toNat = a - b := by
  have ha : (UInt64.ofNat a).toNat = a := UInt64.toNat_ofNat_of_lt hlt
  have hb : (UInt64.ofNat b).toNat = b := UInt64.toNat_ofNat_of_lt (Nat.lt_of_le_of_lt hle hlt)
  have hword : UInt64.ofNat b ≤ UInt64.ofNat a := by
    rw [UInt64.le_iff_toNat_le, ha, hb]
    exact hle
  rw [subtractWithFloor, if_neg (UInt64.not_lt.mpr hword), UInt64.toNat_sub_of_le _ _ hword, ha, hb]

/-- `diffErrorBreakdown` leaves out what has not grown. -/
theorem growth_eq (curr base : UInt64) :
    (if curr ≤ base then none else some (curr - base)) =
      if (subtractWithFloor curr base).toNat = 0 then none
        else some (UInt64.ofNat (subtractWithFloor curr base).toNat) := by
  by_cases hle : curr ≤ base
  · have hzero : subtractWithFloor curr base = 0 := by
      unfold subtractWithFloor
      split
      · rfl
      next hlt =>
        rw [UInt64.le_antisymm hle (UInt64.not_lt.mp hlt)]
        exact UInt64.sub_self base
    rw [if_pos hle, hzero]
    rfl
  · have hlt : base < curr := UInt64.not_le.mp hle
    have hsub : subtractWithFloor curr base = curr - base := if_neg (UInt64.lt_asymm hlt)
    have hpos : (curr - base).toNat ≠ 0 := by
      rw [UInt64.toNat_sub_of_le _ _ (UInt64.le_of_lt hlt)]
      have := UInt64.lt_iff_toNat_lt.mp hlt
      omega
    rw [if_neg hle, hsub, if_neg hpos, UInt64.ofNat_toNat]

variable {e : StressEngine} {h : Increments}

/-- What a total shows, whichever baseline the engine has. -/
theorem Tracked.toNat_difference (ht : Tracked e h) {m : Metric} (hlt : h.total m < UInt64.size) :
    (subtractWithFloor (e.router.value m) (e.baseline.value m)).toNat =
      h.total m - if h.restarted then 0 else h.mark m := by
  rw [ht.counted, ht.baseline]
  refine toNat_subtractWithFloor ?_ hlt
  split
  · exact Nat.zero_le _
  · exact ht.marked m

theorem Tracked.lookup_difference (ht : Tracked e h) {key : String}
    (hlt : h.total (.error key) < UInt64.size) :
    (diffErrorBreakdown e.router.errBreakdown e.baseline.errBreakdown).lookup key =
      let grown := h.total (.error key) - if h.restarted then 0 else h.mark (.error key)
      if grown = 0 then none else some (UInt64.ofNat grown) := by
  have hdiff := ht.toNat_difference hlt
  have hcount := ht.counted (.error key)
  rw [lookup_diffErrorBreakdown]
  cases hlookup : e.router.errBreakdown.lookup key with
  | none =>
      have hzero := ht.absent key (AList.lookup_eq_none.mp hlookup)
      simp [hzero]
  | some value =>
      have hvalue : e.router.value (.error key) = value := by
        rw [Metrics.value, Breakdown.count, hlookup]
        rfl
      rw [hvalue] at hdiff
      dsimp only
      rw [← hdiff]
      exact growth_eq value (e.baseline.value (.error key))

/-- The dashboard shows the given numbers, as far as the counters have not wrapped. An error
code that was not counted is left out. -/
structure StressStatus.Shows (status : StressStatus) (h : Increments) (shown : Metric → Nat) :
    Prop where
  totalSent : h.total (.counter .reqSent) < UInt64.size →
    status.totalSent.toNat = shown (.counter .reqSent)
  totalSuccess : h.total (.counter .respRecv) < UInt64.size →
    status.totalSuccess.toNat = shown (.counter .respRecv)
  totalErrors : h.total (.counter .errCount) < UInt64.size →
    status.totalErrors.toNat = shown (.counter .errCount)
  errorBreakdown : ∀ key, h.total (.error key) < UInt64.size →
    status.errorBreakdown.lookup key =
      if shown (.error key) = 0 then none else some (UInt64.ofNat (shown (.error key)))

theorem Tracked.shows (ht : Tracked e h) {shown : Metric → Nat}
    (hshown : ∀ m, (h.total m - if h.restarted then 0 else h.mark m) = shown m) :
    e.status.Shows h shown where
  totalSent hlt := (ht.toNat_difference hlt).trans (hshown _)
  totalSuccess hlt := (ht.toNat_difference hlt).trans (hshown _)
  totalErrors hlt := (ht.toNat_difference hlt).trans (hshown _)
  errorBreakdown key hlt := by
    rw [← hshown]
    exact ht.lookup_difference hlt

/-- After a `Start` the dashboard shows what was counted since the process started. -/
theorem totals_after_start {t : Dashboard × Increments} (ht : countedDashboard.Reachable t)
    (hstart : t.2.restarted = true) : t.1.engine.status.Shows t.2 t.2.total := by
  refine (tracked_of_reachable ht).shows fun m => ?_
  rw [hstart, if_pos rfl, Nat.sub_zero]

/-- The metrics that the dashboard shows. -/
def Metric.shown : Metric → Bool
  | .counter .reqSent | .counter .respRecv | .counter .errCount | .error _ => true
  | _ => false

theorem StressStatus.Shows.congr {status : StressStatus} {shown shown' : Metric → Nat}
    (hs : status.Shows h shown)
    (hsame : ∀ m : Metric, m.shown = true → h.total m < UInt64.size → shown' m = shown m) :
    status.Shows h shown' where
  totalSent hlt := (hs.totalSent hlt).trans (hsame _ rfl hlt).symm
  totalSuccess hlt := (hs.totalSuccess hlt).trans (hsame _ rfl hlt).symm
  totalErrors hlt := (hs.totalErrors hlt).trans (hsame _ rfl hlt).symm
  errorBreakdown key hlt := by
    rw [hsame _ rfl hlt]
    exact hs.errorBreakdown key hlt

/-- What the dashboard shows of a metric is one number. -/
theorem StressStatus.Shows.unique {status : StressStatus} {shown shown' : Metric → Nat}
    (hs : status.Shows h shown) (hs' : status.Shows h shown')
    (hle : ∀ m, shown m ≤ h.total m) (hle' : ∀ m, shown' m ≤ h.total m) {m : Metric}
    (hm : m.shown = true) (hlt : h.total m < UInt64.size) : shown m = shown' m := by
  cases m with
  | counter c =>
      cases c with
      | reqSent => exact (hs.totalSent hlt).symm.trans (hs'.totalSent hlt)
      | respRecv => exact (hs.totalSuccess hlt).symm.trans (hs'.totalSuccess hlt)
      | errCount => exact (hs.totalErrors hlt).symm.trans (hs'.totalErrors hlt)
      | _ => cases hm
  | error key =>
      have hlookup := (hs.errorBreakdown key hlt).symm.trans (hs'.errorBreakdown key hlt)
      have hword : UInt64.ofNat (shown (.error key)) = UInt64.ofNat (shown' (.error key)) →
          shown (.error key) = shown' (.error key) := fun heq => by
        rw [← UInt64.toNat_ofNat_of_lt' (Nat.lt_of_le_of_lt (hle _) hlt), heq,
          UInt64.toNat_ofNat_of_lt' (Nat.lt_of_le_of_lt (hle' _) hlt)]
      split at hlookup <;> split at hlookup
      next hzero hzero' => exact hzero.trans hzero'.symm
      next => cases hlookup
      next => cases hlookup
      next => exact hword (Option.some.inj hlookup)

/-- The dashboard shows what was counted since the most recent `ResetMetrics` exactly if no
`Start` has succeeded since that reset, or nothing that is shown had been counted before it;
so it does if there was no reset. -/
theorem totals_since_reset {t : Dashboard × Increments} (ht : countedDashboard.Reachable t) :
    (t.1.engine.status.Shows t.2 t.2.since ↔ t.2.restarted = false ∨
      ∀ m : Metric, m.shown = true → t.2.total m < UInt64.size → t.2.mark m = 0) ∧
    (t.2.resets = 0 → t.1.engine.status.Shows t.2 t.2.since) := by
  have h := tracked_of_reachable ht
  have hsame (hunmarked : ∀ m : Metric, m.shown = true → t.2.total m < UInt64.size →
      t.2.mark m = 0) (hstart : t.2.restarted = true) :
      t.1.engine.status.Shows t.2 t.2.since := by
    refine (totals_after_start ht hstart).congr fun m hm hlt => ?_
    rw [Increments.since, hunmarked m hm hlt, Nat.sub_zero]
  cases hstart : t.2.restarted with
  | false =>
      have hshows : t.1.engine.status.Shows t.2 t.2.since := by
        refine h.shows fun m => ?_
        rw [Increments.since, hstart]
        rfl
      exact ⟨iff_of_true hshows (Or.inl rfl), fun _ => hshows⟩
  | true =>
      refine ⟨⟨fun hsince => Or.inr fun m hm hlt => ?_, ?_⟩, fun hnone => ?_⟩
      · have heq := hsince.unique (totals_after_start ht hstart) (fun _ => Nat.sub_le _ _)
          (fun _ => Nat.le_refl _) hm hlt
        have hmarked := h.marked m
        rw [Increments.since] at heq
        omega
      · rintro (hnever | hunmarked)
        · cases hnever
        · exact hsame hunmarked hstart
      · exact hsame (fun m _ _ => h.unmarked hnone m) hstart

/-- A call of `ResetMetrics` while no error has been counted. -/
def resetOnce : List StressAction :=
  [.reset, .load .reqSent, .load .respRecv, .load .errCount, .load .latencyNanos,
    .load .latencySamples, .range, .rebase, .clear]

/-- One request is sent before the reset. After it two are sent, and one of them fails. -/
def sentAfterReset : List StressAction :=
  [StressAction.add .reqSent 1] ++ resetOnce ++
    [StressAction.add .reqSent 2, .add .errCount 1, .loadOrStore "ERR_WRONG_NODE",
      .addError "ERR_WRONG_NODE"]

theorem totals_since_reset_sentAfterReset :
    (countedDashboard.after sentAfterReset).1.engine.status.totalSent = 2 ∧
      (countedDashboard.after sentAfterReset).1.engine.status.Shows
        (countedDashboard.after sentAfterReset).2 (countedDashboard.after sentAfterReset).2.since :=
  ⟨by decide +kernel, (totals_since_reset (System.reachable_after sentAfterReset)).1.mpr
    (.inl (by decide +kernel))⟩

/-- One request is sent, the metrics are reset, and a run is started that comes to its end
without another request. -/
def resetThenStart : List StressAction :=
  [StressAction.add .reqSent 1] ++ resetOnce ++
    [StressAction.start ⟨0, 1, 100⟩, .advance 0, .advance 0, .advance 0, .advance 0, .advance 0,
      .advance 0, .advance 0]

/-- `Start` brings the request from before the reset back to the dashboard. -/
theorem start_drops_baseline :
    ∃ t, countedDashboard.Reachable t ∧ t.1.engine.mu.isNone = true ∧
      t.1.engine.status.isRunning = false ∧ (t.1.run 0).stage = .closed ∧ t.2.resets = 1 ∧
      t.2.since (.counter .reqSent) = 0 ∧ t.1.engine.status.totalSent = 1 :=
  ⟨_, System.reachable_after resetThenStart, by decide +kernel, by decide +kernel,
    by decide +kernel, by decide +kernel, by decide +kernel, by decide +kernel⟩

end Shown

section Router

/-- The counters of the router are those of the client. -/
structure Observes (router : Metrics) (s : ClientState) : Prop where
  reqSent : router.counter .reqSent = s.reqSent
  respRecv : router.counter .respRecv = s.respRecv
  errCount : router.counter .errCount = s.errCount
  errBreakdown : ∀ key, router.errBreakdown.count key = s.errBreakdown key

/-- `errCount.Add(1)` and the two steps of `RecordError`. -/
def countErrorSteps (errCode : String) : List StressAction :=
  let key := if errCode = "" then "UNKNOWN" else errCode
  [.add .errCount 1, .loadOrStore key, .addError key]

/-- What the router counts in a step of the client. -/
def Action.outcome : Action → List StressAction
  | .count _ batch _ => [.add .reqSent (UInt64.ofNat batch.length)]
  | .tally _ res _ => if res.success then [.add .respRecv 1] else countErrorSteps (errKey res)
  | .failEntry _ code _ _ _ | .giveUp _ _ _ code _ => countErrorSteps code.text
  | .timeout _ _ _ => countErrorSteps ErrorCode.deadlineExceeded.text
  | _ => []

variable {d : Dashboard} {s : ClientState}

theorem Observes.congr {router : Metrics} (h : Observes router s) {s' : ClientState}
    (hsent : s'.reqSent = s.reqSent) (hrecv : s'.respRecv = s.respRecv)
    (herr : s'.errCount = s.errCount) (hbreakdown : s'.errBreakdown = s.errBreakdown) :
    Observes router s' :=
  ⟨hsent ▸ h.reqSent, hrecv ▸ h.respRecv, herr ▸ h.errCount, hbreakdown ▸ h.errBreakdown⟩

theorem exec_countErrorSteps (h : Observes d.engine.router s) (errCode : String) :
    ∃ router, dashboard.exec d (countErrorSteps errCode) = some (d.setRouter router) ∧
      Observes router (s.countError errCode) := by
  unfold countErrorSteps ClientState.countError ClientState.recordError
  generalize (if errCode = "" then "UNKNOWN" else errCode) = key
  let counted := d.engine.router.setCounter .errCount (d.engine.router.counter .errCount + 1)
  let stored := counted.loadOrStore key
  have hvalue (m : Metric) : (stored.setError key (stored.value (.error key) + 1)).value m =
      Function.update counted.value (.error key) (counted.value (.error key) + 1) m := by
    rw [Metrics.value_setError, Metrics.value_loadOrStore]
  refine ⟨stored.setError key (stored.value (.error key) + 1), ?_, ?_, ?_, ?_, fun key' => ?_⟩
  · have hstep : ((d.setRouter counted).setRouter stored).step (.addError key) =
        some (d.setRouter (stored.setError key (stored.value (.error key) + 1))) :=
      if_pos (counted.mem_loadOrStore_self key)
    exact congrArg (fun t : Option Dashboard => t.bind fun t => some t) hstep
  · exact (hvalue (.counter .reqSent)).trans h.reqSent
  · exact (hvalue (.counter .respRecv)).trans h.respRecv
  · refine (hvalue (.counter .errCount)).trans ?_
    rw [Function.update_of_ne (by simp), Metrics.value_setCounter, Function.update_self, h.errCount]
  · refine (hvalue (.error key')).trans ?_
    by_cases hkey : key' = key
    · subst hkey
      rw [Function.update_self]
      change d.engine.router.errBreakdown.count key' + 1 =
        Function.update s.errBreakdown key' _ key'
      rw [Function.update_self, h.errBreakdown]
    · rw [Function.update_of_ne (by simpa using hkey)]
      change d.engine.router.errBreakdown.count key' = Function.update s.errBreakdown key _ key'
      rw [Function.update_of_ne hkey, h.errBreakdown]

/-- The dashboard sees every step of the client as counts of the router. -/
theorem exec_outcome (cfg : Config) (h : Observes d.engine.router s) (action : Action) :
    ∃ router, dashboard.exec d action.outcome = some (d.setRouter router) ∧
      Observes router (s.apply cfg action) := by
  -- an error that the client counts, and a step that counts nothing
  have herror {errCode : String} {s' : ClientState}
      (hsame : ∀ router, Observes router (s.countError errCode) → Observes router s') :
      ∃ router, dashboard.exec d (countErrorSteps errCode) = some (d.setRouter router) ∧
        Observes router s' := by
    obtain ⟨router, hexec, hobserves⟩ := exec_countErrorSteps h errCode
    exact ⟨router, hexec, hsame router hobserves⟩
  have hquiet {s' : ClientState} (hobserves : Observes d.engine.router s') :
      ∃ router, dashboard.exec d [] = some (d.setRouter router) ∧ Observes router s' :=
    ⟨d.engine.router, rfl, hobserves⟩
  cases action with
  | count a batch last =>
      refine ⟨d.engine.router.setCounter .reqSent _, rfl, ?_, h.respRecv, h.errCount,
        h.errBreakdown⟩
      exact congrArg (· + UInt64.ofNat batch.length) h.reqSent
  | tally a res rest =>
      simp only [Action.outcome, ClientState.apply]
      split
      · refine ⟨d.engine.router.setCounter .respRecv _, rfl, h.reqSent, ?_, h.errCount,
          h.errBreakdown⟩
        exact congrArg (· + 1) h.respRecv
      · exact herror fun router hobserves => hobserves.congr rfl rfl rfl rfl
  | failEntry a code i reqID entry =>
      obtain ⟨_ | ch⟩ := entry <;>
        exact herror fun router hobserves => hobserves.congr rfl rfl rfl rfl
  | giveUp | timeout => exact herror fun router hobserves => hobserves.congr rfl rfl rfl rfl
  | create | demux =>
      simp only [ClientState.apply]
      split <;> exact hquiet (h.congr rfl rfl rfl rfl)
  | _ => exact hquiet (h.congr rfl rfl rfl rfl)

/-- The counters that a run of the client leads to are among those of the dashboard. -/
theorem exists_dashboard {cfg : Config} (hs : (client cfg).Reachable s) :
    ∃ t, countedDashboard.Reachable t ∧ Observes t.1.engine.router s := by
  have hrun : ∃ d, dashboard.Reachable d ∧ Observes d.engine.router s := by
    apply System.Reachable.invariant
      (P := fun s => ∃ d, dashboard.Reachable d ∧ Observes d.engine.router s) _ _ hs
    · exact ⟨newDashboard, Relation.ReflTransGen.refl, rfl, rfl, rfl, fun _ => rfl⟩
    · rintro s action s' ⟨d, hd, hobserves⟩ hstep
      obtain ⟨_, rfl⟩ := System.guarded_step_eq_some_iff.mp hstep
      obtain ⟨router, hexec, hobserves'⟩ := exec_outcome cfg hobserves action
      exact ⟨d.setRouter router,
        hd.trans (System.runIf_of_exec (fun _ _ _ => trivial) hexec), hobserves'⟩
  obtain ⟨d, hd, hobserves⟩ := hrun
  obtain ⟨h, ht⟩ := System.exists_history hd
  exact ⟨(d, h), ht, hobserves⟩

end Router

end ActorCluster.Client
