import SmartDialer.Correctness.Lifecycle

namespace SmartDialer

open Relational

/-!
# Calls that the dialer gives up

Two transactions close a call that a provider may still be ringing: the pullback of a candidate and
the orphan sweep of the reaper.  The sweep hands the provider reference of what it closes to
`_schedule_cancel`; the pullback hands over nothing.

* `cancelCandidate_calls`, `reap_calls` — the rows they close; `reap_cancels` — what the reaper
  requests.
* `cancelled_iff` — when a step cancels all it closes; `closed_calls_cancelled_iff` — whole runs.
-/

/-- The dialer itself gives calls up, with a registry of providers at hand. -/
def Act.GivesUp : Act → Prop
  | .pullback _ _ => True
  | .reap _ _ (some _) => True
  | _ => False

/-- Every call with a provider reference that such a step moves to a terminal state is cancelled at
    its provider. -/
def Sys.Cancelled (cfg : Settings) (s : Sys) (a : Act) : Prop :=
  a.GivesUp → ∀ k c pcid, s.db.calls.get? k = some c → c.state.isTerminal = false →
    c.provider_call_id = some pcid →
    (∃ c', (step cfg s a).db.calls.get? k = some c' ∧ c'.state.isTerminal = true) →
    ∃ requested, (step cfg s a).cancels = s.cancels ++ requested ∧
      (c.provider, pcid) ∈ requested

/-- The pullback finds nothing to cancel, and the registry has the providers of the dialed calls
    that the reaper fails. -/
def Sys.Cancellable (s : Sys) : Act → Prop
  | .pullback _ k => ∀ c, s.db.calls.get? k = some c → c.state.isRinging = false
  | .reap _ clock_now (some names) => ∀ k c pcid, s.db.calls.get? k = some c →
      isOrphan clock_now c = true → c.provider_call_id = some pcid → pcid ≠ "" ∧ c.provider ∈ names
  | _ => True

/-! ### What is closed, and what is requested -/

/-- Ending the borrower's turn leaves the calls alone. -/
private theorem onCallTerminal_calls {now : Time} {borrower_id : ℕ} {backoff : Time} {db db' : Db}
    {b : Bool}
    (h : (BorrowerRepo.onCallTerminal now borrower_id .CANCELLED backoff >>=
      fun _ => pure true).run db = .ok (b, db')) : db'.calls = db.calls := by
  obtain ⟨db₁, h₁, hv₁⟩ := BorrowerRepo.onCallTerminal_run now borrower_id .CANCELLED backoff db
  rw [Txn.run_bind_of_ok h₁] at h
  obtain ⟨_, rfl⟩ := Txn.run_pure_ok.mp h
  exact congrArg View.calls hv₁

/-- The calls after the pullback of a candidate. -/
theorem cancelCandidate_calls (now : Time) (call_id : ℕ) (db : Db) :
    ((cancelCandidate now call_id).commit db).calls
      = db.calls.modify (fun i c => i == call_id && c.state.isRinging)
          (CallRepo.cancelledRow now "SAFETY_PULLBACK") := by
  obtain ⟨db₁, h₁⟩ := updateCalls_total now (fun i c => i == call_id && c.state.isRinging)
    (CallRepo.cancelledRow now "SAFETY_PULLBACK") db fun _ _ _ _ => ⟨rfl, rfl⟩
  have hcalls : db₁.calls = db.calls.modify (fun i c => i == call_id && c.state.isRinging)
      (CallRepo.cancelledRow now "SAFETY_PULLBACK") := congrArg View.calls (updateCalls_view h₁).2
  obtain ⟨b, db', hrun, _⟩ := cancelCandidate_run now call_id db
  rw [(Txn.commit_of_run hrun).1, ← hcalls]
  -- nothing after the guarded update writes to `calls`
  obtain ⟨row, db₂, h₂, hrest⟩ := Txn.run_bind_ok.mp hrun
  obtain ⟨_, db₃, h₃, hpure⟩ := Txn.run_bind_ok.mp h₂
  rw [h₁] at h₃
  cases h₃
  obtain ⟨_, rfl⟩ := Txn.run_pure_ok.mp hpure
  cases row with
  | none =>
    obtain ⟨_, rfl⟩ := Txn.run_pure_ok.mp hrest
    rfl
  | some row =>
    cases hagent : row.2.agent_id with
    | none =>
      simp only [hagent] at hrest
      exact onCallTerminal_calls hrest
    | some agent_id =>
      simp only [hagent] at hrest
      obtain ⟨_, db₄, h₄, hrest⟩ := Txn.run_bind_ok.mp hrest
      rw [onCallTerminal_calls hrest]
      cases h₄
      rfl

/-- The calls after a tick of the reaper. -/
theorem reap_calls (now now_ts : Time) (registry : Option (List String)) (db : Db) :
    ((reap now now_ts registry).commit db).calls
      = db.calls.modify (fun _ c => isOrphan now_ts c) (orphanedRow now) := by
  obtain ⟨res, db', hrun, hv⟩ := reap_run now now_ts registry db
  rw [(Txn.commit_of_run hrun).1, ← Db.view_calls db', hv, View.reap_eq]
  exact View.foldl_failOrphan_calls now now_ts db.view

/-- The cancellations that a tick of the reaper requests. -/
theorem reap_cancels (now now_ts : Time) (registry : Option (List String)) (db : Db) :
    ((reap now now_ts registry).result db).map (·.cancels)
      = some ((db.calls.select fun _ c => isOrphan now_ts c).filterMap fun e =>
          scheduleCancel registry e.2.provider e.2.provider_call_id) := by
  obtain ⟨db₁, h₁, _⟩ := failOrphanCalls_run now now_ts db
  obtain ⟨db₂, h₂, _⟩ := Txn.forM_run Db.view (releaseOrphan_run now)
    ((db.calls.select fun _ c => isOrphan now_ts c).map fun e => (e.1, orphanedRow now e.2)) db₁
  unfold reap Txn.result
  rw [Txn.run_bind_of_ok h₁, Txn.run_bind_of_ok h₂]
  show some (List.filterMap _ _) = _
  rw [List.filterMap_map]
  rfl

/-- What `_schedule_cancel` hands to a provider. -/
theorem scheduleCancel_eq_some {names : List String} {name : String} {ref : Option String}
    {provider pcid : String} : scheduleCancel (some names) name ref = some (provider, pcid) ↔
      ref = some pcid ∧ name = provider ∧ pcid ≠ "" ∧ provider ∈ names := by
  unfold scheduleCancel
  cases ref with
  | none => simp
  | some p =>
    simp only [Option.some.injEq]
    constructor
    · intro h
      split at h
      · rename_i hok
        cases h
        exact ⟨rfl, rfl, hok⟩
      · cases h
    · rintro ⟨rfl, rfl, hok⟩
      rw [if_pos hok]

/-! ### Steps -/

/-- A pullback requests nothing, so it must not find its candidate ringing. -/
private theorem pullback_cancelled_iff (cfg : Settings) {s : Sys} (hs : s.Live) (now : Time)
    (call_id : ℕ) :
    s.Cancelled cfg (.pullback now call_id) ↔ s.Cancellable (.pullback now call_id) := by
  have hcalls : (step cfg s (.pullback now call_id)).db.calls = s.db.calls.modify
      (fun i c => i == call_id && c.state.isRinging)
      (CallRepo.cancelledRow now "SAFETY_PULLBACK") := cancelCandidate_calls now call_id s.db
  constructor
  · intro h c hc
    by_contra hring
    rw [Bool.not_eq_false] at hring
    -- a ringing call has its reference, and the step requests nothing
    have hlive := live_of_isRinging hring
    obtain ⟨pcid, href⟩ : ∃ pcid, c.provider_call_id = some pcid := by
      cases href : c.provider_call_id with
      | some pcid => exact ⟨pcid, rfl⟩
      | none =>
        rcases (hs.healthy.settled call_id c hc).undialed href with hst | hst
        · rw [hst] at hring; cases hring
        · rw [hst] at hlive; cases hlive
    have hend : (step cfg s (.pullback now call_id)).db.calls.get? call_id
        = some (CallRepo.cancelledRow now "SAFETY_PULLBACK" c) := by
      rw [hcalls, Table.get?_modify, hc]
      simp [hring]
    obtain ⟨requested, hreq, hmem⟩ := h trivial call_id c pcid hc hlive href ⟨_, hend, rfl⟩
    have hnone : requested = [] := List.self_eq_append_right.mp hreq
    rw [hnone] at hmem
    cases hmem
  · intro h _ k c pcid hc hlive _ hend
    -- the candidate is not ringing, so nothing is closed
    obtain ⟨c', hc', hterm⟩ := hend
    rw [hcalls, Table.modify_key_of_neg _ h, hc, Option.some.injEq] at hc'
    rw [← hc', hlive] at hterm
    cases hterm

/-- The reaper requests the cancellation of the orphans that the registry can cancel. -/
private theorem reap_cancelled_iff (cfg : Settings) (s : Sys) (now clock_now : Time)
    (names : List String) :
    s.Cancelled cfg (.reap now clock_now (some names)) ↔
      s.Cancellable (.reap now clock_now (some names)) := by
  have hcalls : (step cfg s (.reap now clock_now (some names))).db.calls = s.db.calls.modify
      (fun _ c => isOrphan clock_now c) (orphanedRow now) :=
    reap_calls now clock_now (some names) s.db
  have hcancels : (step cfg s (.reap now clock_now (some names))).cancels = s.cancels ++
      (s.db.calls.select fun _ c => isOrphan clock_now c).filterMap fun e =>
        scheduleCancel (some names) e.2.provider e.2.provider_call_id := by
    show s.cancels ++ (((reap now clock_now (some names)).result s.db).map _).getD [] = _
    rw [reap_cancels]
    rfl
  constructor
  · intro h k c pcid hc horphan href
    have hend : (step cfg s (.reap now clock_now (some names))).db.calls.get? k
        = some (orphanedRow now c) := by
      rw [hcalls, Table.get?_modify, hc]
      simp [horphan]
    obtain ⟨requested, hreq, hmem⟩ := h trivial k c pcid hc (live_of_isOrphan horphan) href
      ⟨_, hend, rfl⟩
    rw [hcancels] at hreq
    rw [← List.append_cancel_left hreq] at hmem
    obtain ⟨e, _, hsched⟩ := List.mem_filterMap.mp hmem
    exact (scheduleCancel_eq_some.mp hsched).2.2
  · intro h _ k c pcid hc hlive href hend
    -- only an orphan is closed
    have horphan : isOrphan clock_now c = true := by
      obtain ⟨c', hc', hterm⟩ := hend
      rw [hcalls, Table.get?_modify, hc, Option.map_some, Option.some.injEq] at hc'
      by_contra hnot
      rw [if_neg hnot] at hc'
      rw [← hc', hlive] at hterm
      cases hterm
    refine ⟨_, hcancels, List.mem_filterMap.mpr ⟨(k, c), Table.mem_select.mpr ⟨hc, horphan⟩, ?_⟩⟩
    exact scheduleCancel_eq_some.mpr ⟨href, rfl, h k c pcid hc horphan href⟩

/-- **Step.** A step cancels all the dialed calls that it closes exactly if it is no pullback that
    finds a call to cancel, and no tick of the reaper with an orphan that the registry cannot
    cancel. -/
theorem cancelled_iff (cfg : Settings) (s : Sys) (a : Act) (hs : s.Live) :
    s.Cancelled cfg a ↔ s.Cancellable a := by
  match a with
  | .pullback now call_id => exact pullback_cancelled_iff cfg hs now call_id
  | .reap now clock_now none => exact ⟨fun _ => trivial, fun _ h => h.elim⟩
  | .reap now clock_now (some names) => exact reap_cancelled_iff cfg s now clock_now names
  | .createAgent .. | .login .. | .logout .. | .pause .. | .seed .. | .reserveAndCreate .. |
    .placeCall .. | .rejected .. | .accepted .. | .abandon .. | .ingest .. | .fetch .. | .read .. |
    .commit .. | .rollback .. => exact ⟨fun _ => trivial, fun _ h => h.elim⟩

/-- **Nothing given up is left ringing** in a run exactly if no pullback of the run finds a call to
    cancel and the reaper's registry has the provider of every dialed orphan.  The sweep marks its
    candidates `CANCELLED` and asks no provider to hang up; only the reaper does, and it can for a
    provider that its registry knows. -/
theorem closed_calls_cancelled_iff (cfg : Settings) (acts : List Act) :
    Along (step cfg) (Sys.Cancelled cfg) Sys.init acts ↔
      Along (step cfg) Sys.Cancellable Sys.init acts :=
  along_congr (fun _ a h => live_step cfg h a) (cancelled_iff cfg) live_init acts

/-- A dialed call is pulled back, and then answered. -/
def pulledBack : List Act :=
  [.createAgent 0 7 "ext-1", .login 0 1, .seed 0 7 "+15550001" 100 3,
    .reserveAndCreate 0 0 [] [] (some "mock") "w1" 7, .placeCall 1,
    .accepted (secs 1) (secs 1) 1 "pc-1", .pullback (secs 2) 1,
    .ingest (secs 3) "mock" "ev-1" (some "pc-1") "answered" (secs 3) "", .fetch (secs 4) 1 200,
    .read (secs 4) 1, .commit 1]

/-- The call is closed and the answer absorbed, but the provider never hears of it. -/
theorem pulledBack_not_cancelled :
    ¬ Along (step .default) (Sys.Cancelled .default) Sys.init pulledBack ∧
      (run (step .default) Sys.init pulledBack).cancels = [] ∧
      ((run (step .default) Sys.init pulledBack).db.provider_events.get? 1).map (·.anomaly)
        = some (some .OUT_OF_ORDER) := by
  refine ⟨fun h => ?_, by decide +kernel, by decide +kernel⟩
  obtain ⟨_, _, _, _, _, _, h, _⟩ := h
  -- call 1 is on the wire under "pc-1" before the sweep and has ended after it
  have hcall : ((run (step .default) Sys.init (pulledBack.take 6)).db.calls.get? 1).map
      (fun c => (c.state, c.provider, c.provider_call_id))
        = some (.INITIATED, "mock", some "pc-1") := by decide +kernel
  obtain ⟨c, hc, hrow⟩ := Option.map_eq_some_iff.mp hcall
  obtain ⟨hs, hrest⟩ := Prod.mk.inj hrow
  obtain ⟨hprovider, href⟩ := Prod.mk.inj hrest
  have hend : ((run (step .default) Sys.init (pulledBack.take 7)).db.calls.get? 1).map
      (fun c => c.state.isTerminal) = some true := by decide +kernel
  obtain ⟨c', hc', hterm⟩ := Option.map_eq_some_iff.mp hend
  obtain ⟨requested, hreq, hmem⟩ := h trivial 1 c "pc-1" hc (by rw [hs]; rfl) href ⟨c', hc', hterm⟩
  have hnone : requested = [] := List.self_eq_append_right.mp hreq
  rw [hnone] at hmem
  cases hmem

end SmartDialer
