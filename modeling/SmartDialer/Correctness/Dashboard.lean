import SmartDialer.Api.LiveStatus
import SmartDialer.Correctness.Reconciliation
import SmartDialer.Correctness.References
import SmartDialer.Correctness.Transactions

namespace SmartDialer

open Relational Numeric

/-!
# What the operators see

The dashboard groups and counts rows of its own, while the pacing loop reads the counters that the
triggers maintain.  In every state reached the two show the same campaign, and the dashboard shows
all of it: its counts add up to the rows, and the events that it lists have been applied to calls
of the campaign that they refer to.

* `LiveSnapshot.Truthful` — what is meant.
* `dashboard_truthful` — it holds in every state reached.
-/

/-- The dashboard agrees with the snapshot of a tick and with the tables. -/
structure LiveSnapshot.Truthful (d : LiveSnapshot) (snapshot : Snapshot) (db : Db) : Prop where
  available : (stateCount d.agents .AVAILABLE : ℤ) = snapshot.agents_available
  reserved : (stateCount d.agents .RESERVED : ℤ) = snapshot.agents_reserved
  dialing : (stateCount d.agents .DIALING : ℤ) = snapshot.agents_dialing
  connected : (stateCount d.agents .CONNECTED : ℤ) = snapshot.agents_connected
  wrapup : (stateCount d.agents .WRAP_UP : ℤ) = snapshot.agents_wrapup
  ringing : (stateCount d.calls .INITIATED + stateCount d.calls .RINGING : ℤ)
    = snapshot.calls_ringing
  calls_connected : (stateCount d.calls .CONNECTED : ℤ) = snapshot.calls_connected
  agents_sum : (d.agents.map Prod.snd).sum
    = db.agents.count fun _ a => a.campaign_id == d.campaign_id
  calls_sum : (d.calls.map Prod.snd).sum = db.calls.count fun _ c => c.campaign_id == d.campaign_id
  borrowers_sum : (d.borrowers.map Prod.snd).sum
    = db.borrowers.count fun _ b => b.campaign_id == d.campaign_id
  totals : d.completed = stateCount d.calls .COMPLETED ∧ d.failed = stateCount d.calls .FAILED ∧
    d.cancelled = stateCount d.calls .CANCELLED ∧ d.abandoned = stateCount d.calls .ABANDONED
  utilization : 0 ≤ d.utilization ∧ d.utilization ≤ 100
  events : ∀ e ∈ d.events, db.provider_events.get? e.1 = some e.2 ∧ e.2.applied = true ∧
    ∃ k c, e.2.call_id = some k ∧ db.calls.get? k = some c ∧ c.campaign_id = d.campaign_id ∧
      e.2.IsOf c ∧ (e.2.anomaly = none → ∃ t, e.2.incoming = some t ∧ c.Reached t)

/-! ### Counts -/

section

variable {κ ρ : Type} [DecidableEq κ]

/-- A listed state is counted over the rows of the campaign. -/
private theorem stateCount_table (t : Table ρ) (p : ρ → Bool) (state : ρ → κ) {states : List κ}
    {s : κ} (hs : s ∈ states) :
    stateCount (stateCounts (countByState ((t.select fun _ r => p r).map fun e => state e.2))
        states) s
      = t.count fun _ r => p r && state r == s := by
  rw [stateCounts_countByState, stateCount, lookup_map_self, if_pos hs, Option.getD_some,
    List.count_eq_countP, List.countP_map]
  exact Table.countP_select t (fun _ r => p r) fun _ r => state r == s

/-- The counts of all states add up to the rows of the campaign, since every row is in one of
    them. -/
private theorem sum_stateCounts (t : Table ρ) (p : ρ → Bool) (state : ρ → κ) {states : List κ}
    (hnd : states.Nodup) (hall : ∀ s, s ∈ states) :
    ((stateCounts (countByState ((t.select fun _ r => p r).map fun e => state e.2)) states).map
      Prod.snd).sum = t.count fun _ r => p r := by
  rw [stateCounts_countByState, List.map_map]
  refine (sum_count hnd _ fun s _ => hall s).trans ?_
  rw [List.length_map, Table.select, Table.count, List.countP_eq_length_filter]

end

/-- The staff is the sum over the states. -/
private theorem sum_agents {agents rows : List (AgentState × ℕ)}
    (h : agents = stateCounts rows AGENT_STATES) :
    (agents.map Prod.snd).sum = stateCount agents .AVAILABLE + stateCount agents .RESERVED
      + stateCount agents .DIALING + stateCount agents .CONNECTED + stateCount agents .WRAP_UP
      + stateCount agents .PAUSED + stateCount agents .OFFLINE := by
  rw [h]
  simp only [stateCount, stateCounts, lookup_map_self (fun s => (rows.lookup s).getD 0)]
  simp only [AGENT_STATES, List.mem_cons, reduceCtorEq, List.map_cons, List.map_nil, List.sum_cons,
    List.sum_nil, or_true, true_or, false_or, if_true, Option.getD_some]
  omega

/-- A share of the staff, in percent. -/
private theorem liveUtilization_bounds {agents rows : List (AgentState × ℕ)}
    (h : agents = stateCounts rows AGENT_STATES) :
    0 ≤ liveUtilization .binary64 agents ∧ liveUtilization .binary64 agents ≤ 100 := by
  have hsum := sum_agents h
  unfold liveUtilization
  simp only
  split
  · rename_i hne
    generalize hb : (((agents.map Prod.snd).sum : ℕ) : ℤ) - stateCount agents .AVAILABLE
      - stateCount agents .OFFLINE - stateCount agents .PAUSED = busy
    generalize hs : (((agents.map Prod.snd).sum : ℕ) : ℤ) - stateCount agents .OFFLINE = staffed
      at hne ⊢
    have hbusy : (0 : ℚ) ≤ busy := by
      have : 0 ≤ busy := by omega
      exact_mod_cast this
    have hstaffed : (0 : ℚ) < staffed := by
      have : 0 < staffed := by omega
      exact_mod_cast this
    have hle : (busy : ℚ) ≤ staffed := by
      have : busy ≤ staffed := by omega
      exact_mod_cast this
    have hshare := Rounding.binary64.nonneg (div_nonneg hbusy hstaffed.le)
    have hone := Rounding.binary64.le_one (div_le_one_of_le₀ hle hstaffed.le)
    constructor
    · exact Rounding.binary64.nonneg (mul_nonneg hshare (by norm_num))
    · have hmul := Rounding.binary64.mono
        (mul_le_mul_of_nonneg_right hone (by norm_num : (0 : ℚ) ≤ 100))
      have hround : Rounding.binary64 (1 * 100) = 100 := by decide +kernel
      exact hmul.trans hround.le
  · norm_num

/-! ### Runs -/

/-- The calls that ring are those in the two states that the dashboard lists apart. -/
private theorem count_isRinging (campaign_id : ℕ) (calls : Table CallRow) :
    (calls.count fun _ c => c.campaign_id == campaign_id && c.state.isRinging)
      = (calls.count fun _ c => c.campaign_id == campaign_id && c.state == .INITIATED)
        + calls.count fun _ c => c.campaign_id == campaign_id && c.state == .RINGING := by
  apply Table.count_add
  · intro k c _
    rw [CallState.isRinging, ← Bool.or_eq_true, ← Bool.and_or_distrib_left]
  · intro k c _ hs
    rw [Bool.and_eq_true, beq_iff_eq (a := c.state)] at hs
    rw [hs.2]
    exact Bool.and_false _

/-- An event is listed through its call, and an event with a call has been applied to it. -/
private theorem recentEvents_applied {db : Db} (h : db.view.Accounted) {campaign_id limit : ℕ}
    {e : ℕ × EventRow} (he : e ∈ recentEvents campaign_id limit db) :
    db.provider_events.get? e.1 = some e.2 ∧ e.2.applied = true ∧
      ∃ k c, e.2.call_id = some k ∧ db.calls.get? k = some c ∧ c.campaign_id = campaign_id ∧
        e.2.IsOf c ∧ (e.2.anomaly = none → ∃ t, e.2.incoming = some t ∧ c.Reached t) := by
  have hmem := (List.mem_insertionSort _).mp (List.mem_of_mem_take he)
  obtain ⟨hget, hany⟩ := Table.mem_select.mp hmem
  cases hbind : e.2.call_id.bind db.calls.get? with
  | none => rw [hbind] at hany; cases hany
  | some c =>
    rw [hbind, Option.any_some, beq_iff_eq] at hany
    obtain ⟨k, hk, hc⟩ := Option.bind_eq_some_iff.mp hbind
    obtain ⟨happlied, c', hc', hof, hreached⟩ := (h.marked e.1 e.2 hget).named hk
    obtain rfl := Option.some.inj (hc.symm.trans hc')
    exact ⟨hget, happlied, k, c, hk, hc, hany, hof, hreached⟩

/-- In every reachable state the page agrees with the snapshot that the pacing loop reads at that
    moment. -/
theorem truthful_run (cfg : Settings) (acts : List Act) (resolvedStats : ℕ → Db → Stats)
    (campaign_id recent_decisions recent_events : ℕ) (clock_now : Time)
    (pacing_decisions : Table DecisionRow) :
    let db := (run (step cfg) Sys.init acts).db
    (campaignSnapshot .binary64 campaign_id recent_decisions recent_events pacing_decisions
      db).Truthful (MetricsRepo.snapshot resolvedStats campaign_id clock_now true db) db := by
  intro db
  -- the pacing loop reads what it would count
  have hfast : (MetricsRepo.snapshot resolvedStats campaign_id clock_now true db).toMetricsSnapshot
      = MetricsRepo.snapshotNaive resolvedStats campaign_id clock_now db :=
    snapshots_agree resolvedStats campaign_id clock_now cfg acts
  generalize hd : campaignSnapshot .binary64 campaign_id recent_decisions recent_events
    pacing_decisions db = d
  have hagent : ∀ s : AgentState, s ∈ AGENT_STATES → stateCount d.agents s
      = MetricsRepo.countOf (MetricsRepo.agentCountsNaive campaign_id db) s := by
    intro s hs
    rw [MetricsRepo.countOf_agentCountsNaive, ← hd]
    exact stateCount_table db.agents (fun a => a.campaign_id == campaign_id) (fun a => a.state) hs
  have hcall : ∀ s : CallState, s ∈ CALL_STATES → stateCount d.calls s
      = db.calls.count fun _ c => c.campaign_id == campaign_id && c.state == s := by
    intro s hs
    rw [← hd]
    exact stateCount_table db.calls (fun c => c.campaign_id == campaign_id) (fun c => c.state) hs
  have hselect : ∀ q : CallState → Bool,
      ((db.calls.select fun _ c => c.campaign_id == campaign_id).countP fun e => q e.2.state)
        = db.calls.count fun _ c => c.campaign_id == campaign_id && q c.state := fun q =>
    Table.countP_select db.calls (fun _ c => c.campaign_id == campaign_id) fun _ c => q c.state
  have hsum : (d.agents.map Prod.snd).sum
      = db.agents.count fun _ a => a.campaign_id == d.campaign_id := by
    rw [← hd]
    exact sum_stateCounts db.agents (fun a => a.campaign_id == campaign_id) (fun a => a.state)
      (by decide) (by intro s; cases s <;> decide)
  refine
    { available := ?_, reserved := ?_, dialing := ?_, connected := ?_, wrapup := ?_,
      ringing := ?_, calls_connected := ?_, agents_sum := hsum, calls_sum := ?_,
      borrowers_sum := ?_, totals := ?_, utilization := ?_, events := ?_ }
  · rw [hfast]; exact congrArg Nat.cast (hagent .AVAILABLE (by decide))
  · rw [hfast]; exact congrArg Nat.cast (hagent .RESERVED (by decide))
  · rw [hfast]; exact congrArg Nat.cast (hagent .DIALING (by decide))
  · rw [hfast]; exact congrArg Nat.cast (hagent .CONNECTED (by decide))
  · rw [hfast]; exact congrArg Nat.cast (hagent .WRAP_UP (by decide))
  · rw [hfast, ← Nat.cast_add, hcall _ (by decide), hcall _ (by decide), ← count_isRinging]
    exact congrArg Nat.cast (hselect CallState.isRinging).symm
  · rw [hfast, hcall _ (by decide)]
    exact congrArg Nat.cast (hselect (· == .CONNECTED)).symm
  · rw [← hd]
    exact sum_stateCounts db.calls (fun c => c.campaign_id == campaign_id) (fun c => c.state)
      (by decide) (by intro s; cases s <;> decide)
  · rw [← hd]
    exact sum_stateCounts db.borrowers (fun b => b.campaign_id == campaign_id) (fun b => b.state)
      (by decide) (by intro s; cases s <;> decide)
  · rw [hcall _ (by decide), hcall _ (by decide), hcall _ (by decide), hcall _ (by decide), ← hd]
    exact ⟨hselect (· == .COMPLETED), hselect (· == .FAILED), hselect (· == .CANCELLED),
      hselect (· == .ABANDONED)⟩
  · rw [← hd]
    have hbounds : 0 ≤ liveUtilization .binary64 _ ∧ liveUtilization .binary64 _ ≤ 100 :=
      liveUtilization_bounds (Eq.refl (campaignSnapshot .binary64 campaign_id recent_decisions
        recent_events pacing_decisions db).agents)
    constructor
    · exact Rounding.binary64.digits_nonneg 1 hbounds.1
    · calc _ ≤ Rounding.binary64.digits 1 ((100 : ℤ) : ℚ) :=
            Rounding.binary64.digits_mono 1 (by exact_mod_cast hbounds.2)
        _ = 100 := by rw [Rounding.digits_intCast]; decide +kernel
  · intro e he
    rw [← hd] at he ⊢
    exact recentEvents_applied (accounted_run cfg acts).accounted he

/-- **Dashboard.** In every state reached the dashboard agrees with the snapshot of a tick, its
    counts add up to the rows of the campaign, and the events that it lists have been applied to
    calls of the campaign. -/
theorem dashboard_truthful (cfg : Settings) (acts : List Act) (resolvedStats : ℕ → Db → Stats)
    (campaign_id recent_decisions recent_events : ℕ) (clock_now : Time)
    (pacing_decisions : Table DecisionRow) :
    let db := (run (step cfg) Sys.init acts).db
    (campaignSnapshot .binary64 campaign_id recent_decisions recent_events pacing_decisions
      db).Truthful (MetricsRepo.snapshot resolvedStats campaign_id clock_now true db) db :=
  truthful_run cfg acts resolvedStats campaign_id recent_decisions recent_events clock_now
    pacing_decisions

/-! ### Utilization -/

/-- A share of a larger staff is no larger, and is the same only if the staff is. -/
private theorem share_le {busy total paused : ℚ} (hb : 0 ≤ busy) (ht : 0 < total)
    (hp : 0 ≤ paused) : busy / (total + paused) ≤ busy / total :=
  div_le_div_of_nonneg_left hb ht (le_add_of_nonneg_right hp)

/-- The two shares are the same when nobody is paused, and when nobody is busy. -/
private theorem share_eq_iff {busy total paused : ℚ} (ht : 0 < total) (hp : 0 ≤ paused) :
    busy / (total + paused) = busy / total ↔ paused = 0 ∨ busy = 0 := by
  have hne : total + paused ≠ 0 := by linarith
  rw [div_eq_div_iff hne ht.ne']
  constructor
  · intro h
    have hmul : paused * busy = 0 := by linarith
    exact mul_eq_zero.mp hmul
  · rintro (rfl | rfl) <;> ring

/-- The two figures over the same busy agents: a staff with those who have paused, in percent, and
    one without. -/
private theorem shares_compare {available busy paused : ℤ} (ha : 0 ≤ available) (hb : 0 ≤ busy)
    (hp : 0 ≤ paused) (live sim : Rounding → ℚ)
    (hlive : ∀ fl : Rounding, live fl = if available + busy + paused ≠ 0
      then fl (fl (busy / (available + busy + paused : ℤ)) * 100) else 0)
    (hsim : ∀ fl : Rounding, sim fl = if available + busy ≠ 0
      then fl (busy / (available + busy : ℤ)) else 0) :
    (∀ fl : Rounding, live fl ≤ fl (sim fl * 100)) ∧
      (live .exact = sim .exact * 100 ↔ paused = 0 ∨ busy = 0) := by
  rcases eq_or_ne (available + busy) 0 with hnone | hsome
  · -- nobody is there but those who have paused
    obtain rfl : busy = 0 := by omega
    have hzero : ∀ fl : Rounding, live fl = 0 ∧ sim fl = 0 := by
      intro fl
      rw [hlive, hsim, if_neg (not_not.mpr hnone)]
      simp [fl.zero]
    refine ⟨fun fl => ?_, iff_of_true ?_ (Or.inr rfl)⟩
    · rw [(hzero fl).1, (hzero fl).2, zero_mul, fl.zero]
    · rw [(hzero .exact).1, (hzero .exact).2, zero_mul]
  · have htotal : (0 : ℚ) < (available + busy : ℤ) := by
      have : 0 < available + busy := by omega
      exact_mod_cast this
    have hb : (0 : ℚ) ≤ busy := by exact_mod_cast hb
    have hq : (0 : ℚ) ≤ paused := by exact_mod_cast hp
    have hne : available + busy + paused ≠ 0 := by omega
    constructor
    · intro fl
      rw [hlive, hsim, if_pos hne, if_pos hsome]
      apply fl.mono
      apply mul_le_mul_of_nonneg_right _ (by norm_num)
      apply fl.mono
      rw [Int.cast_add (available + busy)]
      exact share_le hb htotal hq
    · rw [hlive, hsim, if_pos hne, if_pos hsome]
      show (busy / ((available + busy + paused : ℤ) : ℚ)) * 100 = busy / _ * 100 ↔ _
      rw [mul_left_inj' (by norm_num), Int.cast_add (available + busy), share_eq_iff htotal hq]
      norm_cast

/-- The agents that the report counts as busy. -/
def Snapshot.busy (s : Snapshot) : ℤ :=
  s.agents_reserved + s.agents_dialing + s.agents_connected + s.agents_wrapup

/-- The report's figure over the agents that it counts. -/
private theorem simUtilization_eq (fl : Rounding) (s : Snapshot) :
    simUtilization fl s = if s.agents_available + s.busy ≠ 0
      then fl (s.busy / (s.agents_available + s.busy : ℤ)) else 0 := by
  have htotal : s.agents_available + s.agents_reserved + s.agents_dialing + s.agents_connected
      + s.agents_wrapup = s.agents_available + s.busy := by
    unfold Snapshot.busy
    ring
  unfold simUtilization
  simp only [htotal, add_sub_cancel_left]

/-- The dashboard's figure over the same agents and those who have paused. -/
private theorem LiveSnapshot.Truthful.liveUtilization_eq {d : LiveSnapshot} {snapshot : Snapshot}
    {db : Db} (h : d.Truthful snapshot db) {rows : List (AgentState × ℕ)}
    (hagents : d.agents = stateCounts rows AGENT_STATES) (fl : Rounding) :
    liveUtilization fl d.agents
      = if snapshot.agents_available + snapshot.busy + stateCount d.agents .PAUSED ≠ 0
        then fl (fl (snapshot.busy / (snapshot.agents_available + snapshot.busy
          + stateCount d.agents .PAUSED : ℤ)) * 100) else 0 := by
  have hsum := sum_agents hagents
  have hstaffed : (((d.agents.map Prod.snd).sum : ℕ) : ℤ) - stateCount d.agents .OFFLINE
      = snapshot.agents_available + snapshot.busy + stateCount d.agents .PAUSED := by
    unfold Snapshot.busy
    rw [← h.available, ← h.reserved, ← h.dialing, ← h.connected, ← h.wrapup]
    omega
  have hshare : (((d.agents.map Prod.snd).sum : ℕ) : ℤ) - stateCount d.agents .AVAILABLE
      - stateCount d.agents .OFFLINE - stateCount d.agents .PAUSED = snapshot.busy := by
    rw [h.available]
    omega
  unfold liveUtilization
  simp only [hstaffed, hshare]

/-- **Utilization.** The dashboard counts agents that have paused among the staff and the report
    does not.  So before it is cut to digits its figure is never above the one of the report, and
    apart from rounding the two agree exactly if nobody has paused or nobody is busy.  The figures
    that are written down, with one digit and (as a fraction) with four, are off by half of the last
    digit each. -/
theorem utilization_agrees_iff (cfg : Settings) (acts : List Act) (resolvedStats : ℕ → Db → Stats)
    (campaign_id recent_decisions recent_events : ℕ) (clock_now : Time)
    (pacing_decisions : Table DecisionRow) (tick_i : ℕ) (sim_time : ℚ)
    (decision : SafetyDecision) :
    let db := (run (step cfg) Sys.init acts).db
    let d := campaignSnapshot .binary64 campaign_id recent_decisions recent_events
      pacing_decisions db
    let snapshot := MetricsRepo.snapshot resolvedStats campaign_id clock_now true db
    (∀ fl : Rounding, liveUtilization fl d.agents ≤ fl (simUtilization fl snapshot * 100)) ∧
      (liveUtilization .exact d.agents = simUtilization .exact snapshot * 100 ↔
        stateCount d.agents .PAUSED = 0 ∨ snapshot.busy = 0) ∧
      (campaignSnapshot .exact campaign_id recent_decisions recent_events pacing_decisions
          db).utilization
        ≤ (simRow .exact db campaign_id tick_i sim_time snapshot decision).utilization * 100
          + 11 / 200 := by
  intro db d snapshot
  have h : d.Truthful snapshot db := truthful_run cfg acts resolvedStats campaign_id
    recent_decisions recent_events clock_now pacing_decisions
  have hbusy : 0 ≤ snapshot.busy := by
    unfold Snapshot.busy
    rw [← h.reserved, ← h.dialing, ← h.connected, ← h.wrapup]
    omega
  have havailable : 0 ≤ snapshot.agents_available := by
    rw [← h.available]
    omega
  -- both divide the same agents, by staffs that differ in those who have paused
  obtain ⟨hle, hiff⟩ := shares_compare havailable hbusy (Int.natCast_nonneg _)
    (fun fl => liveUtilization fl d.agents) (fun fl => simUtilization fl snapshot)
    (h.liveUtilization_eq (Eq.refl d.agents)) fun fl => simUtilization_eq fl snapshot
  refine ⟨hle, by rw [← Int.natCast_eq_zero]; exact hiff, ?_⟩
  -- the digits are cut from figures that compare without rounding
  have hexact : liveUtilization .exact d.agents ≤ simUtilization .exact snapshot * 100 := hle .exact
  have hone := (abs_le.mp (Rounding.exact_digits 1 (liveUtilization .exact d.agents))).2
  have hfour := (abs_le.mp (Rounding.exact_digits 4 (simUtilization .exact snapshot))).1
  show Rounding.exact.digits 1 (liveUtilization .exact d.agents)
    ≤ Rounding.exact.digits 4 (simUtilization .exact snapshot) * 100 + 11 / 200
  linarith

end SmartDialer
