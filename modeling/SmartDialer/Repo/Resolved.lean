import SmartDialer.Lib.Counting
import SmartDialer.Pacing.Estimators
import SmartDialer.Repo.Metrics

namespace SmartDialer

open Relational

/-!
# The statistics of `repo/metrics.py`

`RECENT_RESOLVED` reads the most recent calls of a campaign that have been dialed and have ended,
and `_resolved_stats` makes the statistics of a snapshot of them, here over the reals.  A call
counts as answered when it has an `answered_at`.

* `resolvedStats_rates` — the answer rates depend on two counts only, as long as the window holds
  all resolved calls.
* `answer_rate_ub_lt` — more resolved calls with the same answers lower the upper bound.
-/

/-- A row of `RECENT_RESOLVED`. -/
structure ResolvedRow where
  state : CallState
  answered : Bool
  setup_s : Option ℚ
  talk_s : Option ℚ
  deriving DecidableEq, Repr

/-- `EXTRACT(EPOCH FROM (later - earlier))`, null when one of them is. -/
def epochBetween (later earlier : Option Time) : Option ℚ :=
  match later, earlier with
  | some t, some u => some ((t - u : ℤ) / 1000000)
  | _, _ => none

/-- What `RECENT_RESOLVED` reads of a call. -/
def CallRow.resolvedRow (c : CallRow) : ResolvedRow where
  state := c.state
  answered := c.answered_at.isSome
  setup_s := epochBetween c.answered_at c.initiated_at
  talk_s := epochBetween c.terminal_at c.connected_at

/-- The calls `RECENT_RESOLVED` selects. -/
def isResolved (campaign_id : ℕ) (c : CallRow) : Bool :=
  c.campaign_id == campaign_id && c.terminal_at.isSome && c.initiated_at.isSome

/-- The statistics of a `MetricsSnapshot`, over the reals. -/
structure ResolvedStats where
  answer_rate_point : ℝ
  answer_rate_lb : ℝ
  answer_rate_ub : ℝ
  answer_samples : ℕ
  avg_setup_s : ℝ
  avg_talk_s : ℝ
  abandon_rate_5m : ℝ

/-- The statistics about answers agree. -/
structure ResolvedStats.SameRates (s t : ResolvedStats) : Prop where
  point : s.answer_rate_point = t.answer_rate_point
  lb : s.answer_rate_lb = t.answer_rate_lb
  ub : s.answer_rate_ub = t.answer_rate_ub
  samples : s.answer_samples = t.answer_samples

namespace MetricsRepo

/-- The `z` of a one-sided 90 per cent interval, as the source writes it. -/
noncomputable def WILSON_Z : ℝ := 12816 / 10000

/-- How many resolved calls the estimates look back on. -/
def WINDOW : ℕ := 300

/-- `RECENT_RESOLVED`. -/
def recentResolved (campaign_id limit : ℕ) (db : Db) : List ResolvedRow :=
  let rows := (db.calls.select fun _ c => isResolved campaign_id c).insertionSort
    fun x y => y.1 ≤ x.1
  (rows.take limit).map fun e => e.2.resolvedRow

/-- A quotient of two counts, zero without a denominator. -/
noncomputable def ratio (m n : ℕ) : ℝ := if n = 0 then 0 else m / n

/-- A mean, or the default without values. -/
noncomputable def meanOr (default : ℝ) (xs : List ℚ) : ℝ :=
  if xs = [] then default else (xs.map fun q => (q : ℝ)).sum / xs.length

/-- The statistics of some rows. -/
noncomputable def statsOf (rows : List ResolvedRow) : ResolvedStats :=
  let n := rows.length
  let answered := rows.countP (·.answered)
  let point := ratio answered n
  let bounds := wilsonBounds point n WILSON_Z
  let abandoned := rows.countP fun r => r.state == .ABANDONED
  let completed := rows.countP fun r => r.state == .COMPLETED
  { answer_rate_point := point
    answer_rate_lb := bounds.1
    answer_rate_ub := bounds.2
    answer_samples := n
    avg_setup_s := meanOr 3 (rows.filterMap (·.setup_s))
    avg_talk_s := meanOr 90 (rows.filterMap (·.talk_s))
    abandon_rate_5m := ratio abandoned (abandoned + completed) }

/-- `_resolved_stats`. -/
noncomputable def resolvedStats (campaign_id : ℕ) (db : Db) : ResolvedStats :=
  statsOf (recentResolved campaign_id WINDOW db)

/-! ### Counts -/

/-- The resolved calls of a campaign. -/
def resolvedCount (campaign_id : ℕ) (db : Db) : ℕ :=
  db.calls.count fun _ c => isResolved campaign_id c

/-- The resolved calls that count as answered. -/
def answeredCount (campaign_id : ℕ) (db : Db) : ℕ :=
  db.calls.count fun _ c => isResolved campaign_id c && c.answered_at.isSome

/-- Answered calls are among the resolved ones. -/
theorem answeredCount_le (campaign_id : ℕ) (db : Db) :
    answeredCount campaign_id db ≤ resolvedCount campaign_id db := by
  apply List.countP_mono_left
  intro e _ h
  exact (Bool.and_eq_true_iff.mp h).1

/-- Within the window nothing is cut off. -/
theorem recentResolved_counts {campaign_id limit : ℕ} {db : Db}
    (h : resolvedCount campaign_id db ≤ limit) :
    (recentResolved campaign_id limit db).length = resolvedCount campaign_id db ∧
    (recentResolved campaign_id limit db).countP (·.answered) = answeredCount campaign_id db := by
  have hperm := List.perm_insertionSort (fun x y : ℕ × CallRow => y.1 ≤ x.1)
    (db.calls.select fun _ c => isResolved campaign_id c)
  have hlen : (db.calls.select fun _ c => isResolved campaign_id c).length
      = resolvedCount campaign_id db := (List.countP_eq_length_filter ..).symm
  simp only [recentResolved]
  -- the limit cuts nothing off, and counts do not depend on the order
  rw [List.take_of_length_le (by rw [hperm.length_eq, hlen]; exact h)]
  constructor
  · rw [List.length_map, hperm.length_eq, hlen]
  · rw [List.countP_map, hperm.countP_eq]
    exact Table.countP_select db.calls _ fun _ c => c.answered_at.isSome

/-- What `RECENT_RESOLVED` has to know of a call to tell the answer rate. -/
def resolvedAnswered (campaign_id : ℕ) (c : CallRow) : Bool × Bool :=
  (isResolved campaign_id c, c.answered_at.isSome)

/-- The answers among the recent calls, read off that. -/
theorem recentResolved_answered (campaign_id limit : ℕ) (db : Db) :
    (recentResolved campaign_id limit db).map (·.answered) =
      (((((db.calls.map fun _ => resolvedAnswered campaign_id).select fun _ f => f.1).insertionSort
        fun x y => y.1 ≤ x.1).take limit).map fun e => e.2.2) := by
  have hsel : (db.calls.map fun _ => resolvedAnswered campaign_id).select (fun _ f => f.1) =
      (db.calls.select fun _ c => isResolved campaign_id c).map fun e =>
        (e.1, resolvedAnswered campaign_id e.2) := List.filter_map
  -- the sort looks at the keys only, which the projection keeps
  have hsort := List.map_insertionSort (r := fun x y : ℕ × CallRow => y.1 ≤ x.1)
    (s := fun x y : ℕ × (Bool × Bool) => y.1 ≤ x.1)
    (fun e => (e.1, resolvedAnswered campaign_id e.2))
    (db.calls.select fun _ c => isResolved campaign_id c) fun _ _ _ _ => Iff.rfl
  simp only [recentResolved]
  rw [hsel, ← hsort, ← List.map_take, List.map_map, List.map_map]
  rfl

/-- The rates depend on the answers of the window and on their order, and on nothing else of the
    calls. -/
theorem sameRates_of_map {campaign_id : ℕ} {db db' : Db}
    (h : (db.calls.map fun _ => resolvedAnswered campaign_id) =
      db'.calls.map fun _ => resolvedAnswered campaign_id) :
    (resolvedStats campaign_id db).SameRates (resolvedStats campaign_id db') := by
  have hans : (recentResolved campaign_id WINDOW db).map (·.answered) =
      (recentResolved campaign_id WINDOW db').map (·.answered) := by
    rw [recentResolved_answered, recentResolved_answered, h]
  have hlen : (recentResolved campaign_id WINDOW db).length =
      (recentResolved campaign_id WINDOW db').length := by
    simpa using congrArg List.length hans
  have hcount : (recentResolved campaign_id WINDOW db).countP (·.answered) =
      (recentResolved campaign_id WINDOW db').countP (·.answered) := by
    have := congrArg (List.countP id) hans
    rwa [List.countP_map, List.countP_map] at this
  constructor <;> simp only [resolvedStats, statsOf, hlen, hcount]

/-- A ratio of counts is the quotient, also for an empty window. -/
theorem ratio_eq (m n : ℕ) : ratio m n = m / n := by
  unfold ratio
  split
  · rename_i h
    rw [h, Nat.cast_zero, div_zero]
  · rfl

/-- The statistics that are made of the two counts. -/
theorem resolvedStats_rates {campaign_id : ℕ} {db : Db}
    (h : resolvedCount campaign_id db ≤ WINDOW) :
    let n := resolvedCount campaign_id db
    let point : ℝ := answeredCount campaign_id db / n
    (resolvedStats campaign_id db).answer_rate_point = point ∧
      (resolvedStats campaign_id db).answer_rate_lb = (wilsonBounds point n WILSON_Z).1 ∧
      (resolvedStats campaign_id db).answer_rate_ub = (wilsonBounds point n WILSON_Z).2 ∧
      (resolvedStats campaign_id db).answer_samples = n := by
  obtain ⟨hlen, hcount⟩ := recentResolved_counts h
  simp only [resolvedStats, statsOf, hlen, hcount, ratio_eq]
  exact ⟨trivial, trivial, trivial, trivial⟩

/-- The `z` is positive, so the interval is a proper one. -/
theorem WILSON_Z_pos : 0 < WILSON_Z := by
  unfold WILSON_Z
  norm_num

/-- More resolved calls with no more answers lower the upper end of the interval. -/
theorem answer_rate_ub_lt {campaign_id : ℕ} {db db' : Db}
    (hans : answeredCount campaign_id db' = answeredCount campaign_id db)
    (hres : resolvedCount campaign_id db < resolvedCount campaign_id db')
    (h' : resolvedCount campaign_id db' ≤ WINDOW) :
    (resolvedStats campaign_id db').answer_rate_ub <
      (resolvedStats campaign_id db).answer_rate_ub := by
  rw [(resolvedStats_rates (hres.le.trans h')).2.2.1, (resolvedStats_rates h').2.2.1, hans]
  exact wilsonBounds_snd_lt (answeredCount_le campaign_id db) hres WILSON_Z_pos

end MetricsRepo

end SmartDialer
