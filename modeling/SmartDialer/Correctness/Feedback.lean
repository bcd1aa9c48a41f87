import SmartDialer.Correctness.AnswerRate

namespace SmartDialer

open Relational MetricsRepo

/-!
# The pullback and the answer rate

A call that the pullback cancels has been initiated and has ended, so `RECENT_RESOLVED` selects it,
as a call that nobody answered.  Each cancelled call therefore lowers the rate that the next
request is made with, although nobody has had the time to answer it.

* `pullback_counts` — one candidate.
* `pullbacks_counts` — a sweep; it leaves the counts alone exactly if it cancels nothing.
* `pullback_rates_iff` — the rates after a sweep.
-/

/-- The transactions of a pullback for some candidates. -/
def pullbacks (sweep : List (Time × ℕ)) : List Act := sweep.map fun e => .pullback e.1 e.2

/-- Nobody has answered the calls that ring. -/
def Db.Unanswered (db : Db) : Prop :=
  ∀ k c, db.calls.get? k = some c → c.state.isRinging = true → ∃ ref, c.Unanswered c.provider ref

section

variable {cfg : Settings} {s : Sys} {campaign_id : ℕ}

/-- The calls after a pullback. -/
private theorem pullback_calls (cfg : Settings) (s : Sys) (now : Time) (k : ℕ) :
    (step cfg s (.pullback now k)).db.calls = s.db.calls.modify
      (fun i c => i == k && c.state.isRinging) (CallRepo.cancelledRow now "SAFETY_PULLBACK") :=
  cancelCandidate_calls now k s.db

/-- After a pullback the calls that still ring are still unanswered. -/
theorem pullback_unanswered (cfg : Settings) (h : s.db.Unanswered) (now : Time) (k : ℕ) :
    (step cfg s (.pullback now k)).db.Unanswered := by
  intro i c' hc' hs
  rw [pullback_calls] at hc'
  obtain ⟨c, hc, heq⟩ := Table.exists_of_get?_modify hc'
  split at heq
  · rw [heq] at hs
    cases hs
  · exact heq ▸ h i c hc (heq ▸ hs)

/-- **One candidate.** A call that is cancelled is resolved and not answered. -/
theorem pullback_counts (cfg : Settings) (campaign_id : ℕ) (h : s.db.Unanswered) (now : Time)
    (k : ℕ) :
    answeredCount campaign_id (step cfg s (.pullback now k)).db = answeredCount campaign_id s.db ∧
    (s.db.Rings campaign_id k → resolvedCount campaign_id (step cfg s (.pullback now k)).db =
      resolvedCount campaign_id s.db + 1) ∧
    (¬ s.db.Rings campaign_id k → resolvedCount campaign_id (step cfg s (.pullback now k)).db =
      resolvedCount campaign_id s.db) := by
  unfold answeredCount resolvedCount
  rw [pullback_calls]
  by_cases hring : ∃ c, s.db.calls.get? k = some c ∧ c.state.isRinging = true
  · obtain ⟨c, hc, hs⟩ := hring
    obtain ⟨ref, hun⟩ := h k c hc hs
    rw [Table.modify_key_of_pos _ hc hs]
    -- before the sweep the call is not in the window, after it it is, and unanswered
    have hopen : isResolved campaign_id c = false := by
      simp [isResolved, hun.terminal_at]
    have hrow : isResolved campaign_id (CallRepo.cancelledRow now "SAFETY_PULLBACK" c) =
        (c.campaign_id == campaign_id) := by
      simp [isResolved, CallRepo.cancelledRow, hun.initiated_at]
    have hans : (CallRepo.cancelledRow now "SAFETY_PULLBACK" c).answered_at.isSome = false := by
      simp [CallRepo.cancelledRow, hun.answered_at]
    have hres := Table.count_alter (CallRepo.cancelledRow now "SAFETY_PULLBACK")
      (isResolved campaign_id) hc
    have hanswered := Table.count_alter (CallRepo.cancelledRow now "SAFETY_PULLBACK")
      (fun d => isResolved campaign_id d && d.answered_at.isSome) hc
    simp only [hopen, hrow, hans, Bool.and_false, Bool.false_and, Bool.false_eq_true, if_false,
      beq_iff_eq, add_zero] at hres hanswered
    refine ⟨hanswered, ?_, fun hother => ?_⟩
    · rintro ⟨d, hd, hcamp, _⟩
      rw [hc, Option.some.injEq] at hd
      rw [hres, if_pos (hd ▸ hcamp)]
    · rw [hres, if_neg fun hcamp => hother ⟨c, hc, hcamp, hs⟩, add_zero]
  · -- the UPDATE matches no row
    have hnone : ∀ r, s.db.calls.get? k = some r → r.state.isRinging = false := by
      intro r hr
      exact Bool.eq_false_iff.mpr fun hs => hring ⟨r, hr, hs⟩
    rw [Table.modify_key_of_neg _ hnone]
    refine ⟨rfl, ?_, fun _ => rfl⟩
    rintro ⟨c, hc, _, hs⟩
    exact absurd ⟨c, hc, hs⟩ hring

/-- **A sweep.** By induction on the candidates. -/
theorem pullbacks_counts (cfg : Settings) (campaign_id : ℕ) (h : s.db.Unanswered)
    (sweep : List (Time × ℕ)) :
    let s' := run (step cfg) s (pullbacks sweep)
    answeredCount campaign_id s'.db = answeredCount campaign_id s.db ∧
      resolvedCount campaign_id s.db ≤ resolvedCount campaign_id s'.db ∧
      (resolvedCount campaign_id s'.db = resolvedCount campaign_id s.db ↔
        ∀ e ∈ sweep, ¬ s.db.Rings campaign_id e.2) := by
  induction sweep generalizing s with
  | nil => exact ⟨rfl, le_refl _, iff_of_true rfl fun e he => by cases he⟩
  | cons e sweep ih =>
    obtain ⟨now, k⟩ := e
    obtain ⟨hans, hhit, hmiss⟩ := pullback_counts cfg campaign_id h now k
    obtain ⟨hans', hle, hiff⟩ := ih (pullback_unanswered cfg h now k)
    have hrun : run (step cfg) s (pullbacks ((now, k) :: sweep)) =
        run (step cfg) (step cfg s (.pullback now k)) (pullbacks sweep) := rfl
    simp only [hrun, List.forall_mem_cons]
    by_cases hk : s.db.Rings campaign_id k
    · have hone := hhit hk
      exact ⟨hans'.trans hans, by omega, iff_of_false (by omega) fun hnone => hnone.1 hk⟩
    · have hsame := hmiss hk
      rw [hsame] at hle hiff
      refine ⟨hans'.trans hans, hle, hiff.trans ?_⟩
      -- a call that was not ringing stays outside for the rest of the sweep
      have hrings : ∀ i, (step cfg s (.pullback now k)).db.Rings campaign_id i ↔
          s.db.Rings campaign_id i := by
        intro i
        rw [show (step cfg s (.pullback now k)).db = (cancelCandidate now k).commit s.db from rfl,
          cancelCandidate_rings]
        exact and_iff_right_of_imp fun hi heq => hk (heq ▸ hi)
      simp only [hrings, hk, not_false_eq_true, true_and]

/-- The calls that ring in a run have not been answered. -/
theorem unanswered_run (cfg : Settings) (acts : List Act) :
    (run (step cfg) Sys.init acts).db.Unanswered := fun _ _ hc hs =>
  unanswered_of_run cfg acts hc hs

/-- After a sweep the answer rate and its upper bound are no lower than before exactly if no
    candidate is a ringing call of the campaign, so that the sweep cancels nothing there.  A
    cancelled call is resolved and unanswered, as far as the window can tell, so the dialer lowers
    its rates by its own cancellations. -/
theorem pullback_rates_iff (cfg : Settings) (acts : List Act) (campaign_id : ℕ)
    (sweep : List (Time × ℕ)) :
    let s := run (step cfg) Sys.init acts
    let s' := run (step cfg) s (pullbacks sweep)
    resolvedCount campaign_id s.db ≤ WINDOW → resolvedCount campaign_id s'.db ≤ WINDOW →
    ((resolvedStats campaign_id s.db).answer_rate_point ≤
        (resolvedStats campaign_id s'.db).answer_rate_point ∧
      (resolvedStats campaign_id s.db).answer_rate_ub ≤
        (resolvedStats campaign_id s'.db).answer_rate_ub ↔
      ∀ e ∈ sweep, ¬ s.db.Rings campaign_id e.2) := by
  intro s s' hwindow hwindow'
  obtain ⟨hans, hle, hiff⟩ := pullbacks_counts cfg campaign_id
    (unanswered_run cfg acts) sweep
  constructor
  · rintro ⟨_, hub⟩
    by_contra hcancels
    -- a cancelled call is one more resolved call without an answer
    have hlt := lt_of_le_of_ne hle fun heq => hcancels (hiff.mp heq.symm)
    exact absurd hub (not_le.mpr (answer_rate_ub_lt hans hlt hwindow'))
  · intro hnone
    have heq := hiff.mpr hnone
    obtain ⟨hpoint, _, hub, _⟩ := resolvedStats_rates hwindow
    obtain ⟨hpoint', _, hub', _⟩ := resolvedStats_rates hwindow'
    rw [hpoint, hpoint', hub, hub']
    exact ⟨by rw [hans, heq], by rw [hans, heq]⟩

end

/-- One call answered in full, and one that has just been dialed. -/
def answeredAndRinging : List Act :=
  dialedRun ++ [.ingest (secs 3) "mock" "e-1" (some "pc-1") "answered" (secs 3) "",
    .ingest (secs 5) "mock" "e-2" (some "pc-1") "completed" (secs 5) "", .fetch (secs 6) 1 200,
    .read (secs 6) 1, .read (secs 6) 1, .commit 1, .createAgent (secs 7) 7 "ext-2",
    .login (secs 7) 2, .seed (secs 7) 7 "+15550002" 100 3,
    .reserveAndCreate (secs 7) (secs 7) [] [] (some "mock") "w1" 7, .placeCall 2,
    .accepted (secs 8) (secs 8) 2 "pc-2"]

/-- A sweep whose candidate has ended before it leaves the rates alone. -/
theorem pullback_rates_iff_ended :
    let s := run (step .default) Sys.init answeredAndRinging
    (resolvedStats 7 s.db).answer_rate_ub ≤
      (resolvedStats 7 (run (step .default) s (pullbacks [(secs 9, 1)])).db).answer_rate_ub := by
  have hended : ¬ (run (step .default) Sys.init answeredAndRinging).db.Rings 7 1 := by
    have hrow : ((run (step .default) Sys.init answeredAndRinging).db.calls.get? 1).map
        (fun c => c.state.isRinging) = some false := by decide +kernel
    rintro ⟨c, hc, _, hring⟩
    rw [hc, Option.map_some, hring] at hrow
    cases hrow
  exact ((pullback_rates_iff .default answeredAndRinging 7 [(secs 9, 1)] (by decide +kernel)
    (by decide +kernel)).mpr fun e he => by rw [List.mem_singleton.mp he]; exact hended).2

/-- Cancelling the other call halves the answer rate, and lowers the upper bound. -/
theorem pullback_lowers_rates :
    let s := run (step .default) Sys.init answeredAndRinging
    let s' := run (step .default) s (pullbacks [(secs 9, 2)])
    (resolvedStats 7 s.db).answer_rate_point = 1 ∧
      (resolvedStats 7 s'.db).answer_rate_point = 1 / 2 ∧
      (resolvedStats 7 s'.db).answer_rate_ub < (resolvedStats 7 s.db).answer_rate_ub := by
  intro s s'
  -- 1 of 1 answered before the sweep, 1 of 2 after it
  have hcounts : resolvedCount 7 s.db = 1 ∧ answeredCount 7 s.db = 1 ∧
      resolvedCount 7 s'.db = 2 ∧ answeredCount 7 s'.db = 1 := by decide +kernel
  obtain ⟨hn, ha, hn', ha'⟩ := hcounts
  refine ⟨?_, ?_, answer_rate_ub_lt (ha'.trans ha.symm) (by omega) (by rw [hn']; decide)⟩
  · rw [(resolvedStats_rates (by rw [hn]; decide)).1, hn, ha]
    norm_num
  · rw [(resolvedStats_rates (by rw [hn']; decide)).1, hn', ha']
    norm_num

end SmartDialer
