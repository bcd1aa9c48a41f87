import SmartDialer.Lib.Run
import SmartDialer.Lib.Window
import SmartDialer.Providers.Breaker

namespace SmartDialer

open Numeric Relational

/-!
# When a breaker trips

The definition that the breaker implements speaks of all results since it last closed; the breaker
itself keeps a deque that it trims when a result is recorded, in every state, and clears when it
closes.  `Watched` runs a breaker next to the full log of those results.

* `Watched.Inv` — the deque is the end of the log, and what is missing has left the window.
* `record_open_iff` — a recorded result trips a closed breaker by the definition.
* `half_open_between` — an open breaker is half-open before it is closed.
-/

namespace CircuitBreaker

/-- What a worker calls on a breaker. -/
inductive Call where
  | record (ok : Bool) | allow
  deriving DecidableEq, Repr

/-- A call at a time. -/
def call (fl : Rounding) (b : CircuitBreaker) (c : ℚ × Call) : CircuitBreaker :=
  match c.2 with
  | .record ok => b.record fl c.1 ok
  | .allow => (b.allow fl c.1).2

/-- The result that a call records. -/
def recorded (c : ℚ × Call) : List (ℚ × Bool) :=
  match c.2 with
  | .record ok => [(c.1, ok)]
  | .allow => []

/-- A breaker and the results recorded since it last closed. -/
structure Watched where
  breaker : CircuitBreaker
  results : List (ℚ × Bool)

/-- The log after a call that left `b`: closing starts a new one. -/
def Watched.log (w : Watched) (b : CircuitBreaker) (new : List (ℚ × Bool)) : List (ℚ × Bool) :=
  if w.breaker.state ≠ .closed ∧ b.state = .closed then [] else w.results ++ new

/-- A call of the breaker, with the log kept beside it. -/
def Watched.call (w : Watched) (c : ℚ × Call) : Watched :=
  let b := w.breaker.call .exact c
  ⟨b, w.log b (recorded c)⟩

/-- The results of at most `window_s` ago are enough, and too many of them are failures. -/
def Breached (window_s threshold : ℚ) (min_calls : ℤ) (now : ℚ) (results : List (ℚ × Bool)) :
    Prop :=
  let recent := results.filter fun e => decide (now - e.1 ≤ window_s)
  recent ≠ [] ∧ recent.length ≥ min_calls ∧
    (recent.countP fun e => !e.2 : ℚ) / recent.length ≥ threshold

/-- A result that has left the window of the breaker. -/
def expired (window_s now : ℚ) (e : ℚ × Bool) : Bool := decide (now - e.1 > window_s)

/-- A result that has left the window does not come back. -/
theorem expired_later {window_s t t' : ℚ} (h : t ≤ t') (e : ℚ × Bool)
    (he : expired window_s t e) : expired window_s t' e := by
  unfold expired at he ⊢
  rw [decide_eq_true_eq] at he ⊢
  exact lt_of_lt_of_le he (sub_le_sub_right h _)

/-- An older result has left the window whenever a younger one has. -/
theorem expired_older {window_s t : ℚ} {e f : ℚ × Bool} (h : e.1 ≤ f.1)
    (hf : expired window_s t f) : expired window_s t e := by
  unfold expired at hf ⊢
  rw [decide_eq_true_eq] at hf ⊢
  exact lt_of_lt_of_le hf (sub_le_sub_left h _)

/-! ### One call -/

/-- The breaker with the new result in its deque and the old ones out of it. -/
def taken (fl : Rounding) (now : ℚ) (ok : Bool) (b : CircuitBreaker) : CircuitBreaker :=
  trim fl now { b with events := b.events ++ [(now, ok)] }

/-- The test of a closed breaker on its deque. -/
def Tripped (fl : Rounding) (b : CircuitBreaker) : Prop :=
  b.events ≠ [] ∧ b.events.length ≥ b.min_calls ∧
    fl.divNat b.errors b.events.length ≥ b.threshold

/-- The test compares numbers. -/
instance (fl : Rounding) (b : CircuitBreaker) : Decidable (b.Tripped fl) :=
  inferInstanceAs (Decidable (_ ∧ _ ∧ _))

section

variable {fl : Rounding} {b : CircuitBreaker} {now : ℚ} {ok : Bool} {c : ℚ × Call}

/-- What the definition of a breach is about. -/
def params (b : CircuitBreaker) : ℚ × ℚ × ℤ := (b.window_s, b.threshold, b.min_calls)

/-- A closed breaker takes the result in and tests its window. -/
theorem record_of_closed (h : b.state = .closed) : b.record fl now ok =
    if (b.taken fl now ok).Tripped fl then (b.taken fl now ok).trip now else b.taken fl now ok := by
  obtain ⟨_, _, _, _, _, state, _, _, _⟩ := b
  obtain rfl : state = .closed := h
  rfl

/-- An open breaker takes the result in, and stays open whatever it is. -/
theorem record_of_open (h : b.state = .open) : b.record fl now ok = b.taken fl now ok := by
  obtain ⟨_, _, _, _, _, state, _, _, _⟩ := b
  obtain rfl : state = .open := h
  rfl

/-- A probe trips the breaker again, closes it, or is counted. -/
theorem record_of_half_open (h : b.state = .half_open) : b.record fl now ok =
    if ok = false then { b.taken fl now ok with probes := b.probes + 1 }.trip now
    else if b.probes + 1 ≥ b.half_open_probes then
      { b.taken fl now ok with probes := b.probes + 1, state := .closed, events := [] }
    else { b.taken fl now ok with probes := b.probes + 1 } := by
  obtain ⟨_, _, _, _, _, state, _, _, _⟩ := b
  obtain rfl : state = .half_open := h
  rfl

/-- Recording keeps the trimmed deque, except that it clears it when the breaker closes. -/
theorem record_events (fl : Rounding) (b : CircuitBreaker) (now : ℚ) (ok : Bool) :
    (b.record fl now ok).events =
    if b.state ≠ .closed ∧ (b.record fl now ok).state = .closed then []
    else (b.taken fl now ok).events := by
  have htaken : (b.taken fl now ok).state = b.state := rfl
  cases hs : b.state with
  | closed =>
    rw [if_neg (by simp), record_of_closed hs]
    split <;> rfl
  | «open» =>
    rw [record_of_open hs, htaken, hs]
    simp
  | half_open =>
    rw [record_of_half_open hs]
    split
    -- a failed probe keeps the deque, the last good one clears it
    · simp [trip]
    · split
      · simp
      · simp [htaken, hs]

/-- A result leaves the parameters alone. -/
theorem record_params : (b.record fl now ok).params = b.params := by
  cases hs : b.state with
  | closed =>
    rw [record_of_closed hs]
    split <;> rfl
  | «open» =>
    rw [record_of_open hs]
    rfl
  | half_open =>
    rw [record_of_half_open hs]
    split
    · rfl
    · split <;> rfl

/-- A question leaves the parameters alone. -/
theorem allow_params : (b.allow fl now).2.params = b.params := by
  unfold allow
  split
  · split <;> rfl
  · rfl
  · rfl

/-- A call leaves the parameters of the breaker. -/
theorem call_params : (b.call fl c).params = b.params := by
  unfold call
  split
  · exact record_params
  · exact allow_params

/-- Asking closes no breaker. -/
theorem allow_closed_iff : (b.allow fl now).2.state = .closed ↔ b.state = .closed := by
  unfold allow
  split
  · rename_i hs
    split <;> simp [hs]
  · rfl
  · rfl

/-- An open breaker is not closed by one call. -/
theorem call_ne_closed_of_open (h : b.state = .open) : (b.call fl c).state ≠ .closed := by
  unfold call
  cases c.2 with
  | record ok =>
    show (b.record fl c.1 ok).state ≠ .closed
    rw [record_of_open h]
    show b.state ≠ .closed
    rw [h]
    decide
  | allow =>
    show (b.allow fl c.1).2.state ≠ .closed
    rw [Ne, allow_closed_iff, h]
    decide

end

/-! ### The deque and the log -/

/-- The deque is the end of the log, and what is missing has left the window. -/
structure Watched.Inv (t : ℚ) (w : Watched) : Prop where
  window : Window (expired w.breaker.window_s) t w.results w.breaker.events
  sorted : w.results.Pairwise fun e f => e.1 ≤ f.1
  past : ∀ e ∈ w.results, e.1 ≤ t

/-- Time alone changes neither deque nor log. -/
theorem Watched.Inv.later {t t' : ℚ} {w : Watched} (h : w.Inv t) (hle : t ≤ t') : w.Inv t' where
  window := h.window.later fun e => expired_later hle e
  sorted := h.sorted
  past e he := (h.past e he).trans hle

/-- Without rounding the deque is trimmed to the results that have not expired. -/
theorem taken_events (b : CircuitBreaker) (now : ℚ) (ok : Bool) :
    (b.taken .exact now ok).events =
      (b.events ++ [(now, ok)]).dropWhile (expired b.window_s now) := rfl

/-- A new result keeps the log sorted. -/
theorem Watched.Inv.sorted_concat {t : ℚ} {w : Watched} (h : w.Inv t) (ok : Bool) :
    (w.results ++ [(t, ok)]).Pairwise fun e f => e.1 ≤ f.1 := by
  rw [List.pairwise_append]
  refine ⟨h.sorted, List.pairwise_singleton _ _, fun e he f hf => ?_⟩
  rw [List.mem_singleton.mp hf]
  exact h.past e he

/-- With the new result the deque holds the results in the window. -/
theorem Watched.Inv.taken_eq {t : ℚ} {w : Watched} (h : w.Inv t) (ok : Bool) :
    (w.breaker.taken .exact t ok).events =
      (w.results ++ [(t, ok)]).filter fun e => !expired w.breaker.window_s t e := by
  rw [taken_events]
  apply (h.window.append [(t, ok)]).dropWhile_eq_filter
  exact (h.sorted_concat ok).imp fun hle => expired_older hle

/-- Asking changes neither the deque nor the log. -/
theorem Watched.call_allow (w : Watched) (now : ℚ) :
    w.call (now, .allow) = ⟨(w.breaker.allow .exact now).2, w.results⟩ := by
  have hkeep : ¬ (w.breaker.state ≠ .closed ∧ (w.breaker.allow .exact now).2.state = .closed) := by
    rw [allow_closed_iff]
    exact fun h => h.1 h.2
  show (⟨(w.breaker.allow .exact now).2, w.log (w.breaker.allow .exact now).2 []⟩ : Watched) = _
  unfold Watched.log
  rw [if_neg hkeep, List.append_nil]

/-- A call that records, written out. -/
theorem Watched.call_record (w : Watched) (now : ℚ) (ok : Bool) :
    w.call (now, .record ok) = ⟨w.breaker.record .exact now ok,
      w.log (w.breaker.record .exact now ok) [(now, ok)]⟩ := rfl

/-- **Step.** A call keeps the deque the end of the log; the one that closes the breaker clears
    both. -/
theorem Watched.Inv.call {w : Watched} {c : ℚ × Call} (h : w.Inv c.1) : (w.call c).Inv c.1 := by
  obtain ⟨now, kind⟩ := c
  cases kind with
  | allow =>
    have hwindow : (w.breaker.allow .exact now).2.window_s = w.breaker.window_s :=
      congrArg Prod.fst allow_params
    rw [Watched.call_allow]
    refine ⟨?_, h.sorted, h.past⟩
    show Window (expired (w.breaker.allow .exact now).2.window_s) now w.results _
    rw [hwindow, allow_events]
    exact h.window
  | record ok =>
    have hwindow : (w.breaker.record .exact now ok).window_s = w.breaker.window_s :=
      congrArg Prod.fst record_params
    have hevents := record_events .exact w.breaker now ok
    rw [Watched.call_record, Watched.log]
    split
    · -- the deque and the log start again
      rename_i hclose
      rw [if_pos hclose] at hevents
      refine ⟨?_, List.Pairwise.nil, by simp⟩
      show Window _ now [] (w.breaker.record .exact now ok).events
      rw [hevents]
      exact Window.refl now []
    · -- both get the result, and the deque is trimmed
      rename_i hkeep
      rw [if_neg hkeep] at hevents
      refine ⟨?_, h.sorted_concat ok, fun e he => ?_⟩
      · show Window (expired (w.breaker.record .exact now ok).window_s) now
          (w.results ++ [(now, ok)]) (w.breaker.record .exact now ok).events
        rw [hwindow, hevents, taken_events]
        exact (h.window.append [(now, ok)]).dropWhile
      · rcases List.mem_append.mp he with he | he
        · exact h.past e he
        · rw [List.mem_singleton.mp he]

/-- The deque and the log after calls at times that do not go back. -/
theorem Watched.Inv.run {t now : ℚ} {w : Watched} {calls : List (ℚ × Call)} (h : w.Inv t)
    (htimes : (calls.map Prod.fst ++ [now]).Pairwise (· ≤ ·))
    (hfirst : ∀ u ∈ calls.map Prod.fst ++ [now], t ≤ u) :
    (run Watched.call w calls).Inv now := by
  induction calls generalizing t w with
  | nil => exact h.later (hfirst now (by simp))
  | cons c calls ih =>
    -- up to the time of the next call nothing happens but that results grow older
    obtain ⟨hhead, htail⟩ := List.pairwise_cons.mp htimes
    have hc := (h.later (hfirst c.1 (by simp))).call
    exact ih hc htail hhead

/-- The parameters are those of the start after any number of calls. -/
theorem Watched.run_params (w : Watched) (calls : List (ℚ × Call)) :
    (Relational.run Watched.call w calls).breaker.params = w.breaker.params := by
  apply invariant_run (I := fun w' : Watched => w'.breaker.params = w.breaker.params) _ rfl calls
  intro w' c h
  rw [← h]
  exact call_params

/-! ### The definition of a breach -/

/-- The test on a deque is the definition, when the deque holds the results in the window. -/
theorem tripped_iff {b : CircuitBreaker} {now : ℚ} {results : List (ℚ × Bool)}
    (h : b.events = results.filter fun e => !expired b.window_s now e) :
    b.Tripped .exact ↔ Breached b.window_s b.threshold b.min_calls now results := by
  have hfilter : (results.filter fun e => !expired b.window_s now e) =
      results.filter fun e => decide (now - e.1 ≤ b.window_s) := by
    apply List.filter_congr
    intro e _
    -- a result of exactly the age of the window has not expired
    unfold expired
    rw [← decide_not, decide_eq_decide]
    exact not_lt
  unfold Tripped Breached errors
  rw [h, hfilter]
  rfl

/-- After a result a closed breaker is open exactly if the test on its window says so. -/
theorem record_of_closed_state {b : CircuitBreaker} {now : ℚ} {ok : Bool} (h : b.state = .closed) :
    (b.record .exact now ok).state = if (b.taken .exact now ok).Tripped .exact then .open
      else .closed := by
  rw [record_of_closed h]
  split
  · rfl
  · exact h

/-- An open breaker is half-open before it is closed. -/
theorem half_open_between {w : Watched} {more : List (ℚ × Call)} (hopen : w.breaker.state = .open)
    (hclosed : (run Watched.call w more).breaker.state = .closed) :
    ∃ pre, pre <+: more ∧ (run Watched.call w pre).breaker.state = .half_open := by
  induction more generalizing w with
  | nil =>
    rw [run_nil, hopen] at hclosed
    cases hclosed
  | cons c more ih =>
    -- one call does not close it, so the first change of state is to half-open
    cases hs : (w.call c).breaker.state with
    | closed => exact absurd hs (call_ne_closed_of_open hopen)
    | half_open => exact ⟨[c], ⟨more, rfl⟩, hs⟩
    | «open» =>
      obtain ⟨pre, hpre, hhalf⟩ := ih hs hclosed
      exact ⟨c :: pre, List.cons_prefix_cons.mpr ⟨rfl, hpre⟩, hhalf⟩

/-- A recorded result trips a closed breaker exactly when the results since it last closed breach
    its budget; else the breaker stays closed.  No breaker goes from open to closed without having
    been half-open. -/
theorem record_open_iff (window_s threshold : ℚ) (min_calls : ℤ) (cooldown_s : ℚ)
    (half_open_probes : ℤ) (calls : List (ℚ × Call)) (now : ℚ) (ok : Bool)
    (htimes : (calls.map Prod.fst ++ [now]).Pairwise (· ≤ ·)) :
    let fresh := new window_s threshold min_calls cooldown_s half_open_probes
    let w := run Watched.call ⟨fresh, []⟩ calls
    (w.breaker.state = .closed →
      ((w.breaker.record .exact now ok).state = .open ↔
        Breached window_s threshold min_calls now (w.results ++ [(now, ok)])) ∧
      ((w.breaker.record .exact now ok).state ≠ .open →
        (w.breaker.record .exact now ok).state = .closed)) ∧
    ∀ more, w.breaker.state = .open → (run Watched.call w more).breaker.state = .closed →
      ∃ pre, pre <+: more ∧ (run Watched.call w pre).breaker.state = .half_open := by
  intro fresh w
  refine ⟨fun hclosed => ?_, fun more hopen => half_open_between hopen⟩
  have hfresh (t : ℚ) : Watched.Inv t ⟨fresh, []⟩ := by
    refine ⟨Window.refl t [], List.Pairwise.nil, by simp⟩
  have hinv : w.Inv now := by
    -- nothing is known of the times before the first call, and nothing is recorded
    rcases calls with _ | ⟨c, calls⟩
    · exact hfresh now
    · exact (hfresh c.1).run htimes fun u hu => by
        rcases List.mem_cons.mp hu with rfl | hu
        · exact le_rfl
        · exact (List.pairwise_cons.mp htimes).1 u hu
  have hparams : w.breaker.params = fresh.params := Watched.run_params _ calls
  obtain ⟨hw, ht, hm⟩ : w.breaker.window_s = window_s ∧ w.breaker.threshold = threshold ∧
      w.breaker.min_calls = min_calls := by simpa [params, fresh, new] using hparams
  have htrip := tripped_iff (hinv.taken_eq ok)
  rw [show (w.breaker.taken .exact now ok).window_s = window_s from hw,
    show (w.breaker.taken .exact now ok).threshold = threshold from ht,
    show (w.breaker.taken .exact now ok).min_calls = min_calls from hm] at htrip
  rw [record_of_closed_state hclosed, ← htrip]
  split
  · rename_i h
    simp [h]
  · rename_i h
    simp [h]

/-- Four failures at once, then one a second later. -/
def failures : List (ℚ × Call) := List.replicate 4 (0, .record false)

/-- Five failures in a second open the breaker. -/
theorem record_open_iff_failures :
    ((run Watched.call ⟨new 10 (1 / 4) 5 15 3, []⟩ failures).breaker.record .exact 1 false).state =
      .open := by
  have h := record_open_iff 10 (1 / 4) 5 15 3 failures 1 false (by decide)
  refine ((h.1 (by decide +kernel)).1).mpr ?_
  unfold Breached
  decide +kernel

end CircuitBreaker

end SmartDialer
