import SmartDialer.Lib.Neighbours
import SmartDialer.Lib.Run
import SmartDialer.Providers.MockA

namespace SmartDialer

open Relational

/-!
# The hold-and-pair buffer

Under each call the buffer works as if the call were alone: the events that have been sent, and the
ones about to be, are the first events emitted with some neighbours exchanged, then comes the one
that is held, and then the rest of the batch.

* `Delivering` — this, for one call; every step of any call keeps it.
* `resume_returns` — a running `_emit` or `_flush` comes to its end, however the draws fall.
* `delivered_eq_emitted` — so after its flush a call has had its events, none of another call, and
  each at most one place from where it was emitted.
-/

/-- What a running `_emit` or `_flush` has left to do: an event of a batch is at most one step to
    the pair and two to send it. -/
def CallTask.left (t : CallTask) : ℕ := 3 * t.batch.length + t.sending.length

/-- A coroutine is done exactly when nothing is left to do. -/
theorem CallTask.idle_iff {t : CallTask} : t.Idle ↔ t.left = 0 := by
  unfold Idle left
  rw [← List.length_eq_zero_iff, ← List.length_eq_zero_iff]
  omega

namespace MockProvider

/-- How far the events of a call are. -/
structure Delivering (m : MockProvider) (pcid : String) : Prop where
  order : ∃ first, Exchanged first (m.deliveredTo pcid ++ (m.tasks pcid).sending) ∧
    m.emittedFor pcid = first ++ (m.held pcid).toList ++ (m.tasks pcid).batch
  flushed : (m.tasks pcid).flushed = true → m.held pcid = none ∧ (m.tasks pcid).batch = []

/-- Nothing has been emitted, so nothing is owed. -/
theorem delivering_init (pcid : String) : init.Delivering pcid where
  order := ⟨[], .nil, rfl⟩
  flushed h := by cases h

/-! ### Steps -/

section

variable {m : MockProvider} {pcid other : String}

/-- A step of one call leaves all that another one is about. -/
theorem Delivering.frame {m' : MockProvider} (h : m.Delivering pcid)
    (hheld : m'.held pcid = m.held pcid) (htask : m'.tasks pcid = m.tasks pcid)
    (hdelivered : m'.deliveredTo pcid = m.deliveredTo pcid)
    (hemitted : m'.emittedFor pcid = m.emittedFor pcid) : m'.Delivering pcid where
  order := by rw [hheld, htask, hdelivered, hemitted]; exact h.order
  flushed := by rw [hheld, htask]; exact h.flushed

/-- `_emit` adds its batch to what is owed; nothing is sent yet. -/
theorem Delivering.emit (h : m.Delivering pcid) (hidle : (m.tasks pcid).Idle)
    (hopen : (m.tasks pcid).flushed = false) (e : Emission) : (m.emit pcid e).Delivering pcid := by
  obtain ⟨first, hex, hem⟩ := h.order
  have htask : (m.emit pcid e).tasks pcid = { m.tasks pcid with batch := e.batch } :=
    Function.update_self _ _ _
  have hemitted : (m.emit pcid e).emittedFor pcid = m.emittedFor pcid ++ e.batch := by
    show (under pcid (m.emissions ++ [(pcid, e)])).flatMap _ = _
    rw [under_concat_self, List.flatMap_append]
    simp [emittedFor]
  -- the last batch has been worked off, so the new one takes its place
  refine ⟨⟨first, ?_, ?_⟩, fun hf => ?_⟩
  · rw [htask]
    exact hex
  · rw [hemitted, htask, hem, hidle.1, List.append_nil]
    rfl
  · rw [htask] at hf
    exact absurd hf (by simp [hopen])

/-- `_flush` turns the held event into one that is about to be sent. -/
theorem Delivering.flush (h : m.Delivering pcid) (hidle : (m.tasks pcid).Idle) :
    (m.flush pcid).Delivering pcid := by
  obtain ⟨first, hex, hem⟩ := h.order
  have htask : (m.flush pcid).tasks pcid = ⟨[], (m.held pcid).toList, true⟩ :=
    Function.update_self _ _ _
  have hheld : (m.flush pcid).held pcid = none := Function.update_self _ _ _
  refine ⟨⟨first ++ (m.held pcid).toList, ?_, ?_⟩, fun _ => ⟨hheld, by rw [htask]⟩⟩
  · -- what was held goes out behind the rest
    rw [htask]
    rw [hidle.2, List.append_nil] at hex
    exact hex.append (.refl _)
  · have hemitted : (m.flush pcid).emittedFor pcid = m.emittedFor pcid := rfl
    rw [hemitted, htask, hheld, hem, hidle.1]
    simp

/-- An event is handed to the sink. -/
theorem Delivering.send (h : m.Delivering pcid) {batch sending : List ProviderEvent}
    {ev : ProviderEvent} {flushed : Bool} (ht : m.tasks pcid = ⟨batch, ev :: sending, flushed⟩) :
    Delivering { m.setTask pcid ⟨batch, sending, flushed⟩ with
      delivered := m.delivered ++ [(pcid, ev)] } pcid := by
  obtain ⟨first, hex, hem⟩ := h.order
  -- the event moves from those about to be sent to those delivered
  generalize hm' : ({ m.setTask pcid ⟨batch, sending, flushed⟩ with
    delivered := m.delivered ++ [(pcid, ev)] } : MockProvider) = m'
  have htask : m'.tasks pcid = ⟨batch, sending, flushed⟩ := by
    rw [← hm']
    exact Function.update_self _ _ _
  have hheld : m'.held pcid = m.held pcid := by rw [← hm']; rfl
  have hdelivered : m'.deliveredTo pcid = m.deliveredTo pcid ++ [ev] := by
    rw [← hm']
    exact under_concat_self
  have hemitted : m'.emittedFor pcid = m.emittedFor pcid := by rw [← hm']; rfl
  rw [ht] at hex hem
  refine ⟨⟨first, ?_, ?_⟩, fun hf => ?_⟩
  · rw [hdelivered, htask, List.append_assoc]
    exact hex
  · rw [hemitted, hheld, htask]
    exact hem
  · rw [htask] at hf
    have hold := h.flushed (by rw [ht]; exact hf)
    rw [ht] at hold
    rw [hheld, htask]
    exact hold

/-- The next event of the batch is held back, or goes out with the one that is. -/
theorem Delivering.pair (h : m.Delivering pcid) {batch sending : List ProviderEvent}
    {ev : ProviderEvent} {flushed : Bool} {o : Option ProviderEvent}
    (ht : m.tasks pcid = ⟨ev :: batch, [], flushed⟩)
    (hpair : ∃ out, Exchanged out sending ∧ (m.held pcid).toList ++ [ev] = out ++ o.toList) :
    ((m.setHeld pcid o).setTask pcid ⟨batch, sending, flushed⟩).Delivering pcid := by
  obtain ⟨first, hex, hem⟩ := h.order
  obtain ⟨out, hout, hsplit⟩ := hpair
  generalize hm' : (m.setHeld pcid o).setTask pcid ⟨batch, sending, flushed⟩ = m'
  have htask : m'.tasks pcid = ⟨batch, sending, flushed⟩ := by
    rw [← hm']
    exact Function.update_self _ _ _
  have hheld : m'.held pcid = o := by
    rw [← hm']
    exact Function.update_self _ _ _
  have hdelivered : m'.deliveredTo pcid = m.deliveredTo pcid := by rw [← hm']; rfl
  have hemitted : m'.emittedFor pcid = m.emittedFor pcid := by rw [← hm']; rfl
  rw [ht] at hex hem
  refine ⟨⟨first ++ out, ?_, ?_⟩, fun hf => ?_⟩
  · rw [hdelivered, htask]
    rw [List.append_nil] at hex
    exact hex.append hout
  · rw [hemitted, hheld, htask, hem, List.append_assoc first out, ← hsplit]
    simp
  · -- after the flush there is no batch
    rw [htask] at hf
    have hold := (h.flushed (by rw [ht]; exact hf)).2
    rw [ht] at hold
    cases hold

/-- One turn of the coroutine: the next event is sent, held, or sent after the one that was held. -/
theorem Delivering.resume (h : m.Delivering pcid) (reorder : Bool) :
    (m.resume pcid reorder).Delivering pcid := by
  unfold MockProvider.resume
  split
  · rename_i ht
    exact h.send ht
  · rename_i ev batch flushed ht
    split
    · rename_i hnone
      -- nothing is held: the event is held back
      exact h.pair ht ⟨[], .nil, by rw [hnone]; rfl⟩
    · rename_i held hsome
      -- something is held: the two are sent together, in an order that is drawn
      refine h.pair ht ⟨[held, ev], ?_, by rw [hsome]; rfl⟩
      cases reorder with
      | false => exact .refl _
      | true => exact .swap held ev .nil
  · exact h

/-- Whatever a call does, another one keeps what it has. -/
theorem resume_frame (hne : other ≠ pcid) (reorder : Bool) :
    (m.resume other reorder).held pcid = m.held pcid ∧
      (m.resume other reorder).tasks pcid = m.tasks pcid ∧
      (m.resume other reorder).deliveredTo pcid = m.deliveredTo pcid ∧
      (m.resume other reorder).emittedFor pcid = m.emittedFor pcid := by
  have hupdate : ∀ {β : Type} (f : String → β) (b : β), Function.update f other b pcid = f pcid :=
    fun f b => Function.update_of_ne hne.symm b f
  unfold MockProvider.resume
  split
  · exact ⟨rfl, hupdate _ _, under_concat_of_ne hne, rfl⟩
  · split <;> exact ⟨hupdate _ _, hupdate _ _, rfl, rfl⟩
  · exact ⟨rfl, rfl, rfl, rfl⟩

/-- **Step.** -/
theorem Delivering.step (h : m.Delivering pcid) (a : Act) : (m.step a).Delivering pcid := by
  cases a with
  | emit other e =>
    simp only [MockProvider.step]
    split
    · rename_i hready
      by_cases hne : other = pcid
      · subst hne
        exact h.emit hready.1 hready.2 e
      · -- the step is of another call
        refine h.frame rfl (Function.update_of_ne (Ne.symm hne) _ _) rfl ?_
        exact congrArg (List.flatMap _) (under_concat_of_ne hne)
    · exact h
  | flush other =>
    simp only [MockProvider.step]
    split
    · rename_i hready
      by_cases hne : other = pcid
      · subst hne
        exact h.flush hready.1
      · exact h.frame (Function.update_of_ne (Ne.symm hne) _ _)
          (Function.update_of_ne (Ne.symm hne) _ _) rfl rfl
    · exact h
  | resume other reorder =>
    by_cases hne : other = pcid
    · subst hne
      exact h.resume reorder
    · obtain ⟨hheld, htask, hdelivered, hemitted⟩ := resume_frame (m := m) hne reorder
      exact h.frame hheld htask hdelivered hemitted

end

/-- **Run.** Whatever the calls do, and in whatever order, the events of each are as far as its own
    steps have taken them. -/
theorem delivering_run (acts : List Act) (pcid : String) : (run step init acts).Delivering pcid :=
  invariant_run (I := fun m : MockProvider => m.Delivering pcid) (fun _ a h => h.step a)
    (delivering_init pcid) acts

/-! ### The end of a call -/

/-- A busy call has less to do after its next step. -/
theorem resume_left (m : MockProvider) (pcid : String) (reorder : Bool) :
    ((m.resume pcid reorder).tasks pcid).left ≤ (m.tasks pcid).left - 1 := by
  have hself : ∀ {β : Type} (f : String → β) (b : β), Function.update f pcid b pcid = b :=
    fun f b => Function.update_self pcid b f
  unfold resume
  split
  · rename_i ht
    show (Function.update m.tasks pcid _ pcid).left ≤ _
    rw [hself, ht]
    simp only [CallTask.left, List.length_cons]
    omega
  · rename_i ht
    split
    · show (Function.update m.tasks pcid _ pcid).left ≤ _
      rw [hself, ht]
      -- an event of a batch becomes held, or two that are about to be sent
      simp only [CallTask.left, List.length_cons, List.length_nil]
      omega
    · show (Function.update m.tasks pcid _ pcid).left ≤ _
      rw [hself, ht]
      cases reorder <;> simp only [CallTask.left, List.length_cons, List.length_nil] <;>
        simp <;> omega
  · rename_i ht
    rw [ht]
    simp [CallTask.left]

/-- A running coroutine comes to its end: with enough steps of its own the call is idle. -/
theorem resume_returns (m : MockProvider) (pcid : String) (draws : List Bool)
    (hlen : (m.tasks pcid).left ≤ draws.length) :
    ((run step m (draws.map fun reorder => .resume pcid reorder)).tasks pcid).Idle := by
  induction draws generalizing m with
  | nil =>
    rw [CallTask.idle_iff]
    simpa using hlen
  | cons reorder draws ih =>
    rw [List.map_cons, run_cons]
    apply ih
    have hless := resume_left m pcid reorder
    rw [List.length_cons] at hlen
    show ((m.resume pcid reorder).tasks pcid).left ≤ draws.length
    omega

/-- **Hold and pair.** After any steps of any calls, with any draws:
    * what has been delivered under a call is some of the events emitted for it;
    * a call that has been flushed, and whose flush has returned, has been delivered exactly the
      events emitted for it, duplicates included, with neighbours exchanged two by two, and
      nothing is held for it;
    * whatever a call is doing, it comes to its end by its own steps. -/
theorem delivered_eq_emitted (acts : List Act) (pcid : String) :
    let m := run step init acts
    (m.deliveredTo pcid).Subperm (m.emittedFor pcid) ∧
      ((m.tasks pcid).flushed = true → (m.tasks pcid).Idle →
        m.held pcid = none ∧ (m.deliveredTo pcid).Perm (m.emittedFor pcid) ∧
          ∃ σ : ℕ → ℕ, (∀ i, σ (σ i) = i) ∧ (∀ i, σ i ≤ i + 1 ∧ i ≤ σ i + 1) ∧
            ∀ i, (m.deliveredTo pcid)[i]? = (m.emittedFor pcid)[σ i]?) ∧
      ∃ n, ∀ draws : List Bool, n ≤ draws.length →
        ((run step m (draws.map fun reorder => .resume pcid reorder)).tasks pcid).Idle := by
  intro m
  have h : m.Delivering pcid := delivering_run acts pcid
  obtain ⟨first, hex, hem⟩ := h.order
  refine ⟨?_, fun hflushed hidle => ?_, _, resume_returns m pcid⟩
  · have hsub : (m.deliveredTo pcid).Subperm first :=
      (List.sublist_append_left _ _).subperm.trans hex.perm.subperm
    rw [hem, List.append_assoc]
    exact hsub.trans (List.sublist_append_left _ _).subperm
  · obtain ⟨hheld, hbatch⟩ := h.flushed hflushed
    -- after the flush nothing is held and no batch is left
    have hall : m.emittedFor pcid = first := by
      rw [hem, hheld, hbatch]
      simp
    rw [hidle.2, List.append_nil] at hex
    rw [hall]
    exact ⟨hheld, hex.perm, hex.displacement⟩

/-- Two calls at once.  The first one's events are exchanged, and its duplicated one is held until
    the flush. -/
def twoCalls : List Act :=
  [.emit "A" ⟨"ringing", "e1", 0, false⟩, .resume "A" true, .emit "B" ⟨"ringing", "e2", 0, false⟩,
    .emit "A" ⟨"completed", "e3", 1, true⟩, .resume "A" true, .resume "B" true, .resume "A" false,
    .flush "B", .resume "A" false, .resume "A" false, .flush "A", .resume "B" false,
    .resume "A" false]

/-- The first of the two calls has its three events at the end, the exchanged pair included. -/
theorem delivered_eq_emitted_twoCalls :
    let m := run step init twoCalls
    (m.deliveredTo "A").map (·.event_id) = ["e3", "e1", "e3"] ∧ m.held "A" = none ∧
      (m.deliveredTo "A").Perm (m.emittedFor "A") := by
  intro m
  obtain ⟨hheld, hperm, _⟩ := (delivered_eq_emitted twoCalls "A").2.1 (by decide +kernel)
    (by decide +kernel)
  exact ⟨by decide +kernel, hheld, hperm⟩

end MockProvider

end SmartDialer
