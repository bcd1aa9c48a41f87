import SmartDialer.Correctness.LedgerStep

namespace SmartDialer

open Relational

/-!
# The invariant of the event ledger

* The rows of the ledger are different events.
* An open drain holds different unapplied rows, and no other drain holds one of them.
* The log names a row once if it is marked as effective, and not at all otherwise.
-/

/-- A row is locked when one of these drains holds it. -/
theorem mem_lockedBy {s : Sys} {others : ℕ → Bool} {i : ℕ} :
    i ∈ s.lockedBy others ↔
      ∃ w d, s.drains.get? w = some d ∧ others w = true ∧ i ∈ d.locked := by
  unfold Sys.lockedBy
  rw [List.mem_flatMap]
  constructor
  · rintro ⟨⟨w, d⟩, hmem, hi⟩
    obtain ⟨hw, ho⟩ := Table.mem_select.mp hmem
    exact ⟨w, d, hw, ho, hi⟩
  · rintro ⟨w, d, hw, ho, hi⟩
    exact ⟨(w, d), Table.mem_select.mpr ⟨hw, ho⟩, hi⟩

/-! ### The invariant -/

/-- What ties the ledger, the open drains and the log of transitions together. -/
structure Ledger (events : Table EventRow) (drains : Table Drain) (log : List (ℕ × CallState)) :
    Prop where
  unique : ∀ i j e e', events.get? i = some e → events.get? j = some e' → e.SameEvent e' → i = j
  nodup : ∀ w d, drains.get? w = some d → d.locked.Nodup
  unapplied : ∀ w d, drains.get? w = some d → ∀ i ∈ d.locked,
    ∃ e, events.get? i = some e ∧ e.applied = false
  explained : ∀ w d, drains.get? w = some d → ∀ p ∈ d.plan, p.read.Explained
  apart : ∀ w w' d d' i, drains.get? w = some d → drains.get? w' = some d' → i ∈ d.locked →
    i ∈ d'.locked → w = w'
  counted : ∀ i, logCount log i = if (events.get? i).any EventRow.isEffective then 1 else 0

/-- The invariant, of a state. -/
def Sys.Ledger (s : Sys) : Prop := SmartDialer.Ledger s.db.provider_events s.drains s.log

/-- The ledger is empty, and no drain is open. -/
theorem ledger_init : Sys.init.Ledger where
  unique := by rintro i j e e' ⟨⟩
  nodup := by rintro w d ⟨⟩
  unapplied := by rintro w d ⟨⟩
  explained := by rintro w d ⟨⟩
  apart := by rintro w w' d d' i ⟨⟩
  counted := fun _ => rfl

section

variable {cfg : Settings} {events : Table EventRow} {drains : Table Drain}
  {log : List (ℕ × CallState)}

/-- An unapplied row has had no effect. -/
theorem isEffective_of_unapplied {e : EventRow} (h : e.applied = false) :
    e.isEffective = false := by
  rw [EventRow.isEffective, h, Bool.false_and]

/-- Recording a new event. -/
theorem Ledger.push (h : Ledger events drains log) {e : EventRow} (hu : e.applied = false)
    (hnew : ∀ i e', events.get? i = some e' → ¬ e.SameEvent e') :
    Ledger (events.push e) drains log where
  unique := by
    intro i j e₁ e₂ h₁ h₂ hsame
    rcases Table.cases_of_get?_push h₁ with ⟨hi, hnew₁⟩ | hold₁ <;>
      rcases Table.cases_of_get?_push h₂ with ⟨hj, hnew₂⟩ | hold₂
    · rw [hi, hj]
    · rw [hnew₁] at hsame
      exact absurd hsame (hnew j e₂ hold₂)
    · rw [hnew₂] at hsame
      exact absurd ⟨hsame.1.symm, hsame.2.symm⟩ (hnew i e₁ hold₁)
    · exact h.unique i j e₁ e₂ hold₁ hold₂ hsame
  nodup := h.nodup
  unapplied := by
    intro w d hw i hi
    obtain ⟨e₁, h₁, hu₁⟩ := h.unapplied w d hw i hi
    refine ⟨e₁, ?_, hu₁⟩
    rw [Table.get?_push, if_neg (Table.ne_nextId h₁), h₁]
  explained := h.explained
  apart := h.apart
  counted := by
    intro i
    rw [Table.get?_push]
    split
    · -- the new row is unapplied, and the log cannot name it yet
      rename_i hi
      have hzero := h.counted i
      rw [hi, Table.get?_nextId] at hzero
      rw [hi, hzero, Option.any_some, isEffective_of_unapplied hu]
      rfl
    · exact h.counted i

/-- Opening a drain over rows that nobody holds. -/
theorem Ledger.insertDrain (h : Ledger events drains log) {w : ℕ} {d : Drain}
    (hnd : d.locked.Nodup) (hplan : d.plan = [])
    (hrows : ∀ i ∈ d.locked, ∃ e, events.get? i = some e ∧ e.applied = false)
    (hfree : ∀ i ∈ d.locked, ∀ w' d', drains.get? w' = some d' → i ∉ d'.locked) :
    Ledger events (drains.insertAt w d) log := by
  -- an open drain is an old one or the new one
  have hcases : ∀ w' d', (drains.insertAt w d).get? w' = some d' →
      drains.get? w' = some d' ∨ w' = w ∧ d' = d := by
    intro w' d' hw'
    exact (Table.cases_of_get?_insertAt hw').imp_right fun hnew => ⟨hnew.1, hnew.2.1⟩
  constructor
  · exact h.unique
  · intro w' d' hw'
    rcases hcases w' d' hw' with hold | ⟨-, rfl⟩
    · exact h.nodup w' d' hold
    · exact hnd
  · intro w' d' hw'
    rcases hcases w' d' hw' with hold | ⟨-, rfl⟩
    · exact h.unapplied w' d' hold
    · exact hrows
  · intro w' d' hw' p hp
    rcases hcases w' d' hw' with hold | ⟨-, rfl⟩
    · exact h.explained w' d' hold p hp
    · rw [hplan] at hp
      cases hp
  · intro w₁ w₂ d₁ d₂ i h₁ h₂ hi₁ hi₂
    rcases hcases w₁ d₁ h₁ with hold₁ | ⟨rfl, rfl⟩ <;>
      rcases hcases w₂ d₂ h₂ with hold₂ | ⟨rfl, rfl⟩
    · exact h.apart w₁ w₂ d₁ d₂ i hold₁ hold₂ hi₁ hi₂
    · exact absurd hi₁ (hfree i hi₂ w₁ d₁ hold₁)
    · exact absurd hi₂ (hfree i hi₁ w₂ d₂ hold₂)
    · rfl
  · exact h.counted

/-- A drain that goes on holding the same rows. -/
theorem Ledger.setDrain (h : Ledger events drains log) {w : ℕ} {d d' : Drain}
    (hw : drains.get? w = some d) (hlocked : d'.locked = d.locked)
    (hex : ∀ p ∈ d'.plan, p.read.Explained) :
    Ledger events (drains.modify (fun i _ => i == w) fun _ => d') log := by
  -- whoever holds a row has held it before
  have hcases : ∀ w' e, (drains.modify (fun i _ => i == w) fun _ => d').get? w' = some e →
      ∃ e₀, drains.get? w' = some e₀ ∧ e.locked = e₀.locked ∧ (e = d' ∨ e = e₀) := by
    intro w' e he
    obtain ⟨e₀, he₀, hr⟩ := Table.exists_of_get?_modify he
    by_cases hww : w' = w
    · subst hww
      simp only [beq_self_eq_true, if_true] at hr
      rw [hw] at he₀
      cases he₀
      exact ⟨d, hw, by rw [hr, hlocked], Or.inl hr⟩
    · simp only [beq_eq_false_iff_ne.mpr hww, Bool.false_eq_true, if_false] at hr
      exact ⟨e₀, he₀, by rw [hr], Or.inr hr⟩
  constructor
  · exact h.unique
  · intro w' e he
    obtain ⟨e₀, he₀, hl, _⟩ := hcases w' e he
    rw [hl]
    exact h.nodup w' e₀ he₀
  · intro w' e he
    obtain ⟨e₀, he₀, hl, _⟩ := hcases w' e he
    rw [hl]
    exact h.unapplied w' e₀ he₀
  · intro w' e he
    obtain ⟨e₀, he₀, _, rfl | rfl⟩ := hcases w' e he
    · exact hex
    · exact h.explained w' e he₀
  · intro w₁ w₂ d₁ d₂ i h₁ h₂ hi₁ hi₂
    obtain ⟨e₁, he₁, hl₁, _⟩ := hcases w₁ d₁ h₁
    obtain ⟨e₂, he₂, hl₂, _⟩ := hcases w₂ d₂ h₂
    exact h.apart w₁ w₂ e₁ e₂ i he₁ he₂ (hl₁ ▸ hi₁) (hl₂ ▸ hi₂)
  · exact h.counted

/-- Closing a drain. -/
theorem Ledger.eraseDrain (h : Ledger events drains log) (w : ℕ) :
    Ledger events (drains.erase w) log where
  unique := h.unique
  nodup := fun w' d hw' => h.nodup w' d (Table.get?_of_get?_erase hw').2
  unapplied := fun w' d hw' => h.unapplied w' d (Table.get?_of_get?_erase hw').2
  explained := fun w' d hw' => h.explained w' d (Table.get?_of_get?_erase hw').2
  apart := fun w₁ w₂ d₁ d₂ i h₁ h₂ =>
    h.apart w₁ w₂ d₁ d₂ i (Table.get?_of_get?_erase h₁).2 (Table.get?_of_get?_erase h₂).2
  counted := h.counted

/-- What a committed drain does to the ledger, row by row. -/
structure Settled (plan : List Planned) (now : Time) (events : Table EventRow)
    (log : List (ℕ × CallState)) (events' : Table EventRow) : Prop where
  marked : ∀ i ∈ plan.map (·.event.1), ∃ e', events'.get? i = some e' ∧
    logCount log i = if e'.isEffective then 1 else 0
  others : ∀ i, i ∉ plan.map (·.event.1) → logCount log i = 0 ∧
    (events'.get? i = events.get? i ∨ ∃ e, events.get? i = some e ∧
      EventRepo.isGivenUp now e = true ∧ events'.get? i = some (EventRepo.givenUpRow e))
  same : ∀ i e', events'.get? i = some e' → ∃ e, events.get? i = some e ∧ e'.SameEvent e

/-- An event that is given up was not effective and is not made so. -/
theorem isEffective_of_isGivenUp {now : Time} {e : EventRow}
    (h : EventRepo.isGivenUp now e = true) :
    e.isEffective = false ∧ (EventRepo.givenUpRow e).isEffective = false := by
  unfold EventRepo.isGivenUp at h
  simp only [Bool.and_eq_true, beq_iff_eq] at h
  obtain ⟨⟨_, hanomaly⟩, _⟩ := h
  simp [EventRow.isEffective, EventRepo.givenUpRow, hanomaly]

/-- **Commits.** The plan marks its rows, and the sweep gives up on rows outside of it or on rows
    that the plan has just found unknown again. -/
theorem settled_of_replayed (now : Time) {plan : List Planned} {db db₁ : Db}
    (h : Replayed plan db.view log db₁.view) :
    Settled plan now db.provider_events log
      (db₁.provider_events.modify (fun _ e => EventRepo.isGivenUp now e) EventRepo.givenUpRow) := by
  have hget : ∀ i, (db₁.provider_events.modify (fun _ e => EventRepo.isGivenUp now e)
      EventRepo.givenUpRow).get? i = (db₁.provider_events.get? i).map fun e =>
        if EventRepo.isGivenUp now e then EventRepo.givenUpRow e else e :=
    fun i => Table.get?_modify ..
  constructor
  · intro i hi
    obtain ⟨e₁, he₁, hcount⟩ := h.marked i hi
    refine ⟨if EventRepo.isGivenUp now e₁ then EventRepo.givenUpRow e₁ else e₁, ?_, ?_⟩
    · rw [hget, ← Db.view_provider_events, he₁]
      rfl
    · -- giving up an unknown event makes it applied, but never effective
      by_cases hg : EventRepo.isGivenUp now e₁ = true
      · obtain ⟨hold, hnew⟩ := isEffective_of_isGivenUp hg
        rw [hcount, if_pos hg, hold, hnew]
      · rw [hcount, if_neg hg]
  · intro i hi
    obtain ⟨hrow, hzero⟩ := h.others i hi
    rw [Db.view_provider_events, Db.view_provider_events] at hrow
    refine ⟨hzero, ?_⟩
    rw [hget, hrow]
    cases hi : db.provider_events.get? i with
    | none => exact Or.inl rfl
    | some e =>
      by_cases hg : EventRepo.isGivenUp now e = true
      · exact Or.inr ⟨e, rfl, hg, by simp [hg]⟩
      · exact Or.inl (by simp [hg])
  · intro i e' he'
    obtain ⟨e₁, he₁, heq⟩ := Table.exists_of_get?_modify he'
    obtain ⟨e, he, hsame⟩ := h.same i e₁ he₁
    refine ⟨e, he, ?_⟩
    split at heq <;> rw [heq] <;> exact hsame

/-- Committing a drain. -/
theorem Ledger.settle (h : Ledger events drains log) {now : Time} {w : ℕ} {plan : List Planned}
    {moved : List (ℕ × CallState)} {events' : Table EventRow}
    (hw : drains.get? w = some ⟨now, [], plan⟩) (hs : Settled plan now events moved events')
    (hfree : ∀ i e, events.get? i = some e → EventRepo.isGivenUp now e = true →
      ∀ w' d, drains.get? w' = some d → w' ≠ w → i ∉ d.locked) :
    Ledger events' (drains.erase w) (log ++ moved) := by
  have hlocked : ∀ i, i ∈ plan.map (·.event.1) ↔ i ∈ Drain.locked ⟨now, [], plan⟩ := by
    intro i
    simp [Drain.locked]
  constructor
  · intro i j e₁ e₂ h₁ h₂ hsame
    obtain ⟨e₁', he₁, hs₁⟩ := hs.same i e₁ h₁
    obtain ⟨e₂', he₂, hs₂⟩ := hs.same j e₂ h₂
    have hback : e₁'.SameEvent e₂' := by
      have h₁ : e₁'.SameEvent e₁ := ⟨hs₁.1.symm, hs₁.2.symm⟩
      exact (h₁.trans hsame).trans hs₂
    exact h.unique i j e₁' e₂' he₁ he₂ hback
  · exact fun w' d hw' => h.nodup w' d (Table.get?_of_get?_erase hw').2
  · -- the rows of the other drains are neither marked nor given up
    intro w' d hw' i hi
    obtain ⟨hne, hold⟩ := Table.get?_of_get?_erase hw'
    obtain ⟨e, he, hu⟩ := h.unapplied w' d hold i hi
    have hout : i ∉ plan.map (·.event.1) := by
      intro hmem
      exact hne (h.apart w' w d _ i hold hw hi ((hlocked i).mp hmem))
    rcases (hs.others i hout).2 with hrow | ⟨e', he', hg, _⟩
    · exact ⟨e, by rw [hrow, he], hu⟩
    · exact absurd hi (hfree i e' he' hg w' d hold hne)
  · exact fun w' d hw' => h.explained w' d (Table.get?_of_get?_erase hw').2
  · exact fun w₁ w₂ d₁ d₂ i h₁ h₂ =>
      h.apart w₁ w₂ d₁ d₂ i (Table.get?_of_get?_erase h₁).2 (Table.get?_of_get?_erase h₂).2
  · intro i
    have hsum : logCount (log ++ moved) i = logCount log i + logCount moved i := List.countP_append
    rw [hsum, h.counted]
    by_cases hi : i ∈ plan.map (·.event.1)
    · -- the log did not name an unapplied row before
      obtain ⟨e', he', hcount⟩ := hs.marked i hi
      obtain ⟨e, he, hu⟩ := h.unapplied w _ hw i ((hlocked i).mp hi)
      rw [he, he', hcount, Option.any_some, Option.any_some, isEffective_of_unapplied hu]
      simp only [Bool.false_eq_true, if_false, Nat.zero_add]
    · obtain ⟨hzero, hrow | ⟨e, he, hg, hrow⟩⟩ := hs.others i hi
      · rw [hrow, hzero, Nat.add_zero]
      · obtain ⟨hold, hnew⟩ := isEffective_of_isGivenUp hg
        rw [hrow, he, hzero, Option.any_some, Option.any_some, hold, hnew, Nat.add_zero]

end

/-- The rows that the plan of an open drain writes are the ones that it has locked. -/
theorem Sys.Ledger.replayed {cfg : Settings} {s : Sys} (h : s.Ledger) {now : Time} {w : ℕ}
    {plan : List Planned} {log : List (ℕ × CallState)} {db₁ : Db}
    (hw : s.drains.get? w = some ⟨now, [], plan⟩)
    (hplan : (applyPlan cfg now plan).run s.db = .ok (log, db₁)) :
    Replayed plan s.db.view log db₁.view := by
  have hlocked : Drain.locked ⟨now, [], plan⟩ = plan.map (·.event.1) := by simp [Drain.locked]
  refine applyPlan_replayed ?_ ?_ (h.explained w _ hw) hplan
  · have hnd := h.nodup w _ hw
    rwa [hlocked] at hnd
  · intro i hi
    exact h.unapplied w _ hw i (by rw [hlocked]; exact hi)

/-- **Ledger.** Every action keeps the invariant. -/
theorem ledger_step {cfg : Settings} {s : Sys} (h : s.Ledger) (a : Act) :
    (step cfg s a).Ledger := by
  have hstep := step_ledger cfg s a
  generalize step cfg s a = s' at hstep ⊢
  unfold Sys.Ledger
  cases hstep with
  | quiet he hd hl => rw [he, hd, hl]; exact h
  | recorded hu hnew he hd hl => rw [he, hd, hl]; exact Ledger.push h hu hnew
  | opened hnd hrows he hd hl =>
    rw [he, hd, hl]
    refine Ledger.insertDrain h ?_ rfl ?_ ?_
    · simpa [Drain.locked] using hnd
    · intro i hi
      simp only [Drain.locked, List.map_nil, List.nil_append, List.mem_map] at hi
      obtain ⟨e, he, rfl⟩ := hi
      exact ⟨e.2, (hrows e he).1, (hrows e he).2.1⟩
    · intro i hi w' d' hw' hmem
      simp only [Drain.locked, List.map_nil, List.nil_append, List.mem_map] at hi
      obtain ⟨e, he, rfl⟩ := hi
      exact (hrows e he).2.2 (mem_lockedBy.mpr ⟨w', d', hw', rfl, hmem⟩)
  | read hw hp he hd hl =>
    rw [he, hd, hl]
    refine Ledger.setDrain h hw ?_ ?_
    · simp [Drain.locked]
    · intro q hq
      rcases List.mem_append.mp hq with hq | hq
      · exact h.explained _ _ hw q hq
      · rw [List.mem_singleton.mp hq]
        exact hp
  -- the plan's rows were locked by this worker; the sweep passes over those of the others
  | committed hw hplan hfree hview hd hl =>
    have hevents := congrArg View.provider_events hview
    rw [Db.view_provider_events] at hevents
    rw [hevents, hd, hl]
    apply Ledger.settle h hw (settled_of_replayed _ (h.replayed hw hplan))
    intro i e he hg w' d hw' hne hi
    exact hfree i e he hg (mem_lockedBy.mpr ⟨w', d, hw', by simpa using hne, hi⟩)
  | closed he hd hl => rw [he, hd, hl]; exact Ledger.eraseDrain h _

end SmartDialer
