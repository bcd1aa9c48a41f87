import SmartDialer.Lib.Counting
import SmartDialer.Statements
import SmartDialer.Repo.Metrics

namespace SmartDialer

open Relational

/-!
# The counters agree with the rows

The row of `campaign_counters` that the triggers maintain is a materialised `count(*)`.  The
seven columns are treated at once: `Counter` names them, `Counter.agentIn` and `Counter.callIn`
say which states a column counts, and `Agree` is the refinement relation between the table of
counters and the rows of `agents` and `calls`.

* `agree_exec` — every statement keeps `Agree`.
* `snapshotFast_eq_snapshotNaive` — so after any run of statements the fast snapshot of every
  campaign is the plain one.
-/

/-- The columns of `campaign_counters`. -/
inductive Counter where
  | agents_available | agents_reserved | agents_dialing | agents_connected | agents_wrapup
  | calls_ringing | calls_connected
  deriving DecidableEq, Repr

namespace Counter

/-- Does the column count an agent in this state? -/
def agentIn : Counter → AgentState → Bool
  | agents_available, s => s == .AVAILABLE
  | agents_reserved, s => s == .RESERVED
  | agents_dialing, s => s == .DIALING
  | agents_connected, s => s == .CONNECTED
  | agents_wrapup, s => s == .WRAP_UP
  | calls_ringing, _ => false
  | calls_connected, _ => false

/-- Does the column count a call in this state? -/
def callIn : Counter → CallState → Bool
  | calls_ringing, s => s.isRinging
  | calls_connected, s => s == .CONNECTED
  | _, _ => false

/-- The value of the column. -/
def get (k : Counter) (r : CountersRow) : ℤ :=
  match k with
  | agents_available => r.agents_available
  | agents_reserved => r.agents_reserved
  | agents_dialing => r.agents_dialing
  | agents_connected => r.agents_connected
  | agents_wrapup => r.agents_wrapup
  | calls_ringing => r.calls_ringing
  | calls_connected => r.calls_connected

/-- The column as `snapshot_fast` reads it: zero without a row. -/
def read (k : Counter) (counters : Table CountersRow) (campaign_id : ℕ) : ℤ :=
  ((counters.get? campaign_id).map k.get).getD 0

end Counter

/-- A row that does not qualify counts for nothing. -/
@[simp] theorem ind_false : ind false = 0 := rfl
/-- A row that qualifies counts once. -/
@[simp] theorem ind_true : ind true = 1 := rfl

/-! ### The triggers -/

/-- Rewriting one counters row by `f` moves the columns of that campaign only. -/
private theorem read_modify {counters : Table CountersRow} {c₀ : ℕ} {f : CountersRow → CountersRow}
    {k : Counter} {d : ℤ} (hf : ∀ r, k.get (f r) = k.get r + d) (hrow : counters.get? c₀ ≠ none)
    (c : ℕ) :
    k.read (counters.modify (fun i _ => i == c₀) f) c
      = k.read counters c + if c = c₀ then d else 0 := by
  unfold Counter.read
  rw [Table.get?_modify]
  by_cases h : c = c₀
  · subst h
    obtain ⟨r, hr⟩ := Option.ne_none_iff_exists'.mp hrow
    simp [hr, hf]
  · cases counters.get? c <;> simp [h]

/-- A fresh counters row reads as the missing one did. -/
private theorem read_insertAt (counters : Table CountersRow) (c₀ : ℕ) (now : Time) (k : Counter)
    (c : ℕ) : k.read (counters.insertAt c₀ (.default now)) c = k.read counters c := by
  unfold Counter.read
  rw [Table.get?_insertAt]
  by_cases h : c = c₀
  · subst h
    rw [if_pos rfl]
    cases counters.get? c with
    | none => cases k <;> rfl
    | some r => rfl
  · simp [h]

/-- After `INSERT … ON CONFLICT DO NOTHING` the campaign has a counters row. -/
private theorem get?_insertAt_self (counters : Table CountersRow) (c₀ : ℕ) (r : CountersRow) :
    (counters.insertAt c₀ r).get? c₀ ≠ none := by
  simp [Table.get?_insertAt]

/-- A campaign that has a counters row keeps one. -/
private theorem get?_modify_ne_none {counters : Table CountersRow} {c : ℕ}
    (p : ℕ → CountersRow → Bool) (f : CountersRow → CountersRow) (h : counters.get? c ≠ none) :
    (counters.modify p f).get? c ≠ none := by
  simpa [Table.get?_modify] using h

/-- Adding the row of one campaign takes no other away. -/
private theorem get?_insertAt_ne_none {counters : Table CountersRow} {c : ℕ} (c₀ : ℕ)
    (r : CountersRow) (h : counters.get? c ≠ none) : (counters.insertAt c₀ r).get? c ≠ none := by
  rw [Table.get?_insertAt]
  split
  · simp
  · exact h

/-- An inserted agent adds one to the columns that count its state. -/
theorem read_trgAgentsCounters_insert (now : Time) (new : AgentRow) (counters : Table CountersRow)
    (k : Counter) (c : ℕ) :
    k.read (trgAgentsCounters now none new counters) c
      = k.read counters c + if c = new.campaign_id then ind (k.agentIn new.state) else 0 := by
  unfold trgAgentsCounters
  rw [read_modify (d := ind (k.agentIn new.state)) _ (get?_insertAt_self _ _ _), read_insertAt]
  intro r
  cases k <;> simp [Counter.get, Counter.agentIn]

/-- An updated agent moves from the columns of its old state to those of its new one. -/
theorem read_trgAgentsCounters_update (now : Time) (old new : AgentRow)
    (counters : Table CountersRow) (hrow : counters.get? new.campaign_id ≠ none) (k : Counter)
    (c : ℕ) :
    k.read (trgAgentsCounters now (some old) new counters) c = k.read counters c
      + if c = new.campaign_id then ind (k.agentIn new.state) - ind (k.agentIn old.state)
        else 0 := by
  unfold trgAgentsCounters
  simp only
  split
  · rw [read_modify (d := ind (k.agentIn new.state) - ind (k.agentIn old.state)) _ hrow]
    intro r
    cases k <;> simp [Counter.get, Counter.agentIn, add_sub_assoc]
  · -- the trigger skips an update that keeps the state, whose delta is zero in every column
    rename_i h
    rw [not_not.mp h]
    simp

/-- The trigger on a new call: its campaign counts it where its state says so. -/
theorem read_trgCallsCounters_insert (now : Time) (new : CallRow) (counters : Table CountersRow)
    (k : Counter) (c : ℕ) :
    k.read (trgCallsCounters now none new counters) c
      = k.read counters c + if c = new.campaign_id then ind (k.callIn new.state) else 0 := by
  unfold trgCallsCounters
  rw [read_modify (d := ind (k.callIn new.state)) _ (get?_insertAt_self _ _ _), read_insertAt]
  intro r
  cases k <;> simp [Counter.get, Counter.callIn]

/-- The trigger on an updated call: it leaves the count of its old state and enters that of its new
    one. -/
theorem read_trgCallsCounters_update (now : Time) (old new : CallRow)
    (counters : Table CountersRow) (hrow : counters.get? new.campaign_id ≠ none) (k : Counter)
    (c : ℕ) :
    k.read (trgCallsCounters now (some old) new counters) c = k.read counters c
      + if c = new.campaign_id then ind (k.callIn new.state) - ind (k.callIn old.state) else 0 := by
  unfold trgCallsCounters
  simp only
  split
  · rw [read_modify (d := ind (k.callIn new.state) - ind (k.callIn old.state)) _ hrow]
    intro r
    cases k <;> simp [Counter.get, Counter.callIn, add_sub_assoc]
  · rename_i h
    rw [not_not.mp h]
    simp

/-- No trigger drops a counters row. -/
theorem get?_trgAgentsCounters (now : Time) (old : Option AgentRow) (new : AgentRow)
    {counters : Table CountersRow} {c : ℕ} (h : counters.get? c ≠ none) :
    (trgAgentsCounters now old new counters).get? c ≠ none := by
  unfold trgAgentsCounters
  split
  · exact get?_modify_ne_none _ _ (get?_insertAt_ne_none _ _ h)
  · split
    · exact get?_modify_ne_none _ _ h
    · exact h

/-- The trigger removes no counters row. -/
theorem get?_trgCallsCounters (now : Time) (old : Option CallRow) (new : CallRow)
    {counters : Table CountersRow} {c : ℕ} (h : counters.get? c ≠ none) :
    (trgCallsCounters now old new counters).get? c ≠ none := by
  unfold trgCallsCounters
  split
  · exact get?_modify_ne_none _ _ (get?_insertAt_ne_none _ _ h)
  · split
    · exact get?_modify_ne_none _ _ h
    · exact h

/-! ### The triggers of one statement -/

section

/- A table whose rows belong to a campaign, with a trigger that keeps the columns in step. -/
variable {ρ : Type} {trg : ρ → ρ → Table CountersRow → Table CountersRow} (campaign : ρ → ℕ)
  (counts : Counter → ρ → Bool) {f : ρ → ρ}

/-- The rows of a campaign that a column counts. -/
def counted (k : Counter) (c : ℕ) (t : Table ρ) : ℕ :=
  t.count fun _ r => decide (campaign r = c ∧ counts k r)

/-- A new row is counted in its campaign, if its state says so. -/
private theorem counted_push (t : Table ρ) (r : ρ) (k : Counter) (c : ℕ) :
    (counted campaign counts k c (t.push r) : ℤ)
      = counted campaign counts k c t + if c = campaign r then ind (counts k r) else 0 := by
  unfold counted
  rw [Table.count_push]
  by_cases h : c = campaign r
  · subst h
    cases hk : counts k r <;> simp
  · have h' : ¬ campaign r = c := fun h' => h h'.symm
    simp [h, h']

/-- The triggers fired by one `UPDATE`, row by row: together they move each column by the change
    of the number of rows it counts. -/
private theorem read_foldl_trg (hcamp : ∀ r, campaign (f r) = campaign r)
    (hread : ∀ r counters, counters.get? (campaign r) ≠ none → ∀ (k : Counter) (c : ℕ),
      k.read (trg r (f r) counters) c = k.read counters c
        + if c = campaign r then ind (counts k (f r)) - ind (counts k r) else 0)
    (hkeep : ∀ r (counters : Table CountersRow) c, counters.get? c ≠ none →
      (trg r (f r) counters).get? c ≠ none)
    (t : Table ρ) (p : ℕ → ρ → Bool) (counters : Table CountersRow)
    (hrow : ∀ i r, t.get? i = some r → counters.get? (campaign r) ≠ none) (k : Counter) (c : ℕ) :
    k.read ((t.select p).foldl (fun counters e => trg e.2 (f e.2) counters) counters) c
        + counted campaign counts k c t
      = k.read counters c + counted campaign counts k c (t.modify p f) := by
  -- induction on the rows the statement selects, each trigger reading what the last one wrote
  have hsum : ∀ (l : List (ℕ × ρ)) (counters : Table CountersRow),
      (∀ e ∈ l, counters.get? (campaign e.2) ≠ none) →
        k.read (l.foldl (fun counters e => trg e.2 (f e.2) counters) counters) c
          = k.read counters c + (l.map fun e =>
            (if decide (campaign (f e.2) = c ∧ counts k (f e.2)) then (1 : ℤ) else 0)
              - if decide (campaign e.2 = c ∧ counts k e.2) then 1 else 0).sum := by
    intro l
    induction l with
    | nil => simp
    | cons e l ih =>
      intro counters hl
      rw [List.foldl_cons, ih _ fun e' he' => hkeep _ _ _ (hl e' (by simp [he'])),
        hread _ _ (hl e (by simp)), List.map_cons, List.sum_cons, hcamp, add_assoc]
      congr 2
      -- a row of another campaign moves neither the column nor the count
      by_cases h : c = campaign e.2
      · cases counts k (f e.2) <;> cases counts k e.2 <;> simp [h]
      · have h' : ¬ campaign e.2 = c := fun h' => h h'.symm
        simp [h, h']
  have hcount := Table.count_modify_int t p f fun r => decide (campaign r = c ∧ counts k r)
  rw [hsum _ _ fun e he => hrow e.1 e.2 (Table.mem_select.mp he).1]
  unfold counted
  rw [hcount]
  ring

/-- No trigger of an `UPDATE` drops a counters row. -/
private theorem get?_foldl_trg (hkeep : ∀ r (counters : Table CountersRow) c,
      counters.get? c ≠ none → (trg r (f r) counters).get? c ≠ none)
    (l : List (ℕ × ρ)) {counters : Table CountersRow} {c : ℕ} (h : counters.get? c ≠ none) :
    (l.foldl (fun counters e => trg e.2 (f e.2) counters) counters).get? c ≠ none := by
  induction l generalizing counters with
  | nil => exact h
  | cons e l ih => exact ih (hkeep _ _ _ h)

/-- An update that keeps the campaign of each row finds its counters where they were. -/
private theorem covered_modify {t : Table ρ} {p : ℕ → ρ → Bool} {counters : Table CountersRow}
    (hcamp : ∀ r, campaign (f r) = campaign r)
    (h : ∀ i r, t.get? i = some r → counters.get? (campaign r) ≠ none) :
    ∀ i r, (t.modify p f).get? i = some r → counters.get? (campaign r) ≠ none := by
  intro i r hr
  rw [Table.get?_modify, Option.map_eq_some_iff] at hr
  obtain ⟨r₀, hr₀, rfl⟩ := hr
  split
  · rw [hcamp]; exact h i r₀ hr₀
  · exact h i r₀ hr₀

/-- A new row is covered when its campaign is. -/
private theorem covered_push {t : Table ρ} {r₀ : ρ} {counters : Table CountersRow}
    (h : ∀ i r, t.get? i = some r → counters.get? (campaign r) ≠ none)
    (h₀ : counters.get? (campaign r₀) ≠ none) :
    ∀ i r, (t.push r₀).get? i = some r → counters.get? (campaign r) ≠ none := by
  intro i r hr
  rw [Table.get?_push] at hr
  split at hr
  · cases hr; exact h₀
  · exact h i r hr

end

/-! ### Agreement -/

/-- The counters agree with the rows, and every campaign with rows has its counters. -/
structure Agree (db : Db) : Prop where
  reads : ∀ (k : Counter) (c : ℕ), k.read db.campaign_counters c
    = counted AgentRow.campaign_id (fun k a => k.agentIn a.state) k c db.agents
      + counted CallRow.campaign_id (fun k r => k.callIn r.state) k c db.calls
  agents : ∀ i a, db.agents.get? i = some a → db.campaign_counters.get? a.campaign_id ≠ none
  calls : ∀ i r, db.calls.get? i = some r → db.campaign_counters.get? r.campaign_id ≠ none

/-- With no rows there is nothing to count, and a missing counters row reads as zero. -/
theorem agree_empty : Agree Db.empty where
  reads := fun k _ => by cases k <;> rfl
  agents := fun i a h => by cases h
  calls := fun i r h => by cases h

/-- Updating agents keeps the agreement. -/
theorem Agree.setAgents {db : Db} (h : Agree db) (now : Time) (p : ℕ → AgentRow → Bool)
    {f : AgentRow → AgentRow} (hf : ∀ a, (f a).campaign_id = a.campaign_id) :
    Agree (db.setAgents now p f) := by
  have hkeep := fun r (counters : Table CountersRow) c (hc : counters.get? c ≠ none) =>
    get?_trgAgentsCounters now (some r) (f r) hc
  have hcov : ∀ {c}, db.campaign_counters.get? c ≠ none →
      (db.setAgents now p f).campaign_counters.get? c ≠ none :=
    fun hc => get?_foldl_trg hkeep _ hc
  refine ⟨fun k c => ?_, covered_modify _ hf fun i a ha => hcov (h.agents i a ha),
    fun i r hr => hcov (h.calls i r hr)⟩
  have hread := read_foldl_trg AgentRow.campaign_id (fun k a => k.agentIn a.state) hf
    (fun r counters hrow k c => by
      rw [read_trgAgentsCounters_update now r (f r) counters (by rw [hf]; exact hrow), hf])
    hkeep db.agents p db.campaign_counters h.agents k c
  -- only agents have changed, so their part of the sum moves as the triggers say
  have hold := h.reads k c
  show k.read (List.foldl _ _ _) c
    = counted _ _ k c (db.agents.modify p f) + counted _ _ k c db.calls
  omega

/-- Inserting an agent keeps the agreement. -/
theorem Agree.insertAgent {db db' : Db} (h : Agree db) {now : Time} {r : AgentRow} {i : ℕ}
    (hrun : (SmartDialer.insertAgent now r).run db = .ok (i, db')) : Agree db' := by
  change (if _ then _ else _) = _ at hrun
  split at hrun
  swap
  · cases hrun
  cases hrun
  have hcov : ∀ {c}, db.campaign_counters.get? c ≠ none →
      (trgAgentsCounters now none r db.campaign_counters).get? c ≠ none :=
    fun hc => get?_trgAgentsCounters now none r hc
  refine ⟨fun k c => ?_, covered_push _ (fun i a ha => hcov (h.agents i a ha)) ?_,
    fun i r hr => hcov (h.calls i r hr)⟩
  · have hold := h.reads k c
    have hpush := counted_push AgentRow.campaign_id (fun k a => k.agentIn a.state) db.agents r k c
    show k.read (trgAgentsCounters now none r db.campaign_counters) c
      = counted _ _ k c (db.agents.push r) + counted _ _ k c db.calls
    rw [read_trgAgentsCounters_insert]
    omega
  · -- the trigger has made the counters row if the campaign had none
    exact get?_modify_ne_none _ _ (get?_insertAt_self _ _ _)

/-- Updating calls keeps the agreement. -/
theorem Agree.updateCalls {db db' : Db} (h : Agree db) {now : Time} {p : ℕ → CallRow → Bool}
    {f : CallRow → CallRow} {rows : List (ℕ × CallRow)}
    (hf : ∀ c, (f c).campaign_id = c.campaign_id)
    (hrun : (SmartDialer.updateCalls now p f).run db = .ok (rows, db')) : Agree db' := by
  change (if _ : _ then _ else _) = _ at hrun
  split at hrun
  -- the UPDATE fails as a whole when it would break a constraint: nothing to show
  swap
  · cases hrun
  cases hrun
  have hkeep := fun r (counters : Table CountersRow) c (hc : counters.get? c ≠ none) =>
    get?_trgCallsCounters now (some r) (f r) hc
  have hcov : ∀ {c}, db.campaign_counters.get? c ≠ none → ((db.calls.select p).foldl
      (fun counters e => trgCallsCounters now (some e.2) (f e.2) counters)
        db.campaign_counters).get? c ≠ none :=
    fun hc => get?_foldl_trg hkeep _ hc
  refine ⟨fun k c => ?_, fun i a ha => hcov (h.agents i a ha),
    covered_modify _ hf fun i r hr => hcov (h.calls i r hr)⟩
  -- the trigger fires once per row matched: its deltas add up to the change of the count
  have hread := read_foldl_trg CallRow.campaign_id (fun k r => k.callIn r.state) hf
    (fun r counters hrow k c => by
      rw [read_trgCallsCounters_update now r (f r) counters (by rw [hf]; exact hrow), hf])
    hkeep db.calls p db.campaign_counters h.calls k c
  have hold := h.reads k c
  show k.read (List.foldl _ _ _) c
    = counted _ _ k c db.agents + counted _ _ k c (db.calls.modify p f)
  omega

/-- Inserting a call keeps the agreement. -/
theorem Agree.insertCall {db db' : Db} (h : Agree db) {now : Time} {r : CallRow} {i : ℕ}
    (hrun : (SmartDialer.insertCall now r).run db = .ok (i, db')) : Agree db' := by
  change (if _ : _ then _ else _) = _ at hrun
  split at hrun
  swap
  · cases hrun
  cases hrun
  have hcov : ∀ {c}, db.campaign_counters.get? c ≠ none →
      (trgCallsCounters now none r db.campaign_counters).get? c ≠ none :=
    fun hc => get?_trgCallsCounters now none r hc
  refine ⟨fun k c => ?_, fun i a ha => hcov (h.agents i a ha),
    covered_push _ (fun i r hr => hcov (h.calls i r hr)) ?_⟩
  · have hold := h.reads k c
    have hpush := counted_push CallRow.campaign_id (fun k r => k.callIn r.state) db.calls r k c
    show k.read (trgCallsCounters now none r db.campaign_counters) c
      = counted _ _ k c db.agents + counted _ _ k c (db.calls.push r)
    rw [read_trgCallsCounters_insert]
    omega
  · exact get?_modify_ne_none _ _ (get?_insertAt_self _ _ _)

/-- **Step.** Every statement keeps the agreement. -/
theorem agree_exec {db : Db} (h : Agree db) (s : Stmt) : Agree (s.exec db) := by
  have heff := Stmt.exec_effect db s
  generalize s.selects = p at heff
  generalize s.exec db = db' at heff ⊢
  cases heff with
  | none => exact h
  | insertAgent hrun => exact h.insertAgent hrun
  | updateAgents now p f hf => exact h.setAgents now p fun a => (hf a).1
  | insertCall hrun => exact h.insertCall hrun
  | updateCalls hf hrun => exact h.updateCalls hf hrun

/-- **Run.** The counters agree with the rows after any run of statements from empty tables. -/
theorem agree_run (stmts : List Stmt) : Agree (run Stmt.exec Db.empty stmts) :=
  invariant_run (I := Agree) (fun _ s h => agree_exec h s) agree_empty stmts

/-! ### The two snapshots -/

namespace MetricsRepo

/-- The grouped count of a state is the number of rows in it, also when no row is. -/
theorem countOf_agentCountsNaive (campaign_id : ℕ) (db : Db) (s : AgentState) :
    countOf (agentCountsNaive campaign_id db) s
      = db.agents.count fun _ a => a.campaign_id == campaign_id && a.state == s := by
  rw [← Table.countP_select]
  unfold countOf agentCountsNaive
  simp only
  generalize db.agents.select (fun _ a => a.campaign_id == campaign_id) = rows
  -- `GROUP BY` gives no pair for a state without rows, and such a state counts as zero
  have hlookup : ∀ l : List AgentState,
      ((l.map fun s => (s, rows.countP fun e => e.2.state == s)).lookup s).getD 0
        = if s ∈ l then rows.countP fun e => e.2.state == s else 0 := by
    intro l
    induction l with
    | nil => rfl
    | cons t l ih =>
      by_cases h : s = t
      · subst h; simp
      · have hb : (s == t) = false := by simpa using h
        simp [List.lookup_cons, hb, h, ih]
  rw [hlookup]
  split
  · rfl
  · rename_i h
    symm
    rw [List.countP_eq_zero]
    intro e he hs
    exact h (List.mem_dedup.mpr (List.mem_map.mpr ⟨e, he, by simpa using hs⟩))

/-- The two snapshots of a campaign agree as soon as the seven columns do. -/
theorem snapshotFast_eq_of_agree {σ : Type} (resolvedStats : ℕ → Db → σ) (campaign_id : ℕ)
    (clock_now : Time) {db : Db} (h : Agree db) :
    snapshotFast resolvedStats campaign_id clock_now db
      = snapshotNaive resolvedStats campaign_id clock_now db := by
  have hget : ∀ k : Counter, k.get ((db.campaign_counters.get? campaign_id).getD
      ⟨0, 0, 0, 0, 0, 0, 0, 0⟩) = k.read db.campaign_counters campaign_id := by
    -- a campaign without a counters row reads zero in both
    intro k
    unfold Counter.read
    cases db.campaign_counters.get? campaign_id with
    | none => cases k <;> rfl
    | some r => rfl
  have hagent : ∀ (k : Counter) (s : AgentState), (∀ t, k.agentIn t = (t == s)) →
      (∀ t, k.callIn t = false) → k.read db.campaign_counters campaign_id
        = countOf (agentCountsNaive campaign_id db) s := by
    intro k s hs hc
    rw [h.reads, countOf_agentCountsNaive]
    simp [counted, hs, hc, Table.count, Bool.beq_eq_decide_eq]
  have hcall : ∀ (k : Counter) (q : CallState → Bool), (∀ t, k.agentIn t = false) →
      (∀ t, k.callIn t = q t) → k.read db.campaign_counters campaign_id
        = (db.calls.select fun _ c => c.campaign_id == campaign_id).countP fun e =>
          q e.2.state := by
    intro k q ha hq
    have hsel := Table.countP_select db.calls (fun _ c => c.campaign_id == campaign_id)
      fun _ c => q c.state
    rw [h.reads, hsel]
    simp [counted, ha, hq, Table.count, Bool.beq_eq_decide_eq]
  unfold snapshotFast snapshotNaive callCountsNaive
  simp only [MetricsSnapshot.mk.injEq, true_and, and_true]
  refine ⟨?_, ?_, ?_, ?_, ?_, ?_, ?_⟩
  · exact (hget .agents_available).trans (hagent _ _ (fun _ => rfl) fun _ => rfl)
  · exact (hget .agents_reserved).trans (hagent _ _ (fun _ => rfl) fun _ => rfl)
  · exact (hget .agents_dialing).trans (hagent _ _ (fun _ => rfl) fun _ => rfl)
  · exact (hget .agents_connected).trans (hagent _ _ (fun _ => rfl) fun _ => rfl)
  · exact (hget .agents_wrapup).trans (hagent _ _ (fun _ => rfl) fun _ => rfl)
  · exact (hget .calls_ringing).trans (hcall _ _ (fun _ => rfl) fun _ => rfl)
  · exact (hget .calls_connected).trans (hcall _ _ (fun _ => rfl) fun _ => rfl)

end MetricsRepo

/-- A column that agrees with the rows is not negative. -/
theorem Agree.get_nonneg {db : Db} (h : Agree db) {c : ℕ} {r : CountersRow}
    (hr : db.campaign_counters.get? c = some r) (k : Counter) : 0 ≤ k.get r := by
  have hread := h.reads k c
  unfold Counter.read at hread
  rw [hr, Option.map_some, Option.getD_some] at hread
  omega

/-- **The fast path refines the plain one.** After any run of statements from empty tables the
    two snapshots of every campaign are equal, and no counter is negative. -/
theorem snapshotFast_eq_snapshotNaive {σ : Type} (resolvedStats : ℕ → Db → σ) (campaign_id : ℕ)
    (clock_now : Time) (stmts : List Stmt) :
    MetricsRepo.snapshotFast resolvedStats campaign_id clock_now (run Stmt.exec Db.empty stmts)
        = MetricsRepo.snapshotNaive resolvedStats campaign_id clock_now
          (run Stmt.exec Db.empty stmts) ∧
      ∀ c r, (run Stmt.exec Db.empty stmts).campaign_counters.get? c = some r →
        0 ≤ r.agents_available ∧ 0 ≤ r.agents_reserved ∧ 0 ≤ r.agents_dialing ∧
          0 ≤ r.agents_connected ∧ 0 ≤ r.agents_wrapup ∧ 0 ≤ r.calls_ringing ∧
            0 ≤ r.calls_connected := by
  have h := agree_run stmts
  refine ⟨MetricsRepo.snapshotFast_eq_of_agree resolvedStats campaign_id clock_now h,
    fun c r hr => ?_⟩
  exact ⟨h.get_nonneg hr .agents_available, h.get_nonneg hr .agents_reserved,
    h.get_nonneg hr .agents_dialing, h.get_nonneg hr .agents_connected,
    h.get_nonneg hr .agents_wrapup, h.get_nonneg hr .calls_ringing,
    h.get_nonneg hr .calls_connected⟩

end SmartDialer
