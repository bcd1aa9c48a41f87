import SmartDialer.Correctness.Feedback

namespace SmartDialer

open Relational CallRepo

/-!
# The pullback sweep

`cancel_excess_ringing` selects its candidates in one transaction and cancels each of them in a
later one.  In between anything may happen to a candidate, so every transaction looks at its call
again.  What the sweep has promised can still be counted on: a candidate no longer rings once its
transaction is over, and nothing starts to ring that has not been dialed.

* `excessRinging_run` — the candidates are the oldest calls in excess.
* `cancelCandidate_sound` — what one transaction does.
* `actions_rings` — what still rings after a sweep.
* `cancelExcessRinging_sound` — sweeps amid any other actions.
-/

/-! ### The sweep -/

/-- A candidate, what happens before its transaction, and when that runs.  A transaction that fails
    on a deadlock has no effect, so the retries are part of what happens before. -/
structure Candidate where
  call_id : ℕ
  meanwhile : List Act
  now : Time

/-- The actions up to the transaction of a candidate, and that transaction. -/
def Candidate.actions (c : Candidate) : List Act := c.meanwhile ++ [.pullback c.now c.call_id]

/-- The loop of `cancel_excess_ringing`. -/
def cancelEach (cfg : Settings) (s : Sys) (cancelled : ℕ) : List Candidate → Sys × ℕ
  | [] => (s, cancelled)
  | c :: cs =>
    let s₁ := run (step cfg) s c.meanwhile
    let cancelled := match (cancelCandidate c.now c.call_id).result s₁.db with
      | some true => cancelled + 1
      | _ => cancelled
    cancelEach cfg (step cfg s₁ (.pullback c.now c.call_id)) cancelled cs

/-- The candidates, with what happens before the transaction of each. -/
def candidates (campaign_id : ℕ) (allowed_ringing : ℤ) (env : ℕ → List Act × Time) (db : Db) :
    List Candidate :=
  (((excessRinging campaign_id allowed_ringing).result db).getD []).mapIdx fun i k =>
    ⟨k, (env i).1, (env i).2⟩

/-- `cancel_excess_ringing`. -/
def cancelExcessRinging (cfg : Settings) (campaign_id : ℕ) (allowed_ringing : ℤ)
    (env : ℕ → List Act × Time) (s : Sys) : Sys × ℕ :=
  cancelEach cfg s 0 (candidates campaign_id allowed_ringing env s.db)

/-- The databases that the transactions find. -/
def visits (cfg : Settings) (s : Sys) : List Candidate → List (Candidate × Db)
  | [] => []
  | c :: cs => (c, (run (step cfg) s c.meanwhile).db) :: visits cfg (run (step cfg) s c.actions) cs

/-- All actions of a sweep. -/
def actions (cs : List Candidate) : List Act := cs.flatMap (·.actions)

/-! ### The selection -/

/-- The oldest ringing calls of a campaign beyond the allowed ones. -/
structure OldestExcess (campaign_id : ℕ) (allowed_ringing : ℤ) (db : Db) (ids : List ℕ) : Prop where
  nodup : ids.Nodup
  rings : ∀ k ∈ ids, db.Rings campaign_id k
  length : (ids.length : ℤ) = max 0 ((ringing campaign_id db).length - allowed_ringing)
  oldest : ∀ k ∈ ids, ∀ j ∉ ids, db.Rings campaign_id j → ∀ c d, db.calls.get? k = some c →
    db.calls.get? j = some d → initiatedBefore c d = true

section

variable {campaign_id : ℕ} {db : Db}

/-- The selection takes the calls of the campaign that ring. -/
theorem mem_ringing {k : ℕ} {c : CallRow} : (k, c) ∈ ringing campaign_id db ↔
    db.calls.get? k = some c ∧ c.campaign_id = campaign_id ∧ c.state.isRinging = true := by
  rw [ringing, Table.mem_select, Bool.and_eq_true, beq_iff_eq]

/-- A call rings exactly when the selection would take it. -/
theorem rings_iff {k : ℕ} :
    db.Rings campaign_id k ↔ k ∈ (ringing campaign_id db).map Prod.fst := by
  rw [List.mem_map]
  constructor
  · rintro ⟨c, hc⟩
    exact ⟨(k, c), mem_ringing.mpr hc, rfl⟩
  · rintro ⟨⟨_, c⟩, hc, rfl⟩
    exact ⟨c, mem_ringing.mp hc⟩

/-- Any two calls can be ordered by when they were initiated. -/
theorem initiatedBefore_total (x y : CallRow) :
    initiatedBefore x y = true ∨ initiatedBefore y x = true := by
  unfold initiatedBefore
  cases x.initiated_at <;> cases y.initiated_at <;> simp [le_total]

/-- The order is transitive, also with calls that were never initiated. -/
theorem initiatedBefore_trans {x y z : CallRow} (hxy : initiatedBefore x y = true)
    (hyz : initiatedBefore y z = true) : initiatedBefore x z = true := by
  revert hxy hyz
  unfold initiatedBefore
  cases x.initiated_at <;> cases y.initiated_at <;> cases z.initiated_at <;> simp
  exact le_trans

/-- The first rows of a sorted selection, and the order between them and the rest. -/
private theorem oldest_of_take (campaign_id : ℕ) (db : Db) (limit : ℕ)
    (hle : limit ≤ (ringing campaign_id db).length) :
    let rows := (ringing campaign_id db).insertionSort fun x y => initiatedBefore x.2 y.2 = true
    let ids := (rows.take limit).map Prod.fst
    ids.Nodup ∧ ids.length = limit ∧ (∀ k ∈ ids, db.Rings campaign_id k) ∧
      ∀ k ∈ ids, ∀ j ∉ ids, db.Rings campaign_id j → ∀ c d, db.calls.get? k = some c →
        db.calls.get? j = some d → initiatedBefore c d = true := by
  intro rows ids
  have hperm : rows.Perm (ringing campaign_id db) := List.perm_insertionSort _ _
  have : Std.Total fun x y : ℕ × CallRow => initiatedBefore x.2 y.2 = true :=
    ⟨fun x y => initiatedBefore_total x.2 y.2⟩
  have : IsTrans (ℕ × CallRow) fun x y => initiatedBefore x.2 y.2 = true :=
    ⟨fun _ _ _ => initiatedBefore_trans⟩
  have hsorted : rows.Pairwise fun x y => initiatedBefore x.2 y.2 = true :=
    List.pairwise_insertionSort _ _
  have hkeys : (rows.map Prod.fst).Nodup :=
    (hperm.map Prod.fst).nodup_iff.mpr (Table.select_nodup _ _)
  have hmem : ∀ {k c}, (k, c) ∈ rows ↔ db.calls.get? k = some c ∧ c.campaign_id = campaign_id ∧
      c.state.isRinging = true := hperm.mem_iff.trans mem_ringing
  refine ⟨hkeys.sublist ((List.take_sublist _ _).map _), ?_, fun k hk => ?_, ?_⟩
  · rw [List.length_map, List.length_take, hperm.length_eq]
    exact min_eq_left hle
  · obtain ⟨⟨_, c⟩, hc, rfl⟩ := List.mem_map.mp hk
    exact ⟨c, hmem.mp (List.mem_of_mem_take hc)⟩
  · rintro k hk j hj ⟨d', hd', hring⟩ c d hc hd
    rw [hd, Option.some.injEq] at hd'
    subst hd'
    obtain ⟨⟨_, c'⟩, hk', rfl⟩ := List.mem_map.mp hk
    have hcc := (hmem.mp (List.mem_of_mem_take hk')).1
    rw [hc, Option.some.injEq] at hcc
    subst hcc
    -- what is not among the first rows is among the later ones
    have hlater : (j, d) ∈ rows.drop limit := by
      have hrow : (j, d) ∈ rows.take limit ++ rows.drop limit := by
        rw [List.take_append_drop]
        exact hmem.mpr ⟨hd, hring⟩
      rcases List.mem_append.mp hrow with hfirst | hlater
      · exact absurd (List.mem_map.mpr ⟨_, hfirst, rfl⟩) hj
      · exact hlater
    rw [← List.take_append_drop limit rows, List.pairwise_append] at hsorted
    exact hsorted.2.2 _ hk' _ hlater

/-- The first transaction selects the oldest calls in excess. -/
theorem excessRinging_run (campaign_id : ℕ) (db : Db) {allowed_ringing : ℤ}
    (h0 : 0 ≤ allowed_ringing) :
    ∃ ids, (excessRinging campaign_id allowed_ringing).run db = .ok (ids, db) ∧
      OldestExcess campaign_id allowed_ringing db ids := by
  have hcount : (countRinging campaign_id).run db =
      .ok ((ringing campaign_id db).length, db) := rfl
  unfold excessRinging
  rw [Txn.run_bind_of_ok hcount]
  by_cases hexcess : max 0 (((ringing campaign_id db).length : ℤ) - allowed_ringing) = 0
  · -- nothing is in excess, and the function returns before its query
    refine ⟨[], by simp only [hexcess, if_true]; rfl, List.nodup_nil, ?_, by rw [hexcess]; rfl, ?_⟩
    · intro k hk
      cases hk
    · intro k hk
      cases hk
  · obtain ⟨hnodup, hlen, hrings, holdest⟩ := oldest_of_take campaign_id db
      (max 0 (((ringing campaign_id db).length : ℤ) - allowed_ringing)).toNat (by omega)
    refine ⟨_, by simp only [hexcess, if_false]; rfl, hnodup, hrings, ?_, holdest⟩
    rw [hlen]
    omega

end

/-! ### One transaction -/

/-- The transaction makes the call of its candidate `CANCELLED`. -/
def Candidate.cancels (c : Candidate) (db : Db) : Bool :=
  let state := fun db : Db => (db.calls.get? c.call_id).map (·.state)
  state db != some .CANCELLED &&
    state ((cancelCandidate c.now c.call_id).commit db) == some .CANCELLED

/-- The transaction has no effect, or it cancels a call that nobody has answered and that has not
    ended, releases its agent and reschedules its borrower once. -/
def Candidate.Sound (c : Candidate) (db : Db) : Prop :=
  (c.cancels db = false ∧ (cancelCandidate c.now c.call_id).commit db = db) ∨
  (c.cancels db = true ∧ ∃ row, db.calls.get? c.call_id = some row ∧ row.state.isRinging = true ∧
    row.answered_at = none ∧ row.terminal_at = none ∧
    ((cancelCandidate c.now c.call_id).commit db).view =
      ((db.view.setCall c.call_id row (cancelledRow c.now "SAFETY_PULLBACK")).setAgentOf
        row.agent_id (AgentRepo.forcedRow c.now .AVAILABLE none none none)).setBorrower
          row.borrower_id (BorrowerRepo.rescheduledRow c.now (secs 30)))

section

variable {db : Db}

/-- A transaction cancels exactly the calls that ring when it runs. -/
theorem Candidate.cancels_iff (c : Candidate) : c.cancels db = true ↔
    ∃ row, db.calls.get? c.call_id = some row ∧ row.state.isRinging = true := by
  unfold cancels
  simp only [cancelCandidate_calls, Table.get?_modify]
  cases hrow : db.calls.get? c.call_id with
  | none => simp
  | some row =>
    cases hs : row.state.isRinging with
    | true =>
      -- a ringing row is not CANCELLED yet, so the count sees the change
      have hne : row.state ≠ .CANCELLED := by
        intro heq
        rw [heq] at hs
        cases hs
      simp [hs, hne, cancelledRow]
    | false => simp [hs]

/-- What the loop counts. -/
theorem Candidate.result_eq (c : Candidate) :
    (cancelCandidate c.now c.call_id).result db = some (c.cancels db) := by
  obtain ⟨b, db', hrun, hcases⟩ := cancelCandidate_run c.now c.call_id db
  rw [(Txn.commit_of_run hrun).2]
  congr 1
  rcases hcases with ⟨rfl, rfl⟩ | ⟨row, hrow, hs, rfl, _⟩
  · -- without an effect nothing becomes `CANCELLED`
    symm
    unfold cancels
    rw [(Txn.commit_of_run hrun).1]
    simp
  · exact (c.cancels_iff.mpr ⟨row, hrow, hs⟩).symm

/-- **One transaction.** -/
theorem cancelCandidate_sound (h : db.Unanswered) (c : Candidate) : c.Sound db := by
  obtain ⟨b, db', hrun, hcases⟩ := cancelCandidate_run c.now c.call_id db
  obtain ⟨hcommit, hresult⟩ := Txn.commit_of_run hrun
  rw [c.result_eq, Option.some.injEq] at hresult
  unfold Candidate.Sound
  rw [hcommit]
  rcases hcases with ⟨rfl, rfl⟩ | ⟨row, hrow, hs, rfl, hview⟩
  · exact Or.inl ⟨hresult, rfl⟩
  · obtain ⟨ref, hun⟩ := h _ row hrow hs
    exact Or.inr ⟨hresult, row, hrow, hs, hun.answered_at, hun.terminal_at, hview⟩

end

/-! ### The loop -/

section

variable (cfg : Settings) (s : Sys)

/-- The actions of the first candidate come first. -/
@[simp] theorem actions_cons (c : Candidate) (cs : List Candidate) :
    actions (c :: cs) = c.actions ++ actions cs := List.flatMap_cons

/-- What happens up to a candidate, and then its pullback. -/
theorem run_candidate_actions (c : Candidate) : run (step cfg) s c.actions =
    step cfg (run (step cfg) s c.meanwhile) (.pullback c.now c.call_id) :=
  run_concat s c.meanwhile _

/-- The loop is the run of all its actions, and it returns the number of calls it has cancelled. -/
theorem cancelEach_eq (cancelled : ℕ) (cs : List Candidate) : cancelEach cfg s cancelled cs =
    (run (step cfg) s (actions cs),
      cancelled + (visits cfg s cs).countP fun v => v.1.cancels v.2) := by
  induction cs generalizing s cancelled with
  | nil => rfl
  | cons c cs ih =>
    unfold cancelEach visits
    rw [actions_cons, run_append, run_candidate_actions]
    simp only
    rw [ih, c.result_eq, List.countP_cons]
    cases c.cancels (run (step cfg) s c.meanwhile).db with
    | true => simp only [if_true, Nat.add_assoc, Nat.add_comm 1]
    | false => rfl

/-- The transactions run one for each candidate. -/
theorem visits_fst (cs : List Candidate) : (visits cfg s cs).map (·.1) = cs := by
  induction cs generalizing s with
  | nil => rfl
  | cons c cs ih => rw [visits, List.map_cons, ih]

variable {cfg s}

/-- What holds in all states of the system holds in those that the transactions find. -/
theorem visits_run (cfg : Settings) {I : Sys → Prop} (hI : ∀ s a, I s → I (step cfg s a)) (hs : I s)
    (cs : List Candidate) : ∀ v ∈ visits cfg s cs, ∃ s', I s' ∧ v.2 = s'.db := by
  induction cs generalizing s with
  | nil =>
    intro v hv
    cases hv
  | cons c cs ih =>
    rw [visits, List.forall_mem_cons]
    exact ⟨⟨_, invariant_run hI hs _, rfl⟩, ih (invariant_run hI hs _)⟩

/-- **What still rings.** While nothing is dialed, it rang before the sweep and was no candidate. -/
theorem actions_rings (h : s.Live) {cs : List Candidate}
    (hcs : Along (step cfg) (Sys.DialsNone cfg) s (actions cs)) {campaign_id k : ℕ}
    (hk : (run (step cfg) s (actions cs)).db.Rings campaign_id k) :
    s.db.Rings campaign_id k ∧ ∀ c ∈ cs, c.call_id ≠ k := by
  induction cs generalizing s with
  | nil => exact ⟨hk, fun c hc => by cases hc⟩
  | cons c cs ih =>
    rw [actions_cons, run_append] at hk
    rw [actions_cons, along_append] at hcs
    obtain ⟨hmeanwhile, hrest⟩ := hcs
    have hlive : (run (step cfg) s c.actions).Live :=
      invariant_run (I := Sys.Live) (fun _ a h => live_step cfg h a) h _
    obtain ⟨hafter, hothers⟩ := ih hlive hrest hk
    rw [run_candidate_actions] at hafter
    obtain ⟨hne, hbefore⟩ := (cancelCandidate_rings _ _ _ _ _).mp hafter
    have hfirst := (along_append.mp hmeanwhile).1
    -- before the transaction nothing has started to ring
    have hback : s.Live ∧ (s.db.Rings campaign_id k → s.db.Rings campaign_id k) := ⟨h, id⟩
    have hrang := invariant_along (I := fun s' : Sys => s'.Live ∧
      (s'.db.Rings campaign_id k → s.db.Rings campaign_id k))
      (fun s' a hs' ha => ⟨live_step cfg hs'.1 a, fun hr => hs'.2 (step_rings cfg hs'.1 ha hr)⟩)
      hback hfirst
    refine ⟨hrang.2 hbefore, List.forall_mem_cons.mpr ⟨fun heq => hne heq.symm, hothers⟩⟩

/-- Without anything in between, every candidate is still ringing when its transaction runs. -/
theorem actions_undisturbed (cfg : Settings) (s : Sys) {cs : List Candidate}
    (hcs : ∀ c ∈ cs, c.meanwhile = [])
    (hnodup : (cs.map (·.call_id)).Nodup)
    (hring : ∀ k ∈ cs.map (·.call_id), ∃ row, s.db.calls.get? k = some row ∧
      row.state.isRinging = true) :
    (visits cfg s cs).countP (fun v => v.1.cancels v.2) = cs.length ∧
      ∀ k row, s.db.calls.get? k = some row →
        (k ∉ cs.map (·.call_id) →
          (run (step cfg) s (actions cs)).db.calls.get? k = some row) ∧
        (k ∈ cs.map (·.call_id) → ∃ now, (run (step cfg) s (actions cs)).db.calls.get? k =
          some (cancelledRow now "SAFETY_PULLBACK" row)) := by
  induction cs generalizing s with
  | nil => exact ⟨rfl, fun k row hrow => ⟨fun _ => hrow, fun hk => by cases hk⟩⟩
  | cons c cs ih =>
    rw [List.map_cons, List.nodup_cons] at hnodup
    rw [List.map_cons, List.forall_mem_cons] at hring
    obtain ⟨hfirst, hothers⟩ := hring
    obtain ⟨row, hrow, hs⟩ := hfirst
    have hnone : c.meanwhile = [] := hcs c List.mem_cons_self
    have hvisit : run (step cfg) s c.actions = step cfg s (.pullback c.now c.call_id) := by
      rw [run_candidate_actions, hnone]
      rfl
    -- with nothing in between, a candidate's turn is the one UPDATE of its own row
    have hcalls : (run (step cfg) s c.actions).db.calls =
        s.db.calls.alter c.call_id (cancelledRow c.now "SAFETY_PULLBACK") := by
      rw [hvisit, ← Table.modify_key_of_pos (g := fun d => d.state.isRinging) _ hrow hs]
      exact cancelCandidate_calls c.now c.call_id s.db
    -- so the other candidates are found as they were selected
    have hsame : ∀ k, k ≠ c.call_id →
        (run (step cfg) s c.actions).db.calls.get? k = s.db.calls.get? k := by
      intro k hk
      rw [hcalls, Table.get?_alter, if_neg hk]
    obtain ⟨hcount, hrows⟩ := ih (s := run (step cfg) s c.actions)
      (fun d hd => hcs d (List.mem_cons_of_mem _ hd)) hnodup.2 (by
        intro k hk
        rw [hsame k fun heq => hnodup.1 (heq ▸ hk)]
        exact hothers k hk)
    have hcancels : c.cancels (run (step cfg) s c.meanwhile).db = true := by
      rw [hnone]
      exact c.cancels_iff.mpr ⟨row, hrow, hs⟩
    refine ⟨?_, fun k r hr => ?_⟩
    · rw [visits, List.countP_cons_of_pos (by exact hcancels), hcount, List.length_cons]
    · rw [actions_cons, run_append, List.map_cons, List.mem_cons]
      by_cases hk : k = c.call_id
      · rw [hk, hrow, Option.some.injEq] at hr
        have hafter : (run (step cfg) s c.actions).db.calls.get? k =
            some (cancelledRow c.now "SAFETY_PULLBACK" r) := by
          rw [hcalls, Table.get?_alter, if_pos hk, hrow, ← hr]
          rfl
        refine ⟨fun hnot => absurd (Or.inl hk) hnot, fun _ => ⟨c.now, ?_⟩⟩
        exact (hrows k _ hafter).1 (hk ▸ hnodup.1)
      · rw [← hsame k hk] at hr
        obtain ⟨hkept, hended⟩ := hrows k r hr
        exact ⟨fun hnot => hkept fun hmem => hnot (Or.inr hmem),
          fun hmem => hended (hmem.resolve_left hk)⟩

end

/-! ### Whole sweeps -/

/-- The candidates are the selected calls. -/
theorem candidates_ids {campaign_id : ℕ} {allowed_ringing : ℤ} {db : Db} {ids : List ℕ}
    (h : (excessRinging campaign_id allowed_ringing).run db = .ok (ids, db))
    (env : ℕ → List Act × Time) :
    (candidates campaign_id allowed_ringing env db).map (·.call_id) = ids := by
  rw [candidates, (Txn.commit_of_run h).2, Option.getD_some]
  apply List.ext_getElem <;> simp

/-- What rings after a sweep is within the bound. -/
theorem length_ringing_le {campaign_id : ℕ} {allowed_ringing : ℤ} {db db' : Db} {ids : List ℕ}
    (hids : OldestExcess campaign_id allowed_ringing db ids)
    (h : ∀ k, db'.Rings campaign_id k → db.Rings campaign_id k ∧ k ∉ ids) :
    ((ringing campaign_id db').length : ℤ) ≤ allowed_ringing := by
  have hnodup : ((ringing campaign_id db').map Prod.fst ++ ids).Nodup := by
    apply List.Nodup.append (Table.select_nodup _ _) hids.nodup
    intro k hk hk'
    exact (h k (rings_iff.mpr hk)).2 hk'
  have hsub : (ringing campaign_id db').map Prod.fst ++ ids ⊆
      (ringing campaign_id db).map Prod.fst := by
    intro k hk
    rcases List.mem_append.mp hk with hring | hcand
    · exact rings_iff.mp (h k (rings_iff.mpr hring)).1
    · exact rings_iff.mp (hids.rings k hcand)
  -- what still rings and what was selected are disjoint parts of what rang before
  have hlen := (hnodup.subperm hsub).length_le
  rw [List.length_append, List.length_map, List.length_map] at hlen
  have hexcess := hids.length
  omega

/-- A sweep amid any other actions, none of which dials a call: each of its transactions cancels a
    call that nobody has answered and reschedules the borrower, or has no effect; no call has two
    transactions; the sweep returns the number of calls that its transactions have cancelled; and
    at its end no more calls ring than are allowed.  Undisturbed, it cancels exactly the oldest
    calls in excess. -/
theorem cancelExcessRinging_sound (cfg : Settings) (pre : List Act) (campaign_id : ℕ)
    (allowed_ringing : ℤ) (h0 : 0 ≤ allowed_ringing) (env : ℕ → List Act × Time) :
    let s := run (step cfg) Sys.init pre
    let cs := candidates campaign_id allowed_ringing env s.db
    let out := cancelExcessRinging cfg campaign_id allowed_ringing env s
    Along (step cfg) (Sys.DialsNone cfg) s (actions cs) →
    (∀ v ∈ visits cfg s cs, v.1.Sound v.2) ∧
    ((visits cfg s cs).map (·.1.call_id)).Nodup ∧
    out.2 = (visits cfg s cs).countP (fun v => v.1.cancels v.2) ∧
    ((ringing campaign_id out.1.db).length : ℤ) ≤ allowed_ringing ∧
    ((∀ i, (env i).1 = []) → ∃ ids, OldestExcess campaign_id allowed_ringing s.db ids ∧
      out.2 = ids.length ∧ ∀ k row, s.db.calls.get? k = some row →
        (k ∉ ids → out.1.db.calls.get? k = some row) ∧
        (k ∈ ids → ∃ now, out.1.db.calls.get? k =
          some (cancelledRow now "SAFETY_PULLBACK" row))) := by
  intro s cs out halong
  obtain ⟨ids, hrun, hids⟩ := excessRinging_run campaign_id s.db h0
  have hcands : cs.map (·.call_id) = ids := candidates_ids hrun env
  have hout : out = (run (step cfg) s (actions cs),
      (visits cfg s cs).countP fun v => v.1.cancels v.2) := by
    show cancelEach cfg s 0 cs = _
    rw [cancelEach_eq, Nat.zero_add]
  refine ⟨?_, ?_, by rw [hout], ?_, fun henv => ⟨ids, hids, ?_⟩⟩
  · -- in every state of the system the calls that ring have not been answered
    intro v hv
    obtain ⟨s', ⟨acts, rfl⟩, hdb⟩ := visits_run cfg
      (I := fun s' => ∃ acts, s' = run (step cfg) Sys.init acts)
      (fun _ a ⟨acts, hs⟩ => ⟨acts ++ [a], by rw [hs, run_concat]⟩) ⟨pre, rfl⟩ cs v hv
    rw [hdb]
    exact cancelCandidate_sound (unanswered_run cfg acts) v.1
  · have hfst : (visits cfg s cs).map (·.1.call_id) = cs.map (·.call_id) := by
      rw [← visits_fst cfg s cs, List.map_map, visits_fst]
      rfl
    rw [hfst, hcands]
    exact hids.nodup
  · rw [hout]
    apply length_ringing_le hids
    intro k hk
    obtain ⟨hbefore, hothers⟩ := actions_rings (live_run cfg pre) halong hk
    refine ⟨hbefore, ?_⟩
    rw [← hcands, List.mem_map]
    rintro ⟨c, hc, heq⟩
    exact hothers c hc heq
  · have hnone : ∀ c ∈ cs, c.meanwhile = [] := by
      intro c hc
      obtain ⟨i, _, rfl⟩ := List.mem_mapIdx.mp hc
      exact henv i
    obtain ⟨hcount, hrows⟩ := actions_undisturbed cfg s hnone
      (hcands ▸ hids.nodup) (by
        intro k hk
        obtain ⟨row, hrow, _, hs⟩ := hids.rings k (hcands ▸ hk)
        exact ⟨row, hrow, hs⟩)
    rw [hout]
    refine ⟨?_, fun k row hrow => ?_⟩
    · rw [← hcands, List.length_map]
      exact hcount
    · rw [← hcands]
      exact hrows k row hrow

/-- Two calls that have been dialed. -/
def twoDialed : List Act :=
  dialedRun ++ [.createAgent (secs 2) 7 "ext-2", .login (secs 2) 2,
    .seed (secs 2) 7 "+15550002" 100 3,
    .reserveAndCreate (secs 2) (secs 2) [] [] (some "mock") "w1" 7, .placeCall 2,
    .accepted (secs 3) (secs 3) 2 "pc-2"]

/-- The older call is answered before its transaction. -/
def answeredFirst (i : ℕ) : List Act × Time :=
  if i = 0 then
    ([.ingest (secs 4) "mock" "e-1" (some "pc-1") "answered" (secs 4) "", .fetch (secs 5) 1 200,
      .read (secs 5) 1, .commit 1], secs 6)
  else ([], secs 7)

/-- Of two candidates one is answered in time, and only the other is cancelled. -/
theorem cancelExcessRinging_sound_answeredFirst :
    let out := cancelExcessRinging .default 7 0 answeredFirst
      (run (step .default) Sys.init twoDialed)
    ((ringing 7 out.1.db).length : ℤ) ≤ 0 ∧ out.2 = 1 ∧
      (out.1.db.calls.get? 1).map (·.state) = some .CONNECTED ∧
      (out.1.db.calls.get? 2).map (·.state) = some .CANCELLED :=
  ⟨(cancelExcessRinging_sound .default twoDialed 7 0 (by decide) answeredFirst
    (by decide +kernel)).2.2.2.1, by decide +kernel, by decide +kernel, by decide +kernel⟩

end SmartDialer
