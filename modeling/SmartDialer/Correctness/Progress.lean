import SmartDialer.Lib.History
import SmartDialer.System
import SmartDialer.Correctness.CallRows

namespace SmartDialer

open Relational

/-!
# Transactions make progress

Four statements with different guards write the rows of `calls`, and the table of legal
transitions is consulted only on a read that may be stale by the time of the write.  What makes
the guards sufficient is that the rows are settled between two transactions and that a planned
event concerns a call that has been dialed and claims neither `INITIATED` nor `CONNECTED`
(`Planned.Valid`).

* `View.Healthy` — the history of `calls` is a chain of legal transitions, its rows are settled.
* `View.Progress` — what every transaction does: it keeps this, and loses or revives no call.
* `related_applyPlan` — the induction over the writes of a drain that later modules reuse.
-/

/-! ### Views -/

namespace View

/-- The row images form legal chains, and every stored row is settled. -/
structure Healthy (v : View) : Prop where
  history : History CallRow.Edge v.calls v.versions
  images : ∀ e ∈ v.versions, e.2.Ok
  settled : ∀ i c, v.calls.get? i = some c → c.Settled

/-- Every call is still there, as a later image of itself. -/
def Evolves (v v' : View) : Prop :=
  ∀ i c, v.calls.get? i = some c → ∃ c', v'.calls.get? i = some c' ∧ c.Evolves c'

/-- Where nothing happens, every call is an image of itself. -/
theorem Evolves.refl (v : View) : v.Evolves v := fun _ c hc => ⟨c, hc, .refl c⟩

/-- Calls evolve across any number of transactions. -/
theorem Evolves.trans {v₁ v₂ v₃ : View} (h₁ : v₁.Evolves v₂) (h₂ : v₂.Evolves v₃) :
    v₁.Evolves v₃ := by
  intro i c hc
  obtain ⟨c', hc', h⟩ := h₁ i c hc
  obtain ⟨c'', hc'', h'⟩ := h₂ i c' hc'
  exact ⟨c'', hc'', h.trans h'⟩

/-- From a healthy view the transaction leads to a healthy one, and the calls evolve. -/
def Progress (v v' : View) : Prop := v.Healthy → v'.Healthy ∧ v.Evolves v'

/-- Doing nothing is progress. -/
theorem Progress.refl (v : View) : v.Progress v := fun h => ⟨h, .refl v⟩

/-- Progress composes, the second half starting from the healthy view that the first one leaves. -/
theorem Progress.trans {v₁ v₂ v₃ : View} (h₁ : v₁.Progress v₂) (h₂ : v₂.Progress v₃) :
    v₁.Progress v₃ := by
  intro h
  obtain ⟨hh, he⟩ := h₁ h
  obtain ⟨hh', he'⟩ := h₂ hh
  exact ⟨hh', he.trans he'⟩

/-- What does not touch `calls` makes progress. -/
theorem Progress.of_calls_eq {v v' : View} (hc : v'.calls = v.calls)
    (hv : v'.versions = v.versions) : v.Progress v' := by
  intro h
  refine ⟨⟨?_, ?_, ?_⟩, ?_⟩
  · rw [hc, hv]; exact h.history
  · rw [hv]; exact h.images
  · rw [hc]; exact h.settled
  · unfold Evolves
    rw [hc]
    exact Evolves.refl v

/-- One row moves along a legal edge to a settled row. -/
theorem Progress.setCall {v : View} {i : ℕ} {c : CallRow} {f : CallRow → CallRow}
    (hc : v.calls.get? i = some c)
    (hf : c.Settled → c.Edge (f c) ∧ (f c).Settled ∧ c.Evolves (f c)) :
    v.Progress (v.setCall i c f) := by
  intro h
  obtain ⟨hedge, hset, hevo⟩ := hf (h.settled i c hc)
  -- the history of images, the rows in it, the rows as they stand, and their evolution
  refine ⟨⟨h.history.alter hc hedge, ?_, ?_⟩, ?_⟩
  · intro e he
    rcases List.mem_append.mp he with he | he
    · exact h.images e he
    · rw [List.mem_singleton.mp he]; exact hset.toOk
  · intro j d hd
    rcases Table.cases_of_get?_alter hc hd with ⟨rfl, rfl⟩ | ⟨_, hd₀⟩
    · exact hset
    · exact h.settled j d hd₀
  · intro j d hd
    rw [setCall_calls, Table.get?_alter]
    split
    · rename_i hj
      subst hj
      rw [hc, Option.some.injEq] at hd
      subst hd
      exact ⟨f c, by rw [hc]; rfl, hevo⟩
    · exact ⟨d, hd, .refl d⟩

/-- One row moves along two legal edges in a row; the image in between need not be settled. -/
theorem Progress.setCall_setCall {v : View} {i : ℕ} {c : CallRow} {f g : CallRow → CallRow}
    (hc : v.calls.get? i = some c)
    (hf : c.Settled → c.Edge (f c) ∧ (f c).Ok ∧ (f c).Edge (g (f c)) ∧ (g (f c)).Settled ∧
      c.Evolves (g (f c))) :
    v.Progress ((v.setCall i c f).setCall i (f c) g) := by
  intro h
  obtain ⟨hedge, hok, hedge', hset, hevo⟩ := hf (h.settled i c hc)
  -- the second statement meets the row that the first has just written
  have hc' : (v.calls.alter i f).get? i = some (f c) := by simp [hc]
  refine ⟨⟨(h.history.alter hc hedge).alter hc' hedge', ?_, ?_⟩, ?_⟩
  · intro e he
    simp only [setCall_versions, List.mem_append, List.mem_singleton] at he
    rcases he with (he | rfl) | rfl
    · exact h.images e he
    · exact hok
    · exact hset.toOk
  · intro j d hd
    rw [setCall_calls, setCall_calls, Table.get?_alter] at hd
    split at hd
    · rw [hc', Option.map_some, Option.some.injEq] at hd
      exact hd ▸ hset
    · rename_i hj
      rw [Table.get?_alter, if_neg hj] at hd
      exact h.settled j d hd
  · intro j d hd
    rw [setCall_calls, setCall_calls, Table.get?_alter]
    split
    · rename_i hj
      subst hj
      rw [hc, Option.some.injEq] at hd
      subst hd
      exact ⟨g (f c), by rw [hc']; rfl, hevo⟩
    · rename_i hj
      exact ⟨d, by rw [Table.get?_alter, if_neg hj, hd], .refl d⟩

/-- A settled row is inserted. -/
theorem Progress.push {v v' : View} {c : CallRow} (hset : c.Settled)
    (hc : v'.calls = v.calls.push c) (hv : v'.versions = v.versions ++ [(v.calls.nextId, c)]) :
    v.Progress v' := by
  intro h
  refine ⟨⟨?_, ?_, ?_⟩, ?_⟩
  · rw [hc, hv]; exact h.history.push c
  · intro e he
    rw [hv] at he
    rcases List.mem_append.mp he with he | he
    · exact h.images e he
    · rw [List.mem_singleton.mp he]; exact hset.toOk
  · intro j d hd
    rw [hc, Table.get?_push] at hd
    split at hd
    · cases hd; exact hset
    · exact h.settled j d hd
  · intro j d hd
    exact ⟨d, by rw [hc, Table.get?_push, if_neg (Table.ne_nextId hd), hd], .refl d⟩

end View

/-! ### Transactions -/

/-- The reservation of an agent and a borrower creates one call at most. -/
theorem Allocated.progress {now : Time} {lockedBorrowers : List ℕ} {worker : String}
    {campaign_id : ℕ} {lease : Time} {db : Db} {o : Option Reservation} {v : View}
    (h : Allocated now lockedBorrowers worker campaign_id lease db o v) : db.view.Progress v := by
  cases h with
  | noAgent => exact .refl _
  | noBorrower => exact .of_calls_eq rfl rfl
  | noProvider => exact .of_calls_eq rfl rfl
  | created => exact .push (CallRepo.settled_createdRow ..) rfl rfl

/-- A rank below six is a rank that the failure transaction may end. -/
private theorem failed_mem_legalNext {c : CallRow} (h : c.Settled) (hrank : c.state_rank < 6) :
    CallState.FAILED ∈ legalNext c.state :=
  legalNext_terminal (not_isTerminal_iff.mpr (h.rank_eq ▸ hrank)) rfl

/-- The transaction after a `ProviderError`: the call fails if it is still there to fail, and the
    rest writes to no call. -/
theorem recordRejected_progress (now : Time) (r : Reservation) (db : Db) :
    db.view.Progress ((recordRejected now r).commit db).view := by
  obtain ⟨db₁, db', hrun, hview, hcall⟩ := recordRejected_run now r db
  rw [(Txn.commit_of_run hrun).1, hview]
  have hfail : db.view.Progress db₁.view := by
    rcases hcall with ⟨rfl, _⟩ | ⟨c, hc, hrank, hv⟩
    · exact .refl _
    · rw [hv]
      refine .setCall hc fun hset => ?_
      have hs := failed_mem_legalNext hset hrank
      exact ⟨hs, CallRepo.settled_advancedRow hset.toSound hs (by decide) _ _ _ _
          (fun h => by cases h),
        CallRepo.evolves_advancedRow hs _ _ _ _⟩
  exact hfail.trans (.of_calls_eq rfl rfl)

/-- Only a reserved call is below the rank of `INITIATED`. -/
private theorem initiated_mem_legalNext {c : CallRow} (h : c.Settled) (hrank : c.state_rank < 2) :
    CallState.INITIATED ∈ legalNext c.state := by
  rw [h.rank_eq] at hrank
  have hq := h.not_queued
  cases hs : c.state <;> rw [hs] at hrank hq <;>
    first | decide | exact absurd rfl hq | exact absurd hrank (by decide)

/-- The transaction after an accepted call: `ADVANCE` may find that it comes too late, and then
    writes nothing. -/
theorem recordInitiated_progress (now : Time) (r : Reservation) (pcid worker : String)
    (dial_lease : Time) (db : Db) :
    db.view.Progress ((recordInitiated now r pcid worker dial_lease).commit db).view := by
  rcases Txn.commit_cases (recordInitiated now r pcid worker dial_lease) db with
    ⟨_, hrun, _⟩ | ⟨h, _⟩
  swap
  · -- a reference that another call carries rolls the transaction back
    rw [h]; exact .refl _
  obtain ⟨db₁, hview, hcall⟩ := recordInitiated_cases hrun
  rw [hview]
  have hdial : db.view.Progress db₁.view := by
    rcases hcall with ⟨rfl, _⟩ | ⟨c, hc, hrank, hv⟩
    · exact .refl _
    · rw [hv]
      refine .setCall hc fun hset => ?_
      have hs := initiated_mem_legalNext hset hrank
      exact ⟨hs, CallRepo.settled_advancedRow hset.toSound hs (by decide) _ _ _ _ (fun _ => rfl),
        CallRepo.evolves_advancedRow hs _ _ _ _⟩
  exact hdial.trans (.of_calls_eq rfl rfl)

/-- A pullback cancels a call that still rings, or does nothing. -/
theorem cancelCandidate_progress (now : Time) (call_id : ℕ) (db : Db) :
    db.view.Progress ((cancelCandidate now call_id).commit db).view := by
  obtain ⟨b, db', hrun, hcall⟩ := cancelCandidate_run now call_id db
  rw [(Txn.commit_of_run hrun).1]
  rcases hcall with ⟨_, rfl⟩ | ⟨c, hc, hs, _, hv⟩
  · exact .refl _
  · have hl := live_of_isRinging hs
    have hcancel : db.view.Progress
        (db.view.setCall call_id c (CallRepo.cancelledRow now "SAFETY_PULLBACK")) :=
      .setCall hc fun hset => ⟨legalNext_terminal hl rfl, CallRepo.settled_cancelledRow hset _ _,
        CallRepo.evolves_cancelledRow hl _ _⟩
    rw [hv]
    exact hcancel.trans (.of_calls_eq (by simp) (by simp))

/-- Failing an orphan is a legal end of a live call. -/
theorem View.failOrphan_progress (now : Time) {now_ts : Time} {v : View} {e : ℕ × CallRow}
    (hc : v.calls.get? e.1 = some e.2) (ho : isOrphan now_ts e.2 = true) :
    v.Progress (v.failOrphan now e) := by
  have hl := live_of_isOrphan ho
  have hfail : v.Progress (v.setCall e.1 e.2 (orphanedRow now)) :=
    .setCall hc fun hset =>
      ⟨legalNext_terminal hl rfl, settled_orphanedRow hset _, evolves_orphanedRow hl _⟩
  exact hfail.trans (.of_calls_eq (by simp [failOrphan]) (by simp [failOrphan]))

/-- A round of the reaper fails its orphans one by one, and the rest of it writes to no call. -/
theorem View.reap_progress (now now_ts : Time) (v : View) : v.Progress (v.reap now now_ts) := by
  have horphans := View.foldl_failOrphan_induction now now_ts (I := fun v' => v.Progress v')
    (fun v' e hv' hc _ ho => hv'.trans (View.failOrphan_progress now hc ho)) (.refl v)
  rw [View.reap_eq]
  exact horphans.trans (.of_calls_eq rfl rfl)

/-! ### Events -/

/-- A planned event that passed its check concerns a call that has been dialed, and claims a
    state that a drain can apply. -/
def Planned.Valid (v : View) (p : Planned) : Prop :=
  ∀ call_id incoming, p.read = .passed call_id incoming →
    (incoming = .RINGING ∨ incoming = .ANSWERED ∨ incoming.isTerminal = true) ∧
      ∃ c, v.calls.get? call_id = some c ∧ c.provider_call_id.isSome = true

/-- A plan stays valid while the calls evolve. -/
theorem Planned.Valid.mono {v v' : View} {p : Planned} (h : p.Valid v) (hv : v.Evolves v') :
    p.Valid v' := by
  intro call_id incoming hread
  obtain ⟨hi, c, hc, href⟩ := h call_id incoming hread
  obtain ⟨c', hc', hevo⟩ := hv call_id c hc
  exact ⟨hi, c', hc', by rw [hevo.ref href]; exact href⟩

/-- The provider references of all calls are as before. -/
def View.KeepsRefs (v v' : View) : Prop :=
  ∀ i, (v'.calls.get? i).map (·.provider_call_id) = (v.calls.get? i).map (·.provider_call_id)

/-- References are kept across any number of writes. -/
theorem View.KeepsRefs.trans {v₁ v₂ v₃ : View} (h₁ : v₁.KeepsRefs v₂) (h₂ : v₂.KeepsRefs v₃) :
    v₁.KeepsRefs v₃ := fun i => (h₂ i).trans (h₁ i)

/-- A write that leaves the reference of its row keeps all references. -/
theorem View.KeepsRefs.setCall {v : View} {i : ℕ} {c : CallRow} {f : CallRow → CallRow}
    (hc : v.calls.get? i = some c) (hf : (f c).provider_call_id = c.provider_call_id) :
    v.KeepsRefs (v.setCall i c f) := by
  intro j
  rw [setCall_calls, Table.get?_alter]
  split
  · rename_i hj
    rw [hj, hc, Option.map_some, Option.map_some, Option.map_some, hf]
  · rfl

/-- **`apply_one`, second half.** From a valid read the write moves the call along a legal edge,
    however stale the read is. -/
theorem Applied.progress {now : Time} {p : Planned} {clock_now wrapup : Time} {db : Db}
    {o : Option CallState} {v : View} (h : Applied now p.event clock_now wrapup db p.read o v)
    (hp : p.Valid db.view) : db.view.Progress v ∧ db.view.KeepsRefs v := by
  generalize hread : p.read = read at h
  cases h with
  | unknown => exact ⟨.of_calls_eq rfl rfl, fun _ => rfl⟩
  | raised => exact ⟨.refl _, fun _ => rfl⟩
  | refused => exact ⟨.of_calls_eq rfl rfl, fun _ => rfl⟩
  | lost => exact ⟨.of_calls_eq rfl rfl, fun _ => rfl⟩
  | @moved call_id incoming c hi hc hrank =>
    obtain ⟨hin, c', hc', href⟩ := hp call_id incoming hread
    rw [Db.view_calls, hc, Option.some.injEq] at hc'
    subst hc'
    -- the edge is legal from the row of the write: the rank guard is enough for a dialed call
    have hadv : db.view.Progress (db.view.setCall call_id c (CallRepo.advancedRow now incoming
        p.event.2.provider_call_id none none)) := by
      refine .setCall hc fun hset => ?_
      have hs := legalNext_of_rank hset.not_queued (hset.dialed href) hset.not_answered hin
        (hset.rank_eq ▸ hrank)
      refine ⟨hs, CallRepo.settled_advancedRow hset.toSound hs hi _ _ _ _ ?_,
        CallRepo.evolves_advancedRow hs _ _ _ _⟩
      rintro rfl
      rcases hin with h | h | h <;> cases h
    have hrefs : db.view.KeepsRefs (db.view.setCall call_id c (CallRepo.advancedRow now incoming
        p.event.2.provider_call_id none none)) := .setCall hc (Option.or_of_isSome href)
    exact ⟨hadv.trans (.of_calls_eq (by simp) (by simp)), fun i => by simpa using hrefs i⟩
  | @bridged call_id c answered next hc hrank ha hn =>
    obtain ⟨hin, c', hc', href⟩ := hp call_id .ANSWERED hread
    rw [Db.view_calls, hc, Option.some.injEq] at hc'
    subst hc'
    have hnext : next ∈ legalNext .ANSWERED ∧ next ≠ .ANSWERED ∧ next ≠ .INITIATED := by
      rw [hn]; unfold bridgeState; split <;> decide
    have hadv : db.view.Progress ((db.view.setCall call_id c (CallRepo.advancedRow now .ANSWERED
        p.event.2.provider_call_id none none)).setCall call_id answered
          (CallRepo.advancedRow now next none none none)) := by
      subst ha
      refine .setCall_setCall hc fun hset => ?_
      have hs := legalNext_of_rank hset.not_queued (hset.dialed href) hset.not_answered
        (Or.inr (Or.inl rfl)) (hset.rank_eq ▸ hrank)
      have hsound := CallRepo.sound_advancedRow hset.toSound hs now
        p.event.2.provider_call_id none none (fun h => by cases h)
      exact ⟨hs, hsound.toOk, hnext.1,
        CallRepo.settled_advancedRow hsound hnext.1 hnext.2.1 _ _ _ _ (fun h => absurd h hnext.2.2),
        (CallRepo.evolves_advancedRow hs _ _ _ _).trans
          (CallRepo.evolves_advancedRow hnext.1 _ _ _ _)⟩
    -- neither write of the bridge changes a reference that is set
    have hrefs₁ : db.view.KeepsRefs (db.view.setCall call_id c (CallRepo.advancedRow now .ANSWERED
        p.event.2.provider_call_id none none)) := .setCall hc (Option.or_of_isSome href)
    have hrefs₂ : (db.view.setCall call_id c (CallRepo.advancedRow now .ANSWERED
        p.event.2.provider_call_id none none)).KeepsRefs ((db.view.setCall call_id c
          (CallRepo.advancedRow now .ANSWERED p.event.2.provider_call_id none none)).setCall call_id
            answered (CallRepo.advancedRow now next none none none)) := by
      refine .setCall (by simp [hc, ha]) (Option.or_none ..)
    have hrefs := hrefs₁.trans hrefs₂
    exact ⟨hadv.trans (.of_calls_eq (by simp) (by simp)), fun i => by simpa using hrefs i⟩

/-- **Plans.** A relation that every valid write keeps, from a healthy view, relates the views
    before and after a valid plan. -/
theorem related_applyPlan {R : View → View → Prop} (hr : ∀ v, R v v)
    (ht : ∀ a b c, R a b → R b c → R a c) {cfg : Settings} {now : Time}
    (hstep : ∀ (p : Planned) (db : Db) o v, db.view.Healthy → p.Valid db.view →
      Applied now p.event p.clock_now (secs cfg.wrapup_s) db p.read o v → R db.view v)
    {plan : List Planned} {db db' : Db} {moved : List (ℕ × CallState)} (hh : db.view.Healthy)
    (hp : ∀ p ∈ plan, p.Valid db.view) (h : (applyPlan cfg now plan).run db = .ok (moved, db')) :
    R db.view db'.view ∧ db'.view.Healthy ∧ db.view.Evolves db'.view := by
  induction plan generalizing db moved with
  | nil =>
    obtain ⟨_, rfl⟩ := Txn.run_pure_ok.mp h
    exact ⟨hr _, hh, .refl _⟩
  | cons p plan ih =>
    obtain ⟨o, db₁, rest, h₁, h₂, _⟩ := applyPlan_cons h
    have happ := applyOneWrite_cases h₁
    have hvalid := hp p (by simp)
    obtain ⟨hh₁, he₁⟩ := (happ.progress hvalid).1 hh
    obtain ⟨hR, hh₂, he₂⟩ := ih hh₁ (fun q hq => (hp q (by simp [hq])).mono he₁) h₂
    exact ⟨ht _ _ _ (hstep p db o _ hh hvalid happ) hR, hh₂, he₁.trans he₂⟩

/-- The writes of a drain make progress together, each from the view that the last one left. -/
theorem applyPlan_progress {cfg : Settings} {now : Time} {plan : List Planned} {db db' : Db}
    {moved : List (ℕ × CallState)} (hp : ∀ p ∈ plan, p.Valid db.view)
    (h : (applyPlan cfg now plan).run db = .ok (moved, db')) : db.view.Progress db'.view :=
  fun hh => (related_applyPlan (R := fun _ _ => True) (fun _ => trivial)
    (fun _ _ _ _ _ => trivial) (fun _ _ _ _ _ _ _ => trivial) hh hp h).2

/-- The write of a valid planned event does not fail. -/
theorem Planned.Valid.applyOneWrite_run {p : Planned} {db : Db} (hp : p.Valid db.view)
    (now clock_now wrapup : Time) :
    ∃ o db', (applyOneWrite now p.event p.read clock_now wrapup).run db = .ok (o, db') := by
  obtain ⟨o, db', hrun, _⟩ := SmartDialer.applyOneWrite_run now p.event p.read clock_now wrapup db
    fun call_id incoming hread => CallRepo.advance_total now call_id incoming _ none none db
      fun r hr => Or.inr <| by
        obtain ⟨_, c, hc, href⟩ := hp call_id incoming hread
        rw [Db.view_calls, hr, Option.some.injEq] at hc
        rw [hc]
        exact href
  exact ⟨o, db', hrun⟩

/-- A valid plan does not fail. -/
theorem applyPlan_total (cfg : Settings) (now : Time) {plan : List Planned} {db : Db}
    (hh : db.view.Healthy) (hp : ∀ p ∈ plan, p.Valid db.view) :
    ∃ moved db', (applyPlan cfg now plan).run db = .ok (moved, db') := by
  induction plan generalizing db with
  | nil => exact ⟨[], db, rfl⟩
  | cons p plan ih =>
    have hvalid := hp p (by simp)
    obtain ⟨o, db₁, h₁⟩ := hvalid.applyOneWrite_run now p.clock_now (secs cfg.wrapup_s)
    obtain ⟨hh₁, he₁⟩ := ((applyOneWrite_cases h₁).progress hvalid).1 hh
    obtain ⟨rest, db₂, h₂⟩ := ih hh₁ fun q hq => (hp q (by simp [hq])).mono he₁
    rw [applyPlan, Txn.run_bind_of_ok h₁, Txn.run_bind_of_ok h₂]
    exact ⟨_, db₂, rfl⟩

/-- A drain up to its commit makes progress, whether it commits or fails. -/
theorem commitDrain_progress {cfg : Settings} {d : Drain} {db : Db}
    (hp : ∀ p ∈ d.plan, p.Valid db.view) :
    db.view.Progress ((commitDrain cfg d).commit db).view := by
  rcases Txn.commit_cases (commitDrain cfg d) db with ⟨moved, hrun, _⟩ | ⟨h, _⟩
  · obtain ⟨db₁, h₁, hv⟩ := commitDrain_run hrun
    rw [hv]
    exact (applyPlan_progress hp h₁).trans (.of_calls_eq rfl rfl)
  · rw [h]; exact .refl _

/-- What a drain reads over its own valid writes makes a valid plan. -/
theorem read_valid {cfg : Settings} {now : Time} {plan : List Planned} {db : Db} {ev : ℕ × EventRow}
    {clock_now : Time} {r : ReadResult} (hh : db.view.Healthy) (hp : ∀ p ∈ plan, p.Valid db.view)
    (h : (applyOneRead ev.2).result ((applyPlan cfg now plan).commit db) = some r) :
    Planned.Valid db.view ⟨ev, clock_now, r⟩ := by
  -- the database that the read sees: the plan applied, or the one before if the plan fails
  obtain ⟨db₁, hdb₁, hh₁, hrefs⟩ : ∃ db₁, (applyPlan cfg now plan).commit db = db₁ ∧
      db₁.view.Healthy ∧ db.view.KeepsRefs db₁.view := by
    rcases Txn.commit_cases (applyPlan cfg now plan) db with ⟨moved, hrun, _⟩ | ⟨hc, _⟩
    · obtain ⟨hk, hh₁, _⟩ := related_applyPlan (R := View.KeepsRefs) (fun _ _ => rfl)
        (fun _ _ _ => View.KeepsRefs.trans) (fun p db o v _ hv ha => (ha.progress hv).2) hh hp hrun
      exact ⟨_, rfl, hh₁, hk⟩
    · exact ⟨db, hc, hh, fun _ => rfl⟩
  rw [hdb₁] at h
  obtain ⟨o, hget, hspec⟩ := CallRepo.getByProviderRef_run ev.2.provider ev.2.provider_call_id db₁
  intro call_id incoming hread
  simp only at hread
  subst hread
  unfold applyOneRead Txn.result at h
  rw [Txn.run_bind_of_ok hget] at h
  cases o with
  | none => cases h
  | some call =>
    obtain ⟨hcall, _, href, hsome⟩ := hspec call rfl
    simp only at h
    cases hof : CallState.ofString? (mapProviderEvent ev.2.event_type) with
    | none => rw [hof] at h; cases h
    | some inc =>
      rw [hof] at h
      cases hcan : (canApply call.2.state inc).1 with
      | false => simp only [hcan] at h; cases h
      | true =>
        simp only [hcan] at h
        cases h
        have hlegal := canApply_iff.mp hcan
        have hset := hh₁.settled call.1 call.2 hcall
        refine ⟨?_, ?_⟩
        · -- a dialed call has left `RESERVED`, and nothing passes the check into `CONNECTED`
          have hdial := hset.dialed (by rw [href]; exact hsome)
          have hq := hset.not_queued
          have ha := hset.not_answered
          cases hs : call.2.state <;> cases incoming <;> rw [hs] at hlegal hdial hq ha <;>
            simp_all [legalNext, terminal, rank, terminalRank, CallState.isTerminal]
        · -- the call is dialed before the plan as well, which changes no reference
          have hback := hrefs call.1
          rw [Db.view_calls, hcall, Option.map_some] at hback
          obtain ⟨c, hc, hcref⟩ := Option.map_eq_some_iff.mp hback.symm
          exact ⟨c, hc, by rw [hcref, href]; exact hsome⟩

end SmartDialer
