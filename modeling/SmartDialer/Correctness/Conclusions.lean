import SmartDialer.Correctness.Desertion
import SmartDialer.Correctness.Records

namespace SmartDialer

open Relational

/-!
# No end of a call is lost

A drain takes an event off the ledger also if it refuses it, since the call is further on.  For the
event that reports the end of a call this is safe only if the call has ended by then, and what the
drain has read may include its own writes, which an agent that leaves can still change.

* `Concludes` — a plan ends a call, whoever leaves before its writes; `concludes_read` has it from
  the read of an end.
* `DrainsAlone` — while a drain is open nobody else writes to the calls.
* `Sys.Concluded` — the invariant: the call of an applied end has ended; `concluded_step` keeps it.
-/

/-! ### Reads -/

/-- An event that reports the end of a call passes its check, unless the call has ended. -/
theorem applyOneRead_ends {ev : EventRow} {db : Db} {r : ReadResult}
    (h : (applyOneRead ev).result db = some r) {k : ℕ} (hk : r.call_id = some k)
    {incoming : CallState} (hin : ev.incoming = some incoming)
    (ht : incoming.isTerminal = true) :
    r = .passed k incoming ∨
      ∃ c, db.calls.get? k = some c ∧ c.state.isTerminal = true ∧ ∃ x, r = .refused k x := by
  obtain ⟨o, hget, hspec⟩ := CallRepo.getByProviderRef_run ev.provider ev.provider_call_id db
  unfold applyOneRead Txn.result at h
  rw [Txn.run_bind_of_ok hget] at h
  unfold EventRow.incoming at hin
  cases o with
  | none => cases h; cases hk
  | some call =>
    simp only [hin] at h
    cases hcan : (canApply call.2.state incoming).1 with
    | true =>
      simp only [hcan] at h
      cases h
      cases hk
      exact Or.inl rfl
    | false =>
      simp only [hcan] at h
      cases h
      cases hk
      refine Or.inr ⟨call.2, (hspec call rfl).1, ?_, _, rfl⟩
      by_contra hlive
      rw [Bool.not_eq_true] at hlive
      -- a live call would have let the end pass
      rw [canApply_iff.mpr (legalNext_terminal hlive ht)] at hcan
      cases hcan

/-! ### Plans -/

section

variable {cfg : Settings} {now : Time} {plan rest : List Planned} {k : ℕ} {v v' : View}

/-- A plan in two parts. -/
theorem applyPlan_append {db db' : Db} {moved : List (ℕ × CallState)}
    (h : (applyPlan cfg now (plan ++ rest)).run db = .ok (moved, db')) :
    ∃ db₁ log log', (applyPlan cfg now plan).run db = .ok (log, db₁) ∧
      (applyPlan cfg now rest).run db₁ = .ok (log', db') := by
  induction plan generalizing db moved with
  | nil => exact ⟨db, [], moved, rfl, h⟩
  | cons p plan ih =>
    obtain ⟨o, db₁, later, h₁, h₂, _⟩ := applyPlan_cons h
    obtain ⟨db₂, log, log', hplan, hrest⟩ := ih h₂
    obtain ⟨log₂, hcons⟩ : ∃ log₂, (applyPlan cfg now (p :: plan)).run db = .ok (log₂, db₂) := by
      rw [applyPlan, Txn.run_bind_of_ok h₁, Txn.run_bind_of_ok hplan]
      exact ⟨_, rfl⟩
    exact ⟨db₂, log₂, log', hcons, hrest⟩

/-- After these writes the call has ended, whoever leaves before them. -/
def Concludes (cfg : Settings) (now : Time) (plan : List Planned) (k : ℕ) (v : View) : Prop :=
  ∀ (db db₁ : Db) (moved : List (ℕ × CallState)), v.Deserted db.view → db.view.Healthy →
    (∀ p ∈ plan, p.Valid db.view) → (applyPlan cfg now plan).run db = .ok (moved, db₁) →
    ∃ c, db₁.calls.get? k = some c ∧ c.state.isTerminal = true

/-- Agents may leave, by other hands, before the writes are made. -/
theorem Concludes.mono (h : Concludes cfg now plan k v) (hd : v.Deserted v') :
    Concludes cfg now plan k v' := fun db db₁ moved hd' => h db db₁ moved (hd.trans hd')

/-- A terminal row has the highest rank, and only such a row. -/
private theorem View.Healthy.ends (hh : v.Healthy) {c : CallRow} (hc : v.calls.get? k = some c) :
    c.state.isTerminal = true ↔ 6 ≤ c.state_rank := by
  rw [(hh.settled k c hc).rank_eq]
  exact isTerminal_iff

/-- The read of a drain for the end of a call: with the writes that follow from it, the call has
    ended. -/
theorem concludes_read {db : Db} {ev : ℕ × EventRow} {clock_now : Time} {r : ReadResult}
    (hh : db.view.Healthy) (hp : ∀ p ∈ plan, p.Valid db.view)
    (h : (applyOneRead ev.2).result ((applyPlan cfg now plan).commit db) = some r)
    (hk : r.call_id = some k) {incoming : CallState} (hin : ev.2.incoming = some incoming)
    (ht : incoming.isTerminal = true) :
    Concludes cfg now (plan ++ [⟨ev, clock_now, r⟩]) k db.view := by
  intro db' db₁' moved hd hh' hp' hrun'
  obtain ⟨log, db₁, hrun⟩ := applyPlan_total cfg now hh hp
  obtain ⟨db₂', _, log', hplan', hlast⟩ := applyPlan_append hrun'
  obtain ⟨o, db₃', rest, hone, hnil, _⟩ := applyPlan_cons hlast
  obtain ⟨_, rfl⟩ := Txn.run_pure_ok.mp hnil
  have happ := applyOneWrite_cases hone
  -- both runs of the plan leave healthy calls, and related ones
  have hpre : ∀ p ∈ plan, p.Valid db'.view := fun p hq => hp' p (List.mem_append_left _ hq)
  obtain ⟨hh₁, _⟩ := applyPlan_progress hp hrun hh
  obtain ⟨hh₂', he₂'⟩ := applyPlan_progress hpre hplan' hh'
  have hvalid := (hp' _ (List.mem_append_right plan (List.mem_singleton.mpr rfl))).mono he₂'
  obtain ⟨hh₃', he₃'⟩ := (happ.progress hvalid).1 hh₂'
  have hdes := applyPlan_deserted hh hh' hp hpre hd hrun hplan'
  rw [(Txn.commit_of_run hrun).1] at h
  rcases applyOneRead_ends h hk hin ht with rfl | ⟨c, hc, hterm, _⟩
  · obtain ⟨_, c', hc', _⟩ := hvalid k incoming rfl
    obtain ⟨c'', hc'', _, hrank⟩ := happ.ranks hc'
    refine ⟨c'', hc'', (hh₃'.ends hc'').mpr ?_⟩
    rcases hrank with ⟨s, hs, hr⟩ | ⟨hno, _⟩
    · obtain rfl := (ReadResult.passed.inj hs).2
      have hne : incoming ≠ .ANSWERED := by rintro rfl; cases ht
      rw [hr, rankAfter, if_neg hne]
      have h6 := isTerminal_iff.mp ht
      split <;> omega
    · exact absurd rfl (hno incoming)
  · obtain ⟨c', hc', _, hcase⟩ := hdes.calls k c hc
    have h6 := (hh₁.ends hc).mp hterm
    have hterm' : c'.state.isTerminal = true := by
      rw [hh₂'.ends hc']
      rcases hcase with hsame | ⟨_, h6', _⟩
      · omega
      · exact h6'
    obtain ⟨c'', hc'', hevo⟩ := he₃' k c' hc'
    rw [hevo.terminal hterm'] at hc''
    exact ⟨c', hc'', hterm'⟩

/-- The commit of a drain: what an event of the plan concludes, the whole plan does. -/
theorem Concludes.committed {pre post : List Planned} {db db₁ : Db} {moved : List (ℕ × CallState)}
    (h : Concludes cfg now pre k db.view) (hh : db.view.Healthy)
    (hp : ∀ p ∈ pre ++ post, p.Valid db.view)
    (hrun : (applyPlan cfg now (pre ++ post)).run db = .ok (moved, db₁)) :
    ∃ c, db₁.calls.get? k = some c ∧ c.state.isTerminal = true := by
  obtain ⟨db₂, _, _, hpre, hpost⟩ := applyPlan_append hrun
  have hvalid : ∀ p ∈ pre, p.Valid db.view := fun p hq => hp p (List.mem_append_left _ hq)
  obtain ⟨c, hc, hterm⟩ := h db db₂ _ (.refl _) hh hvalid hpre
  obtain ⟨hh₂, he₂⟩ := applyPlan_progress hvalid hpre hh
  obtain ⟨_, he⟩ := applyPlan_progress
    (fun p hq => (hp p (List.mem_append_right _ hq)).mono he₂) hpost hh₂
  obtain ⟨c', hc', hevo⟩ := he k c hc
  rw [hevo.terminal hterm] at hc'
  exact ⟨c, hc', hterm⟩

end

/-! ### Marks -/

/-- The marks of a row are the ones that it had, or they have been given a reason. -/
structure EventRow.MarkedBy (named : ℕ → Prop) (unknown : Prop) (e e' : EventRow) : Prop where
  unmarked : e'.unmarked = e.unmarked
  named : ∀ k, e'.call_id = some k → e.call_id = some k ∨ named k
  unknown : e'.anomaly = some .UNKNOWN_CALL → e.anomaly = some .UNKNOWN_CALL ∨ unknown

/-- A row that was not written has the marks that it had. -/
theorem EventRow.MarkedBy.refl {named : ℕ → Prop} {unknown : Prop} (e : EventRow) :
    MarkedBy named unknown e e := ⟨rfl, fun _ => Or.inl, Or.inl⟩

/-- A refusal does not say that the call is unknown. -/
def ReadResult.Known (read : ReadResult) : Prop :=
  ∀ k anomaly, read = .refused k anomaly →
    anomaly = some .OUT_OF_ORDER ∨ anomaly = some .ILLEGAL_TRANSITION

/-- Where the marks of a ledger row come from. -/
theorem Applied.marks {now clock_now wrapup : Time} {p : Planned} {db : Db}
    {o : Option CallState} {v : View} (h : Applied now p.event clock_now wrapup db p.read o v)
    (hx : p.read.Known) {i : ℕ} {e' : EventRow} (he' : v.provider_events.get? i = some e') :
    ∃ e, db.provider_events.get? i = some e ∧
      e.MarkedBy (fun k => p.event.1 = i ∧ p.read.call_id = some k)
        (p.event.1 = i ∧ p.read = .unknown) e' := by
  -- the row of the event gets the mark, and no other row
  have hmark : ∀ {applied anomaly call_id},
      v.provider_events = db.provider_events.alter p.event.1
        (EventRepo.markedRow applied anomaly call_id) →
      (∀ k, call_id = some k → p.read.call_id = some k) →
      (anomaly = some .UNKNOWN_CALL → p.read = .unknown) →
      ∃ e, db.provider_events.get? i = some e ∧
        e.MarkedBy (fun k => p.event.1 = i ∧ p.read.call_id = some k)
          (p.event.1 = i ∧ p.read = .unknown) e' := by
    intro applied anomaly call_id hevents hcall hanomaly
    rw [hevents, Table.get?_alter] at he'
    by_cases hi : i = p.event.1
    · rw [if_pos hi] at he'
      obtain ⟨e, he, rfl⟩ := Option.map_eq_some_iff.mp he'
      refine ⟨e, by rw [hi]; exact he, rfl, fun k hk => ?_,
        fun hu => Or.inr ⟨hi.symm, hanomaly hu⟩⟩
      change e.call_id.or call_id = some k at hk
      rcases Option.or_eq_some_iff.mp hk with hk | ⟨_, hk⟩
      · exact Or.inl hk
      · exact Or.inr ⟨hi.symm, hcall k hk⟩
    · rw [if_neg hi] at he'
      exact ⟨e', he', .refl e'⟩
  generalize p.read = read at h hx hmark ⊢
  cases h with
  | unknown => exact hmark rfl (fun k hk => by cases hk) fun _ => rfl
  | raised => exact ⟨e', he', .refl e'⟩
  | @refused call_id anomaly =>
    refine hmark rfl (fun k hk => hk) fun hu => ?_
    rcases hx call_id anomaly rfl with rfl | rfl <;> cases hu
  | lost => exact hmark rfl (fun k hk => hk) fun hu => by cases hu
  | @moved call_id | @bridged call_id =>
    have hevents : ∀ w : View, w.provider_events = db.provider_events →
        (w.setEvent p.event.1 (EventRepo.markedRow true none (some call_id))).provider_events =
          db.provider_events.alter p.event.1 (EventRepo.markedRow true none (some call_id)) :=
      fun w hw => by rw [View.setEvent_provider_events, hw]
    refine hmark (hevents _ ?_) (fun k hk => hk) fun hu => by cases hu
    exact View.sideEffects_provider_events ..

/-- The same for a plan: a mark comes from one of its events. -/
theorem applyPlan_marks {cfg : Settings} {now : Time} {plan : List Planned} {db db' : Db}
    {moved : List (ℕ × CallState)} (hx : ∀ p ∈ plan, p.read.Known)
    (h : (applyPlan cfg now plan).run db = .ok (moved, db')) {i : ℕ} {e' : EventRow}
    (he' : db'.provider_events.get? i = some e') :
    ∃ e, db.provider_events.get? i = some e ∧
      e.MarkedBy (fun k => ∃ pre p post, plan = pre ++ p :: post ∧ p.event.1 = i ∧
          p.read.call_id = some k)
        (∃ p ∈ plan, p.event.1 = i ∧ p.read = .unknown) e' := by
  induction plan generalizing db moved with
  | nil =>
    obtain ⟨_, rfl⟩ := Txn.run_pure_ok.mp h
    exact ⟨e', he', .refl e'⟩
  | cons p plan ih =>
    obtain ⟨o, db₁, rest, hone, hplan, _⟩ := applyPlan_cons h
    obtain ⟨e₁, he₁, h₁⟩ := ih (fun q hq => hx q (by simp [hq])) hplan
    obtain ⟨e, he, h₀⟩ := (applyOneWrite_cases hone).marks (hx p (by simp)) he₁
    refine ⟨e, he, h₁.unmarked.trans h₀.unmarked, fun k hk => ?_, fun hu => ?_⟩
    · -- the mark is of the first write, or of a later one
      rcases h₁.named k hk with hk | ⟨pre, q, post, rfl, hq⟩
      · exact (h₀.named k hk).imp_right fun hp => ⟨[], p, plan, rfl, hp⟩
      · exact Or.inr ⟨p :: pre, q, post, rfl, hq⟩
    · rcases h₁.unknown hu with hu | ⟨q, hq, hi⟩
      · exact (h₀.unknown hu).imp_right fun hp => ⟨p, by simp, hp⟩
      · exact Or.inr ⟨q, by simp [hq], hi⟩

/-- What the commit of a drain leaves of the marks; giving up on an event adds none. -/
theorem commitDrain_marks {cfg : Settings} {now : Time} {plan : List Planned} {db db₁ db' : Db}
    {moved : List (ℕ × CallState)} (hx : ∀ p ∈ plan, p.read.Known)
    (hplan : (applyPlan cfg now plan).run db = .ok (moved, db₁))
    (hview : db'.view = { db₁.view with
      provider_events := db₁.provider_events.modify (fun _ e => EventRepo.isGivenUp now e)
        EventRepo.givenUpRow }) {i : ℕ} {e' : EventRow}
    (he' : db'.provider_events.get? i = some e') :
    ∃ e, db.provider_events.get? i = some e ∧
      e.MarkedBy (fun k => ∃ pre p post, plan = pre ++ p :: post ∧ p.event.1 = i ∧
          p.read.call_id = some k)
        (∃ p ∈ plan, p.event.1 = i ∧ p.read = .unknown) e' := by
  rw [← Db.view_provider_events, hview] at he'
  obtain ⟨e₁, he₁, heq⟩ := Table.exists_of_get?_modify he'
  obtain ⟨e, he, hmarks⟩ := applyPlan_marks hx hplan he₁
  refine ⟨e, he, ?_⟩
  -- giving up on a row neither names a call nor changes the anomaly
  split at heq <;> subst heq
  · exact ⟨hmarks.unmarked, hmarks.named, hmarks.unknown⟩
  · exact hmarks

/-! ### Actions -/

/-- The action writes to no call, and nobody begins to dial. -/
def Act.calm : Act → Bool
  | .createAgent .. | .login .. | .logout .. | .pause .. | .seed .. | .placeCall .. | .abandon ..
  | .ingest .. | .fetch .. | .read .. | .rollback .. => true
  | .reserveAndCreate .. | .rejected .. | .accepted .. | .pullback .. | .reap .. | .commit .. =>
    false

/-- A calm action leaves every call as it was, and nobody begins to dial. -/
theorem step_calm (cfg : Settings) (s : Sys) {a : Act} (ha : a.calm = true) :
    s.db.view.Deserted (step cfg s a).db.view := by
  -- the staff's own actions leave nobody dialing
  have hset : ∀ (agent_id : ℕ) (now : Time) (state : AgentState) {v : View},
      v.calls = s.db.calls →
      v.agents = s.db.agents.alter agent_id (AgentRepo.forcedRow now state none none none) →
      state ≠ .DIALING → s.db.view.Deserted v := by
    intro agent_id now state v hcalls hagents hstate
    refine .of_calls hcalls fun i a' ha' hs => ?_
    rw [hagents, Table.get?_alter] at ha'
    split at ha'
    · obtain ⟨a, _, rfl⟩ := Option.map_eq_some_iff.mp ha'
      exact absurd hs hstate
    · exact ha'
  cases a with
  | reserveAndCreate | rejected | accepted | pullback | reap | commit => cases ha
  | createAgent now campaign_id ext_ref =>
    rw [step, Sys.exec_db]
    rcases Txn.commit_cases (AgentRepo.create now campaign_id ext_ref) s.db with
      ⟨i, hrun, _⟩ | ⟨hc, _⟩
    · rw [insertAgent_run hrun]
      refine .of_calls rfl fun i a' ha' hs => ?_
      rcases Table.cases_of_get?_push ha' with ⟨_, rfl⟩ | hold
      · cases hs
      · exact hold
    · rw [hc]
      exact .refl _
  | login now agent_id =>
    exact hset agent_id now .AVAILABLE rfl rfl (by decide)
  | logout now agent_id =>
    exact hset agent_id now .OFFLINE rfl rfl (by decide)
  | pause now agent_id =>
    exact hset agent_id now .PAUSED rfl rfl (by decide)
  | seed now campaign_id phone priority max_attempts =>
    obtain ⟨db', hrun, hv⟩ := BorrowerRepo.seed_run now campaign_id phone priority max_attempts s.db
    rw [step, Sys.exec_db, (Txn.commit_of_run hrun).1]
    rcases hv with hv | hv <;> rw [hv] <;> exact .of_calls rfl fun _ _ ha _ => ha
  | placeCall call_id =>
    rw [step, Sys.placeCall_db]
    exact .refl _
  | abandon | rollback => exact .refl _
  | ingest now provider event_id call_ref etype ts payload =>
    obtain ⟨o, db', hrun, hv⟩ := EventRepo.ingest_run now provider event_id call_ref etype ts
      payload s.db
    rw [step, Sys.exec_db, (Txn.commit_of_run hrun).1]
    rcases hv with ⟨_, _, hv⟩ | ⟨_, _, rfl⟩
    · rw [hv]
      exact .of_calls rfl fun _ _ ha _ => ha
    · exact .refl _
  | fetch now w limit =>
    obtain ⟨rows, hs, _⟩ := s.fetch_cases now w limit
    rw [step, hs]
    exact .refl _
  | read clock_now w =>
    rw [step]
    rcases s.read_cases cfg clock_now w with ⟨_, _, _, _, _, _, _, hs⟩ | hs <;> rw [hs] <;>
      exact .refl _

/-- While a drain is open, nobody else writes to the calls or opens another one. -/
def DrainsAlone (s : Sys) (a : Act) : Prop :=
  ∀ w d, s.drains.get? w = some d →
    match a with
    | .fetch _ w' _ | .commit w' => w' = w
    | .accepted .. | .rejected .. => s.attempts.rows = []
    | .reserveAndCreate .. | .pullback .. | .reap .. => False
    | _ => True

/-- Then only the commit of the drain can end a call. -/
theorem DrainsAlone.deserted (cfg : Settings) {s : Sys} {a : Act} (h : DrainsAlone s a) {w : ℕ}
    {d : Drain} (hw : s.drains.get? w = some d) (ha : ∀ w, a ≠ .commit w) :
    s.db.view.Deserted (step cfg s a).db.view := by
  have hguard := h w d hw
  cases a with
  | commit w' => exact absurd rfl (ha w')
  | reserveAndCreate | pullback | reap => exact hguard.elim
  | accepted now clock_now call_id pcid =>
    rcases s.settle_cases call_id fun a =>
        recordInitiated now a.reservation pcid a.worker (dialUntil clock_now cfg) with
      ⟨att, hatt, _⟩ | hs
    · -- no allocation is in flight while the drain is open
      exact absurd hatt (Table.rows_eq_nil_iff.mp hguard call_id att)
    · rw [step, hs]
      exact .refl _
  | rejected now call_id =>
    rcases s.settle_cases call_id fun a => recordRejected now a.reservation with
      ⟨att, hatt, _⟩ | hs
    · exact absurd hatt (Table.rows_eq_nil_iff.mp hguard call_id att)
    · rw [step, hs]
      exact .refl _
  | createAgent | login | logout | pause | seed | placeCall | abandon | ingest | fetch | read
  | rollback => exact step_calm cfg s rfl

/-! ### The invariant -/

/-- What a drain has planned for the end of a call ends the call. -/
def Drain.Concludes (cfg : Settings) (d : Drain) (v : View) : Prop :=
  ∀ pre p post, d.plan = pre ++ p :: post → ∀ k incoming, p.read.call_id = some k →
    p.event.2.incoming = some incoming → incoming.isTerminal = true →
    SmartDialer.Concludes cfg d.now (pre ++ [p]) k v

/-- If the event reports the end of a call, the call that it names has ended. -/
def EventRow.Concluded (calls : Table CallRow) (e : EventRow) : Prop :=
  ∀ k incoming, e.call_id = some k → e.incoming = some incoming → incoming.isTerminal = true →
    ∃ c, calls.get? k = some c ∧ c.state.isTerminal = true

/-- With one drain at a time, a row that names a call and reports its end names a call that has
    ended. -/
structure Sys.Concluded (cfg : Settings) (s : Sys) : Prop where
  alone : ∀ w w' d d', s.drains.get? w = some d → s.drains.get? w' = some d' → w = w'
  plans : ∀ w d, s.drains.get? w = some d → d.Concludes cfg s.db.view
  rows : ∀ i e, s.db.provider_events.get? i = some e → e.Concluded s.db.calls

/-- The ledger is empty, and no drain is open. -/
theorem concluded_init (cfg : Settings) : Sys.init.Concluded cfg :=
  ⟨fun _ _ _ _ h => (by cases h), fun _ _ h => (by cases h), fun _ _ h => by cases h⟩

section

variable (cfg : Settings) {s : Sys}

/-- The event of a row that a step keeps has been concluded. -/
private theorem EventRow.Concluded.kept {e e' : EventRow} (h : e.Concluded s.db.calls)
    (hl : s.Live) (a : Act) (hsame : e'.unmarked = e.unmarked) {k : ℕ} (hk : e.call_id = some k)
    {incoming : CallState} (hin : e'.incoming = some incoming) (ht : incoming.isTerminal = true) :
    ∃ c, (step cfg s a).db.calls.get? k = some c ∧ c.state.isTerminal = true := by
  rw [EventRow.incoming_of_unmarked hsame] at hin
  obtain ⟨c, hc, hterm⟩ := h k incoming hk hin ht
  obtain ⟨c', hc', hevo⟩ := (step_progress cfg hl a hl.healthy).2 k c hc
  rw [hevo.terminal hterm] at hc'
  exact ⟨c, hc', hterm⟩

/-- The commit of a drain. -/
private theorem Sys.Concluded.commit (hacc : s.Accounted) (h : s.Concluded cfg) (w : ℕ) :
    (step cfg s (.commit w)).Concluded cfg := by
  rcases s.commit_cases cfg w with ⟨now, plan, hw, _, hs⟩ | hs
  · have hrows : ∀ i e', (step cfg s (.commit w)).db.provider_events.get? i = some e' →
        e'.Concluded (step cfg s (.commit w)).db.calls := by
      intro i e' he' k incoming hk hin ht
      have hkept : ∀ {e : EventRow}, e.Concluded s.db.calls → e'.unmarked = e.unmarked →
          e.call_id = some k → e'.incoming = some incoming → incoming.isTerminal = true →
          ∃ c, (step cfg s (.commit w)).db.calls.get? k = some c ∧ c.state.isTerminal = true :=
        fun he hsame hk hin ht => he.kept cfg hacc.kept.live (.commit w) hsame hk hin ht
      rcases Txn.commit_cases (commitDrain cfg ⟨now, [], plan⟩) s.db with ⟨moved, hrun, _⟩ | ⟨hc, _⟩
      · obtain ⟨db₁, hplan, hview⟩ := commitDrain_run hrun
        have hready := hacc.ready hw
        have hdb : (step cfg s (.commit w)).db
            = (commitDrain cfg ⟨now, [], plan⟩).commit s.db := by rw [step, hs]
        rw [hdb] at he'
        obtain ⟨e, he, hmarks⟩ := commitDrain_marks (fun p hp _ _ => (hready p hp).cites.known)
          hplan hview he'
        rcases hmarks.named k hk with hold | ⟨pre, p, post, rfl, hp, hread⟩
        · exact hkept (h.rows i e he) hmarks.unmarked hold hin ht
        · -- the event of the plan is the one of this row
          obtain ⟨e₀, he₀, _, hsame⟩ := (hready p (by simp)).row
          rw [hp, Db.view_provider_events, he, Option.some.injEq] at he₀
          rw [EventRow.incoming_of_unmarked (hmarks.unmarked.trans (he₀ ▸ hsame))] at hin
          have hends := h.plans w _ hw pre p post rfl k incoming hread hin ht
          rw [List.append_cons] at hplan hready
          obtain ⟨c, hc, hterm⟩ := hends.committed hacc.kept.live.healthy
            (fun q hq => (hready q hq).valid) hplan
          refine ⟨c, ?_, hterm⟩
          rw [hdb, ← Db.view_calls, hview]
          exact hc
      · have hdb : (step cfg s (.commit w)).db = s.db := by
          rw [step, hs]
          exact hc
        rw [hdb] at he'
        exact hkept (h.rows i e' he') rfl hk hin ht
    refine ⟨fun w₁ w₂ d₁ d₂ h₁ h₂ => ?_, fun w' d hd => ?_, hrows⟩
    · rw [step, hs] at h₁ h₂
      exact h.alone w₁ w₂ d₁ d₂ (Table.get?_of_get?_erase h₁).2 (Table.get?_of_get?_erase h₂).2
    · rw [step, hs] at hd
      obtain ⟨hne, hold⟩ := Table.get?_of_get?_erase hd
      exact absurd (h.alone w' w d _ hold hw) hne
  · rw [step, hs]
    exact h

/-- **Step.** -/
theorem concluded_step (hacc : s.Accounted) (h : s.Concluded cfg) {a : Act}
    (ha : DrainsAlone s a) : (step cfg s a).Concluded cfg := by
  by_cases hno : ∀ w, a ≠ .commit w
  · refine ⟨fun w w' d d' hw hw' => ?_, fun w d hw pre p post hplan k incoming hk hin ht => ?_,
      fun i e' he' k incoming hk hin ht => ?_⟩
    · -- a drain that has just been opened is the only one
      have hopen : ∀ {w d}, (step cfg s a).drains.get? w = some d →
          (∃ d₀, s.drains.get? w = some d₀) ∨ ∃ now limit, a = .fetch now w limit := by
        intro w d hw
        rcases step_drain cfg hw with hold | ⟨now, limit, _, hf, _⟩ | ⟨_, _, _, _, _, _, _, hd, _⟩
        · exact Or.inl ⟨d, hold⟩
        · exact Or.inr ⟨now, limit, hf⟩
        · exact Or.inl ⟨_, hd⟩
      rcases hopen hw with ⟨d₀, hd₀⟩ | ⟨now, limit, rfl⟩
      · rcases hopen hw' with ⟨d₀', hd₀'⟩ | ⟨now, limit, rfl⟩
        · exact h.alone w w' d₀ d₀' hd₀ hd₀'
        · exact (ha w d₀ hd₀).symm
      · rcases hopen hw' with ⟨d₀', hd₀'⟩ | ⟨now', limit', hf⟩
        · exact ha w' d₀' hd₀'
        · cases hf
          rfl
    · rcases step_drain cfg hw with hold | ⟨now, limit, rows, rfl, rfl, _⟩ |
        ⟨clock_now, now, ev, todo, plan, r, rfl, hd, hr, rfl⟩
      · exact (h.plans w d hold pre p post hplan k incoming hk hin ht).mono
          (ha.deserted cfg hold hno)
      · simp at hplan
      · refine Concludes.mono ?_ (ha.deserted cfg hd hno)
        rcases List.eq_nil_or_concat post with rfl | ⟨post, q, rfl⟩
        · -- the event that has just been read
          obtain ⟨rfl, hp⟩ := List.append_inj' hplan rfl
          obtain rfl := List.singleton_inj.mp hp
          exact concludes_read hacc.kept.live.healthy (hacc.kept.live.planned w _ hd) hr hk hin ht
        · rw [List.concat_eq_append, ← List.cons_append, ← List.append_assoc] at hplan
          obtain ⟨hpre, _⟩ := List.append_inj' hplan rfl
          exact h.plans w _ hd pre p post hpre k incoming hk hin ht
    · have hold : s.db.provider_events.get? i = some e' := by
        rcases (step_acted cfg hacc.kept hno).events with he | ⟨_, _, _, _, _, _, _, _, he⟩
        · rw [Db.view_provider_events, Db.view_provider_events] at he
          exact he ▸ he'
        · rw [Db.view_provider_events, Db.view_provider_events] at he
          rw [he] at he'
          rcases Table.cases_of_get?_push he' with ⟨_, rfl⟩ | hold
          · cases hk
          · exact hold
      exact (h.rows i e' hold).kept cfg hacc.kept.live a rfl hk hin ht
  · push Not at hno
    obtain ⟨w, rfl⟩ := hno
    exact h.commit cfg hacc w

end

end SmartDialer
