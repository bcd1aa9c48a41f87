import SmartDialer.Correctness.Clogging
import SmartDialer.Correctness.Delivery
import SmartDialer.Correctness.Ledger
import SmartDialer.Correctness.RowWrites

namespace SmartDialer

open Relational

/-!
# What a drain knows about its events

Between the fetch of an event and the commit that marks its row other transactions go on.  What a
drain holds stays true meanwhile: the rows it has locked are still the events that it fetched, and a
call that it has read by the reference of an event is still the call with that reference.

* `EventRow.unmarked` — the event as it was delivered, which no statement changes.
* `Founded` — the refusals of a plan: a call that had come too far for an event when it was read
  comes as far again when the plan is applied, since what took it there was committed or is part of
  the plan.
* `Sys.Citing` — the invariant; `citing_step` shows that every action keeps it.
-/

/-- The event as it was delivered: a row of the ledger without the columns that `MARK` writes. -/
def EventRow.unmarked (e : EventRow) : EventRow :=
  { e with call_id := none, applied := false, anomaly := none }

/-- `MARK` writes none of the columns that were delivered. -/
@[simp] theorem EventRow.unmarked_markedRow (applied : Bool) (anomaly : Option Anomaly)
    (call_id : Option ℕ) (e : EventRow) :
    (EventRepo.markedRow applied anomaly call_id e).unmarked = e.unmarked := rfl

/-- Giving up on an event writes none of the columns that were delivered. -/
@[simp] theorem EventRow.unmarked_givenUpRow (e : EventRow) :
    (EventRepo.givenUpRow e).unmarked = e.unmarked := rfl

/-- Rows of one event report the same. -/
theorem EventRow.incoming_of_unmarked {e e' : EventRow} (h : e'.unmarked = e.unmarked) :
    e'.incoming = e.incoming := by
  have htype : e'.event_type = e.event_type := (EventRow.mk.inj h).2.2.2.2.1
  rw [incoming, incoming, htype]

/-- Which call an event refers to depends on what was delivered alone. -/
theorem EventRow.IsOf.of_unmarked {e e' : EventRow} {c : CallRow} (hc : e.IsOf c)
    (h : e'.unmarked = e.unmarked) : e'.IsOf c := by
  obtain ⟨hprovider, _, href, _⟩ := EventRow.mk.inj h
  rwa [IsOf, hprovider, href]

/-! ### Events are kept -/

/-- The ledger has the same events. -/
def View.SameEvents (v v' : View) : Prop :=
  ∀ i, (v'.provider_events.get? i).map EventRow.unmarked
    = (v.provider_events.get? i).map EventRow.unmarked

/-- Every event is still recorded as it was delivered. -/
def View.KeepsEvents (v v' : View) : Prop :=
  ∀ i e, v.provider_events.get? i = some e →
    ∃ e', v'.provider_events.get? i = some e' ∧ e'.unmarked = e.unmarked

namespace View.SameEvents

/-- An unwritten ledger has the same events. -/
theorem of_eq {v v' : View} (h : v'.provider_events = v.provider_events) : v.SameEvents v' :=
  fun i => by rw [h]

/-- The events are the same across any number of writes. -/
theorem trans {v₁ v₂ v₃ : View} (h₁ : v₁.SameEvents v₂) (h₂ : v₂.SameEvents v₃) :
    v₁.SameEvents v₃ := fun i => (h₂ i).trans (h₁ i)

/-- A statement that writes marks leaves the events as they were delivered. -/
theorem modify {v v' : View} {p : ℕ → EventRow → Bool} {f : EventRow → EventRow}
    (h : v'.provider_events = v.provider_events.modify p f)
    (hf : ∀ e, (f e).unmarked = e.unmarked) : v.SameEvents v' := by
  intro i
  rw [h, Table.get?_modify, Option.map_map]
  refine congrArg (fun g => (v.provider_events.get? i).map g) (funext fun e => ?_)
  show (if p i e then f e else e).unmarked = e.unmarked
  split
  · exact hf e
  · rfl

/-- Writing the marks of one row leaves the events as they were delivered. -/
theorem alter {v v' : View} {i : ℕ} {f : EventRow → EventRow}
    (h : v'.provider_events = v.provider_events.alter i f)
    (hf : ∀ e, (f e).unmarked = e.unmarked) : v.SameEvents v' := modify h hf

/-- The same events are in particular no fewer. -/
theorem keeps {v v' : View} (h : v.SameEvents v') : v.KeepsEvents v' := by
  intro i e he
  have hi := h i
  rw [he, Option.map_some] at hi
  exact Option.map_eq_some_iff.mp hi

/-- What is recorded has been recorded before. -/
theorem before {v v' : View} (h : v.SameEvents v') {i : ℕ} {e' : EventRow}
    (he' : v'.provider_events.get? i = some e') :
    ∃ e, v.provider_events.get? i = some e ∧ e'.unmarked = e.unmarked := by
  have hi := h i
  rw [he', Option.map_some] at hi
  obtain ⟨e, he, hs⟩ := Option.map_eq_some_iff.mp hi.symm
  exact ⟨e, he, hs.symm⟩

end View.SameEvents

/-- What becomes of the row of an event when it is applied. -/
theorem Applied.sameEvents {now clock_now wrapup : Time} {db : Db} {o : Option CallState} {v : View}
    {ev : ℕ × EventRow} {read : ReadResult} (h : Applied now ev clock_now wrapup db read o v) :
    db.view.SameEvents v := by
  cases h with
  | raised => exact .of_eq rfl
  | unknown | refused | lost =>
    exact .alter (View.setEvent_provider_events ..) fun e => EventRow.unmarked_markedRow ..
  | @moved call_id | @bridged call_id =>
    refine .alter (i := ev.1) (f := EventRepo.markedRow true none (some call_id)) ?_ fun _ => rfl
    rw [View.setEvent_provider_events, View.sideEffects_provider_events]
    rfl

/-- The commit of a drain marks rows, and records nothing. -/
theorem commitDrain_sameEvents {cfg : Settings} {now : Time} {plan : List Planned} {db db₁ db' : Db}
    {log : List (ℕ × CallState)} (hh : db.view.Healthy) (hp : ∀ p ∈ plan, p.Valid db.view)
    (hplan : (applyPlan cfg now plan).run db = .ok (log, db₁))
    (hview : db'.view = { db₁.view with
      provider_events := db₁.provider_events.modify (fun _ e => EventRepo.isGivenUp now e)
        EventRepo.givenUpRow }) : db.view.SameEvents db'.view := by
  have hsame := (related_applyPlan (R := View.SameEvents) (fun _ => .of_eq rfl)
    (fun _ _ _ => View.SameEvents.trans) (fun _ _ _ _ _ _ ha => ha.sameEvents) hh hp hplan).1
  exact hsame.trans (.modify (p := fun _ e => EventRepo.isGivenUp now e)
    (f := EventRepo.givenUpRow) (congrArg View.provider_events hview) fun _ => rfl)

/-- The ledger gains rows and marks, and loses nothing that was delivered. -/
theorem LedgerStep.keepsEvents {cfg : Settings} {s s' : Sys} (h : LedgerStep cfg s s')
    (hl : s.Live) : s.db.view.KeepsEvents s'.db.view := by
  cases h with
  | quiet he => exact (View.SameEvents.of_eq he).keeps
  | recorded hu hnew he =>
    intro i e hi
    rw [Db.view_provider_events] at hi
    exact ⟨e, by rw [Db.view_provider_events, he, Table.get?_push, if_neg (Table.ne_nextId hi), hi],
      rfl⟩
  | opened _ _ he => exact (View.SameEvents.of_eq he).keeps
  | read _ _ he => exact (View.SameEvents.of_eq he).keeps
  | @committed now w plan log db₁ hw hplan hfree hview =>
    exact (commitDrain_sameEvents hl.healthy (hl.planned w _ hw) hplan hview).keeps
  | closed he => exact (View.SameEvents.of_eq he).keeps

/-! ### Calls are kept -/

/-- No write moves a call to another provider. -/
theorem CallRow.Writes.provider {c c' : CallRow} (h : c.Writes c') :
    c'.provider = c.provider := by
  induction h with
  | refl => rfl
  | tail _ hw ih =>
    cases hw with
    | advanced | cancelled | orphaned => exact ih

/-- A call that an event refers to stays the one that it refers to. -/
theorem EventRow.IsOf.evolves {e : EventRow} {c c' : CallRow} (h : e.IsOf c)
    (hevo : c.Evolves c') (hprovider : c'.provider = c.provider) : e.IsOf c' := by
  obtain ⟨hnamed, hp, href⟩ := h
  exact ⟨hnamed, hprovider.trans hp, (hevo.ref (by rw [href]; exact hnamed)).trans href⟩

/-- An action leaves every call with its provider. -/
theorem step_provider (cfg : Settings) {s : Sys} (h : s.Live) (a : Act) {k : ℕ} {c c' : CallRow}
    (hc : s.db.calls.get? k = some c) (hc' : (step cfg s a).db.calls.get? k = some c') :
    c'.provider = c.provider := by
  -- the column `provider` is written by the INSERT alone
  cases step_calls cfg h a with
  | wrote hw =>
    obtain ⟨d, hd, hwrites⟩ := hw.before hc'
    rw [Db.view_calls, hc, Option.some.injEq] at hd
    rw [hd, hwrites.provider]
  | created hcalls =>
    rw [hcalls, Table.get?_push, if_neg (Table.ne_nextId hc), hc, Option.some.injEq] at hc'
    rw [hc']
  | dialed hd _ hcalls =>
    rw [hcalls] at hc'
    rcases Table.cases_of_get?_alter hd hc' with ⟨rfl, rfl⟩ | ⟨_, hold⟩
    · rw [hc, Option.some.injEq] at hd
      rw [hd]
      rfl
    · rw [hc, Option.some.injEq] at hold
      rw [hold]

/-! ### Refusals -/

/-- The rank that a call has at least after an event that passed its check: an answered call is
    connected to its agent or abandoned. -/
def rankBeyond (incoming : CallState) : ℕ :=
  if incoming = .ANSWERED then rank .CONNECTED else rank incoming

/-- The call has come as far as rank `n`, or an event of the plan takes it there. -/
def Overtaken (v : View) (plan : List Planned) (k n : ℕ) : Prop :=
  (∃ c, v.calls.get? k = some c ∧ n ≤ rank c.state) ∨
    ∃ p ∈ plan, ∃ incoming, p.read = .passed k incoming ∧ n ≤ rankBeyond incoming

/-- The refusals of a plan have their reasons in the calls and in the events before them.  A call
    that was read as abandoned may be connected in the end, if its agent was away only within the
    plan, so an event that reports an end is known to find it connected at least. -/
def Founded (v : View) (plan : List Planned) : Prop :=
  ∀ pre p post, plan = pre ++ p :: post → ∀ k incoming,
    p.read = .refused k (some .OUT_OF_ORDER) → p.event.2.incoming = some incoming →
    Overtaken v pre k (min (rank incoming) (rank .CONNECTED))

section

variable {now clock_now wrapup : Time} {p : Planned} {db : Db} {o : Option CallState} {v : View}

/-- An event takes no call back, and its own call as far as its check has promised. -/
theorem Applied.reaches (h : Applied now p.event clock_now wrapup db p.read o v)
    (hh : db.view.Healthy) (hp : p.Valid db.view) {k : ℕ} {c : CallRow}
    (hc : db.calls.get? k = some c) :
    ∃ c', v.calls.get? k = some c' ∧ rank c.state ≤ rank c'.state ∧
      ∀ incoming, p.read = .passed k incoming → rankBeyond incoming ≤ rank c'.state := by
  obtain ⟨c', hc', hwrites⟩ := (h.wrote hh hp).kept k c hc
  refine ⟨c', hc', hwrites.rank_le, fun incoming hread => ?_⟩
  have hset := hh.settled k c hc
  have hrank' := (((h.progress hp).1 hh).1.settled k c' hc').rank_eq
  obtain ⟨c'', hc'', _, hcase⟩ := h.ranks hc
  obtain rfl := Option.some.inj (hc'.symm.trans hc'')
  rcases hcase with ⟨s, hs, hafter⟩ | ⟨hno, _⟩
  · obtain rfl := (ReadResult.passed.inj (hread.symm.trans hs)).2
    rw [← hrank', hafter]
    unfold rankAfter rankBeyond
    by_cases hlow : c.state_rank < rank incoming
    · rw [if_pos hlow]
      split
      · exact rank_bridgeState db.agents k c
      · exact le_rfl
    · rw [if_neg hlow]
      split
      · -- no call waits in `ANSWERED`, so this one is further on
        rename_i hans
        rw [hans, hset.rank_eq] at hlow
        rw [hset.rank_eq]
        have hne := hset.not_answered
        revert hlow hne
        cases c.state <;> decide
      · omega
  · exact absurd hread (hno incoming)

/-- A write of the drain may be what takes the call on: then the call itself is that far, and the
    write need not be mentioned any more. -/
theorem Overtaken.applied {pre : List Planned} {k n : ℕ}
    (h : Overtaken db.view (p :: pre) k n)
    (happ : Applied now p.event clock_now wrapup db p.read o v) (hh : db.view.Healthy)
    (hp : p.Valid db.view) : Overtaken v pre k n := by
  rcases h with ⟨c, hc, hn⟩ | ⟨q, hq, incoming, hread, hn⟩
  · obtain ⟨c', hc', hle, _⟩ := happ.reaches hh hp hc
    exact Or.inl ⟨c', hc', hn.trans hle⟩
  · rcases List.mem_cons.mp hq with rfl | hq
    · obtain ⟨_, c, hc, _⟩ := hp k incoming hread
      obtain ⟨c', hc', _, hbeyond⟩ := happ.reaches hh hp hc
      exact Or.inl ⟨c', hc', hn.trans (hbeyond incoming hread)⟩
    · exact Or.inr ⟨q, hq, incoming, hread, hn⟩

/-- When the first write of a plan is made, the refusals behind it still rest on something. -/
theorem Founded.applied {plan : List Planned} (h : Founded db.view (p :: plan))
    (happ : Applied now p.event clock_now wrapup db p.read o v) (hh : db.view.Healthy)
    (hp : p.Valid db.view) : Founded v plan := by
  intro pre q post hplan k incoming hread hin
  exact (h (p :: pre) q post (by rw [hplan]; rfl) k incoming hread hin).applied happ hh hp

end

/-- Where a plan takes a call, up to `CONNECTED`, the call was before or an event takes it. -/
theorem applyPlan_overtaken {cfg : Settings} {now : Time} {plan : List Planned} {db db₁ : Db}
    {moved : List (ℕ × CallState)} (hh : db.view.Healthy) (hp : ∀ p ∈ plan, p.Valid db.view)
    (h : (applyPlan cfg now plan).run db = .ok (moved, db₁)) {k n : ℕ} {c : CallRow}
    (hc : db₁.calls.get? k = some c) (hn : n ≤ rank c.state) (hcut : n ≤ rank .CONNECTED) :
    Overtaken db.view plan k n := by
  induction plan generalizing db moved with
  | nil =>
    obtain ⟨_, rfl⟩ := Txn.run_pure_ok.mp h
    exact Or.inl ⟨c, hc, hn⟩
  | cons p plan ih =>
    obtain ⟨o, db₂, rest, hone, hplan, _⟩ := applyPlan_cons h
    have happ := applyOneWrite_cases hone
    have hv := hp p (by simp)
    obtain ⟨hh₂, he₂⟩ := (happ.progress hv).1 hh
    -- either a later write of the plan raised the rank, or it was reached before them
    rcases ih hh₂ (fun q hq => (hp q (by simp [hq])).mono he₂) hplan with
      ⟨c₂, hc₂, hn₂⟩ | ⟨q, hq, hrest⟩
    · obtain ⟨c₀, hc₀, _⟩ := (happ.wrote hh hv).before hc₂
      obtain ⟨c₂', hc₂', _, hcase⟩ := happ.ranks hc₀
      obtain rfl := Option.some.inj (hc₂.symm.trans hc₂')
      have hrank₀ := (hh.settled k c₀ hc₀).rank_eq
      rw [← (hh₂.settled k c₂ hc₂).rank_eq] at hn₂
      rcases hcase with ⟨s, hread, hafter⟩ | ⟨_, hsame⟩
      · -- this write moved the call: it is the one looked for unless the rank was there before
        unfold rankAfter at hafter
        split at hafter
        · refine Or.inr ⟨p, by simp, s, hread, ?_⟩
          unfold rankBeyond
          split
          · exact hcut
          · rename_i hne
            rw [if_neg hne] at hafter
            omega
        · exact Or.inl ⟨c₀, hc₀, by omega⟩
      · exact Or.inl ⟨c₀, hc₀, by omega⟩
    · exact Or.inr ⟨q, by simp [hq], hrest⟩

/-- Whoever acts, what the refusals rest on is still there. -/
theorem Founded.mono {cfg : Settings} {s : Sys} (hl : s.Live) (a : Act) {plan : List Planned}
    (h : Founded s.db.view plan) : Founded (step cfg s a).db.view plan := by
  intro pre p post hplan k incoming hread hin
  rcases h pre p post hplan k incoming hread hin with ⟨c, hc, hn⟩ | hpre
  · obtain ⟨c', hc', hle⟩ := step_rank_le cfg hl a hc
    exact Or.inl ⟨c', hc', hn.trans hle⟩
  · exact Or.inr hpre

/-- Reading one more event is sound if its refusal rests on the calls and on the writes already
    planned. -/
theorem Founded.append {v : View} {plan : List Planned} {p : Planned} (h : Founded v plan)
    (hp : ∀ k incoming, p.read = .refused k (some .OUT_OF_ORDER) →
      p.event.2.incoming = some incoming →
      Overtaken v plan k (min (rank incoming) (rank .CONNECTED))) : Founded v (plan ++ [p]) := by
  intro pre q post hplan
  rcases List.eq_nil_or_concat post with rfl | ⟨post, q', rfl⟩
  · obtain ⟨rfl, hq⟩ := List.append_inj' hplan rfl
    obtain rfl := List.singleton_inj.mp hq
    exact hp
  · rw [List.concat_eq_append, ← List.cons_append, ← List.append_assoc] at hplan
    exact h pre q post (List.append_inj' hplan rfl).1

/-! ### The invariant -/

/-- What was read for an event is about a call that the event refers to; what passed the check is
    what the event reports, and a refusal says why: a call that has been dialed can go wherever an
    event may take it from there on, but for `CONNECTED`, which the applier alone decides. -/
structure Planned.Cites (v : View) (p : Planned) : Prop where
  cited : ∀ k, p.read.call_id = some k →
    ∃ c, v.calls.get? k = some c ∧ p.event.2.IsOf c
  claimed : ∀ k incoming, p.read = .passed k incoming → p.event.2.incoming = some incoming
  refused : ∀ k anomaly, p.read = .refused k anomaly → ∃ incoming,
    p.event.2.incoming = some incoming ∧ (anomaly = some .OUT_OF_ORDER ∨
      anomaly = some .ILLEGAL_TRANSITION ∧ incoming = .CONNECTED)

/-- A refusal does not say that the call is unknown. -/
theorem Planned.Cites.known {v : View} {p : Planned} (h : p.Cites v) {k : ℕ}
    {anomaly : Option Anomaly} (hr : p.read = .refused k anomaly) :
    anomaly = some .OUT_OF_ORDER ∨ anomaly = some .ILLEGAL_TRANSITION := by
  obtain ⟨_, _, hx | ⟨hx, _⟩⟩ := h.refused k anomaly hr
  · exact Or.inl hx
  · exact Or.inr hx

/-- The events that a drain holds, read or not. -/
def Drain.events (d : Drain) : List (ℕ × EventRow) := d.plan.map (·.event) ++ d.todo

/-- Every drain still holds the events it fetched, and what it has read about them is backed by the
    calls and by its own plan. -/
structure Sys.Citing (s : Sys) : Prop where
  held : ∀ w d, s.drains.get? w = some d → ∀ ev ∈ d.events,
    ∃ e, s.db.provider_events.get? ev.1 = some e ∧ e.unmarked = ev.2.unmarked
  cites : ∀ w d, s.drains.get? w = some d → ∀ p ∈ d.plan, p.Cites s.db.view
  founded : ∀ w d, s.drains.get? w = some d → Founded s.db.view d.plan

/-- No drain is open at the start. -/
theorem citing_init : Sys.init.Citing where
  held := fun _ _ h => by cases h
  cites := fun _ _ h => by cases h
  founded := fun _ _ h => by cases h

/-- The check refuses what a call has reached or passed, and any event of a call that has ended;
    besides, of a call that is dialed or rings, only the claim that it is connected. -/
theorem canApply_refused {s t : CallState} (h : (canApply s t).1 = false) (hq : s ≠ .QUEUED)
    (hr : s ≠ .RESERVED) :
    (canApply s t).2 = some .OUT_OF_ORDER ∧ rank t ≤ rank s ∨
      (canApply s t).2 = some .ILLEGAL_TRANSITION ∧ t = .CONNECTED := by
  revert h hq hr
  cases s <;> cases t <;> decide

/-- What passes the check is what the event reports, and what does not is refused for a reason. -/
private theorem applyOneRead_checks {ev : EventRow} {db : Db} {r : ReadResult}
    (hh : db.view.Healthy) (h : (applyOneRead ev).result db = some r) :
    (∀ k incoming, r = .passed k incoming → ev.incoming = some incoming) ∧
      ∀ k anomaly, r = .refused k anomaly → ∃ c incoming, db.calls.get? k = some c ∧
        ev.incoming = some incoming ∧
        (anomaly = some .OUT_OF_ORDER ∧ rank incoming ≤ rank c.state ∨
          anomaly = some .ILLEGAL_TRANSITION ∧ incoming = .CONNECTED) := by
  obtain ⟨o, hget, hspec⟩ := CallRepo.getByProviderRef_run ev.provider ev.provider_call_id db
  unfold applyOneRead Txn.result at h
  rw [Txn.run_bind_of_ok hget] at h
  cases o with
  | none =>
    cases h
    exact ⟨fun k s hr => (by cases hr), fun k x hr => by cases hr⟩
  | some call =>
    simp only at h
    unfold EventRow.incoming
    cases hof : CallState.ofString? (mapProviderEvent ev.event_type) with
    | none =>
      rw [hof] at h
      cases h
      exact ⟨fun k s hr => (by cases hr), fun k x hr => by cases hr⟩
    | some inc =>
      rw [hof] at h
      cases hcan : (canApply call.2.state inc).1 with
      | false =>
        simp only [hcan] at h
        cases h
        refine ⟨fun k s hr => (by cases hr), fun k x hr => ?_⟩
        cases hr
        -- the event has found its call by the reference, so the call has been dialed
        obtain ⟨hc, _, href, hnamed⟩ := hspec call rfl
        have hset := hh.settled call.1 call.2 hc
        have hdialed := hset.dialed (by rw [href]; exact hnamed)
        exact ⟨call.2, inc, hc, rfl, canApply_refused hcan hset.not_queued hdialed⟩
      | true =>
        simp only [hcan] at h
        cases h
        refine ⟨fun k s hr => ?_, fun k x hr => by cases hr⟩
        cases hr
        rfl

/-- What a drain reads over its own writes is about a call of the database before them. -/
private theorem read_cites {cfg : Settings} {now : Time} {plan : List Planned} {db : Db}
    {ev : ℕ × EventRow} (clock_now : Time) {r : ReadResult} (hh : db.view.Healthy)
    (hp : ∀ p ∈ plan, p.Valid db.view)
    (h : (applyOneRead ev.2).result ((applyPlan cfg now plan).commit db) = some r) :
    Planned.Cites db.view ⟨ev, clock_now, r⟩ ∧ ∀ k incoming,
      r = .refused k (some .OUT_OF_ORDER) → ev.2.incoming = some incoming →
      Overtaken db.view plan k (min (rank incoming) (rank .CONNECTED)) := by
  obtain ⟨moved, db₁, hplan⟩ := applyPlan_total cfg now hh hp
  rw [(Txn.commit_of_run hplan).1] at h
  have hrel := related_applyPlan (R := fun v v' => v.KeepsRefs v' ∧ v.Wrote v')
    (fun v => ⟨fun _ => rfl, .refl v⟩)
    (fun _ _ _ h₁ h₂ => ⟨h₁.1.trans h₂.1, h₁.2.trans h₂.2⟩)
    (fun _ _ _ _ hh hv ha => ⟨(ha.progress hv).2, ha.wrote hh hv⟩) hh hp hplan
  obtain ⟨⟨hrefs, hwrote⟩, hh₁, _⟩ := hrel
  obtain ⟨hclaimed, hrefused⟩ := applyOneRead_checks hh₁ h
  refine ⟨⟨fun k hk => ?_, hclaimed, fun k anomaly hr => ?_⟩, fun k incoming hr hin => ?_⟩
  rotate_left
  · obtain ⟨_, incoming, _, hin, hx⟩ := hrefused k anomaly hr
    exact ⟨incoming, hin, hx.imp_left And.left⟩
  · obtain ⟨c, s, hc, hs, hx⟩ := hrefused k _ hr
    obtain rfl := Option.some.inj (hin.symm.trans hs)
    rcases hx with ⟨_, hle⟩ | ⟨hx, _⟩
    · exact applyPlan_overtaken hh hp hplan hc ((min_le_left _ _).trans hle) (min_le_right _ _)
    · cases hx
  obtain ⟨read, hrun, hnames⟩ := applyOneRead_names ev.2 db₁
  rw [(Txn.commit_of_run hrun).2, Option.some.injEq] at h
  subst h
  obtain ⟨c', hc', hprovider, href, hnamed⟩ := hnames k hk
  obtain ⟨c, hc, hwrites⟩ := hwrote.before hc'
  -- the plan changes neither the provider of the call nor its reference
  have hback := hrefs k
  rw [Db.view_calls db₁, hc', hc, Option.map_some, Option.map_some, Option.some.injEq] at hback
  exact ⟨c, hc, hnamed, hwrites.provider.symm.trans hprovider, hback.symm.trans href⟩

/-- Whoever acts between the read and the write, what was read about the event stays true. -/
theorem Planned.Cites.mono {cfg : Settings} {s : Sys} {a : Act} {p : Planned} (hl : s.Live)
    (h : p.Cites s.db.view) : p.Cites (step cfg s a).db.view where
  cited := by
    intro k hk
    obtain ⟨c, hc, hcites⟩ := h.cited k hk
    obtain ⟨c', hc', hevo⟩ := (step_progress cfg hl a hl.healthy).2 k c hc
    exact ⟨c', hc', hcites.evolves hevo (step_provider cfg hl a hc hc')⟩
  claimed := h.claimed
  refused := h.refused

/-- An open drain was open before, or has just been opened, or has just read its next event. -/
theorem step_drain (cfg : Settings) {s : Sys} {a : Act} {w : ℕ} {d : Drain}
    (hw : (step cfg s a).drains.get? w = some d) :
    s.drains.get? w = some d ∨
      (∃ now limit rows, a = .fetch now w limit ∧ d = ⟨now, rows, []⟩ ∧
        ∀ e ∈ rows, s.db.provider_events.get? e.1 = some e.2) ∨
      ∃ clock_now now ev todo plan r, a = .read clock_now w ∧
        s.drains.get? w = some ⟨now, ev :: todo, plan⟩ ∧
        (applyOneRead ev.2).result ((applyPlan cfg now plan).commit s.db) = some r ∧
        d = ⟨now, todo, plan ++ [⟨ev, clock_now, r⟩]⟩ := by
  cases a with
  | fetch now w' limit =>
    obtain ⟨rows, hs, _, hrows⟩ := s.fetch_cases now w' limit
    rw [step, hs] at hw
    rcases Table.cases_of_get?_insertAt hw with hold | ⟨rfl, rfl, _⟩
    · exact Or.inl hold
    · exact Or.inr (Or.inl ⟨now, limit, rows, rfl, rfl, fun e he => (hrows e he).1⟩)
  -- the read appends its result to the plan of its own worker
  | read clock_now w' =>
    rcases s.read_cases cfg clock_now w' with ⟨now, ev, todo, plan, r, hd, hr, hs⟩ | hs
    · rw [step, hs] at hw
      obtain ⟨d₀, hd₀, hdd⟩ := Table.exists_of_get?_modify hw
      by_cases hww : w = w'
      · subst hww
        rw [beq_self_eq_true, if_pos rfl] at hdd
        exact Or.inr (Or.inr ⟨clock_now, now, ev, todo, plan, r, rfl, hd, hr, hdd⟩)
      · rw [beq_eq_false_iff_ne.mpr hww, if_neg Bool.false_ne_true] at hdd
        exact Or.inl (hdd ▸ hd₀)
    · rw [step, hs] at hw
      exact Or.inl hw
  | commit w' =>
    rcases s.commit_cases cfg w' with ⟨now, plan, hd, _, hs⟩ | hs
    · rw [step, hs] at hw
      exact Or.inl (Table.get?_of_get?_erase hw).2
    · rw [step, hs] at hw
      exact Or.inl hw
  | rollback w' => exact Or.inl (Table.get?_of_get?_erase hw).2
  | createAgent | login | logout | pause | seed | pullback | ingest | reap | abandon =>
    exact Or.inl hw
  | reserveAndCreate =>
    rw [step, Sys.allocate_drains] at hw
    exact Or.inl hw
  | placeCall =>
    rw [step, Sys.placeCall_drains] at hw
    exact Or.inl hw
  | rejected | accepted =>
    rw [step, Sys.settle_drains] at hw
    exact Or.inl hw

/-- **Step.** Every action keeps the invariant. -/
theorem citing_step (cfg : Settings) {s : Sys} (hl : s.Live) (h : s.Citing) (a : Act) :
    (step cfg s a).Citing := by
  have hkept := (step_ledger cfg s a).keepsEvents hl
  -- what a drain has held or read before
  have hheld : ∀ w d, s.drains.get? w = some d → ∀ ev ∈ d.events, ∃ e,
      (step cfg s a).db.provider_events.get? ev.1 = some e ∧ e.unmarked = ev.2.unmarked := by
    intro w d hw ev hev
    obtain ⟨e, he, hsame⟩ := h.held w d hw ev hev
    obtain ⟨e', he', hsame'⟩ := hkept ev.1 e he
    exact ⟨e', he', hsame'.trans hsame⟩
  have hcites : ∀ w d, s.drains.get? w = some d → ∀ p ∈ d.plan,
      p.Cites (step cfg s a).db.view := fun w d hw p hp => (h.cites w d hw p hp).mono hl
  have hfounded : ∀ w d, s.drains.get? w = some d → Founded (step cfg s a).db.view d.plan :=
    fun w d hw => (h.founded w d hw).mono hl a
  suffices hdrain : ∀ w d, (step cfg s a).drains.get? w = some d →
      (∀ ev ∈ d.events, ∃ e, (step cfg s a).db.provider_events.get? ev.1 = some e ∧
        e.unmarked = ev.2.unmarked) ∧ (∀ p ∈ d.plan, p.Cites (step cfg s a).db.view) ∧
        Founded (step cfg s a).db.view d.plan from
    ⟨fun w d hw => (hdrain w d hw).1, fun w d hw => (hdrain w d hw).2.1,
      fun w d hw => (hdrain w d hw).2.2⟩
  intro w d hw
  rcases step_drain cfg hw with hold | ⟨now, limit, rows, rfl, rfl, hrows⟩ |
    ⟨clock_now, now, ev, todo, plan, r, rfl, hd, hr, rfl⟩
  · exact ⟨hheld w d hold, hcites w d hold, hfounded w d hold⟩
  · refine ⟨fun ev hev => ?_, fun p hp => (by cases hp), fun pre p post hplan => ?_⟩
    rotate_left
    · simp at hplan
    obtain ⟨e, he, hsame⟩ := hkept ev.1 ev.2 (hrows ev (by simpa [Drain.events] using hev))
    exact ⟨e, he, hsame⟩
  · obtain ⟨hread, hrefused⟩ := read_cites clock_now hl.healthy (hl.planned w _ hd) hr
    refine ⟨fun ev' hev' => hheld w _ hd ev' ?_, fun p hp => ?_, ?_⟩
    · simpa [Drain.events] using hev'
    · rcases List.mem_append.mp hp with hp | hp
      · exact hcites w _ hd p hp
      · rw [List.mem_singleton.mp hp]
        exact hread.mono hl
    · exact Founded.mono hl _ ((h.founded w _ hd).append hrefused)

end SmartDialer
