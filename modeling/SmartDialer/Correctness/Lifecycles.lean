import SmartDialer.Correctness.HoldAndPair
import SmartDialer.Sim.Scenario

namespace SmartDialer

open Relational

/-!
# Lifecycles and their events

Each lifecycle emits the events of its script, one after the other, and the buffer of its mock
passes them on.  Calls share the buffer but not their references, so under a reference come the
events of one script only.

* `Stage.script` — what a lifecycle has emitted when it has come to a stage.
* `Scenario.State.Scripted` — the invariant: the stages and the buffers agree.
* `Delivering.emitted` — what is delivered has been emitted.
-/

/-! ### Scripts -/

/-- The `raw_event_type`s that a lifecycle has emitted. -/
def Stage.script : Stage → List String
  | .placed => []
  | .ringing => ["ringing"]
  | .unanswered | .returned false => ["ringing", "no-answer"]
  | .talking => ["ringing", "answered"]
  | .completed | .returned true => ["ringing", "answered", "completed"]

/-- Has the lifecycle returned? -/
def Stage.isOver : Stage → Bool
  | .returned _ => true
  | _ => false

/-- What has been drawn so far. -/
def Stage.answered : Stage → Option Bool
  | .placed | .ringing => none
  | .unanswered => some false
  | .talking | .completed => some true
  | .returned answered => some answered

/-- The next stage has one event more, or it is the last one. -/
theorem Stage.next_script {answered : Bool} {stage stage' : Stage} {raw : Option String}
    (h : stage.next answered = some (raw, stage')) :
    stage'.script = stage.script ++ raw.toList ∧ stage.isOver = false ∧
      stage'.isOver = raw.isNone := by
  cases stage with
  | ringing =>
    cases answered <;> obtain ⟨rfl, rfl⟩ := Prod.mk.inj (Option.some.inj h) <;> decide
  | returned a => cases h
  | placed | unanswered | talking | completed =>
    obtain ⟨rfl, rfl⟩ := Prod.mk.inj (Option.some.inj h)
    decide

/-- The events of a script tell how far it has come. -/
theorem Stage.of_script {stage : Stage} {raw : String} (h : raw ∈ stage.script) :
    raw = "ringing" ∨ raw = "answered" ∧ stage.answered = some true ∨
      raw = "no-answer" ∧ stage.answered = some false ∨
      raw = "completed" ∧ (stage = .completed ∨ stage = .returned true) := by
  cases stage with
  | returned a => cases a <;> simp [script, answered] at h ⊢ <;> tauto
  | placed | ringing | unanswered | talking | completed =>
    simp [script, answered] at h ⊢ <;> tauto

/-! ### Buffers -/

namespace MockProvider

variable {m : MockProvider} {pcid other : String}

/-- The types of the events emitted for a call. -/
def raws (m : MockProvider) (pcid : String) : List String :=
  (under pcid m.emissions).map Emission.raw_event_type

/-- Going on with a coroutine emits nothing new. -/
@[simp] theorem emissions_resume (reorder : Bool) :
    (m.resume other reorder).emissions = m.emissions := by
  unfold resume
  split
  · rfl
  · split <;> rfl
  · rfl

/-- Going on with a coroutine emits nothing new, of any call. -/
@[simp] theorem raws_resume (reorder : Bool) :
    (m.resume other reorder).raws pcid = m.raws pcid := by
  unfold raws
  rw [emissions_resume]

/-- Going on with a coroutine does not call `_flush`. -/
@[simp] theorem flushed_resume (reorder : Bool) :
    ((m.resume other reorder).tasks pcid).flushed = (m.tasks pcid).flushed := by
  by_cases hne : other = pcid
  · subst hne
    unfold resume
    split
    · rename_i ht
      show (Function.update m.tasks other _ other).flushed = _
      rw [Function.update_self, ht]
    · rename_i ht
      split
      · show (Function.update m.tasks other _ other).flushed = _
        rw [Function.update_self, ht]
      · show (Function.update m.tasks other _ other).flushed = _
        rw [Function.update_self, ht]
    · rfl
  · rw [(resume_frame hne reorder).2.1]

/-- `_emit` by a call whose coroutines have returned adds one event. -/
theorem emit_enabled (h : (m.tasks pcid).Idle) (hf : (m.tasks pcid).flushed = false)
    (e : Emission) : (m.step (.emit pcid e)).raws pcid = m.raws pcid ++ [e.raw_event_type] ∧
      ((m.step (.emit pcid e)).tasks pcid).flushed = false := by
  rw [step, if_pos ⟨h, hf⟩]
  refine ⟨?_, ?_⟩
  · show (under pcid (m.emissions ++ [(pcid, e)])).map _ = _
    rw [under_concat_self, List.map_append]
    rfl
  · show (Function.update m.tasks pcid _ pcid).flushed = false
    rw [Function.update_self]
    exact hf

/-- `_flush` by a call whose coroutines have returned adds none. -/
theorem flush_enabled (h : (m.tasks pcid).Idle) (hf : (m.tasks pcid).flushed = false) :
    (m.step (.flush pcid)).raws pcid = m.raws pcid ∧
      ((m.step (.flush pcid)).tasks pcid).flushed = true := by
  rw [step, if_pos ⟨h, hf⟩]
  refine ⟨rfl, ?_⟩
  show (Function.update m.tasks pcid _ pcid).flushed = true
  rw [Function.update_self]

/-- The steps of one call are nothing to another. -/
theorem step_other (hne : other ≠ pcid) (e : Emission) :
    ((m.step (.emit other e)).raws pcid = m.raws pcid ∧
      (m.step (.emit other e)).tasks pcid = m.tasks pcid) ∧
    (m.step (.flush other)).raws pcid = m.raws pcid ∧
      (m.step (.flush other)).tasks pcid = m.tasks pcid := by
  -- a call writes under its own id only
  have hupdate : ∀ {β : Type} (f : String → β) (b : β), Function.update f other b pcid = f pcid :=
    fun f b => Function.update_of_ne hne.symm b f
  refine ⟨?_, ?_⟩
  · rw [step]
    split
    · refine ⟨?_, hupdate _ _⟩
      show (under pcid (m.emissions ++ [(other, e)])).map _ = _
      rw [under_concat_of_ne hne]
      rfl
    · exact ⟨rfl, rfl⟩
  · rw [step]
    split
    · exact ⟨rfl, hupdate _ _⟩
    · exact ⟨rfl, rfl⟩

/-- The entries of a call are those that were made under its id. -/
theorem mem_under {α : Type} {log : List (String × α)} {a : α} :
    a ∈ under pcid log ↔ (pcid, a) ∈ log := by
  simp [under]

/-- The type of an emitted event is among the types of its call. -/
theorem mem_raws {e : Emission} (h : (pcid, e) ∈ m.emissions) : e.raw_event_type ∈ m.raws pcid :=
  List.mem_map_of_mem (mem_under.mpr h)

/-- The events emitted for a call are those of its emissions. -/
theorem mem_emittedFor {ev : ProviderEvent} :
    ev ∈ m.emittedFor pcid ↔ ∃ e, (pcid, e) ∈ m.emissions ∧ ev = e.event := by
  have hbatch : ∀ e : Emission, ev ∈ e.batch ↔ ev = e.event := by
    intro e
    unfold Emission.batch
    split <;> simp
  unfold emittedFor
  simp only [List.mem_flatMap, mem_under, hbatch]

/-- An event that is delivered, or about to be, has been emitted. -/
theorem Delivering.emitted (h : m.Delivering pcid) {ev : ProviderEvent}
    (hev : ev ∈ m.deliveredTo pcid ++ (m.tasks pcid).sending) :
    ∃ e, (pcid, e) ∈ m.emissions ∧ ev = e.event := by
  obtain ⟨first, hex, hem⟩ := h.order
  rw [← mem_emittedFor, hem]
  simp [hex.perm.mem_iff.mp hev]

/-- After the flush everything that was emitted is delivered, or about to be. -/
theorem Delivering.delivered (h : m.Delivering pcid) (hf : (m.tasks pcid).flushed = true)
    {e : Emission} (he : (pcid, e) ∈ m.emissions) :
    e.event ∈ m.deliveredTo pcid ++ (m.tasks pcid).sending := by
  obtain ⟨first, hex, hem⟩ := h.order
  obtain ⟨hheld, hbatch⟩ := h.flushed hf
  have hmem : e.event ∈ m.emittedFor pcid := mem_emittedFor.mpr ⟨e, he, rfl⟩
  rw [hem, hheld, hbatch, Option.toList_none, List.append_nil, List.append_nil] at hmem
  exact hex.perm.mem_iff.mpr hmem

end MockProvider

/-! ### What a scenario can do -/

namespace Scenario

namespace State

/-- What an action of a scenario can do to the system. -/
inductive Issues (s : State) : Act → SmartDialer.Act → Prop
  | create (now : Time) (campaign_id : ℕ) (ext_ref : String) :
    Issues s (.hire now campaign_id ext_ref) (.createAgent now campaign_id ext_ref)
  | login (now : Time) (campaign_id : ℕ) (ext_ref : String) :
    Issues s (.hire now campaign_id ext_ref) (.login now s.sys.db.agents.nextId)
  | loop {b : SmartDialer.Act} (hruns : s.phase.runs b = true) : Issues s (.loop b) b
  | placed (clock_now : ℚ) (call_id : ℕ) (timeout hard_fail : Bool) (pcid : String) :
    Issues s (.place clock_now call_id timeout hard_fail pcid) (.placeCall call_id)
  | accepted {call_id : ℕ} {pcid : String} (hanswer : s.answers call_id = some (some pcid))
    (now clock_now : Time) :
    Issues s (.settle now clock_now call_id) (.accepted now clock_now call_id pcid)
  | rejected {call_id : ℕ} (hanswer : s.answers call_id = some none) (now clock_now : Time) :
    Issues s (.settle now clock_now call_id) (.rejected now call_id)
  | logout {injector agent_id : ℕ} (hleaving : agent_id ∈ s.leaving injector) (now : Time) :
    Issues s (.logout now injector) (.logout now agent_id)
  | deliver {provider pcid : String} {ev : ProviderEvent}
    (hsending : s.sending provider pcid = some ev) (now : Time) (reorder : Bool) :
    Issues s (.resume now provider pcid reorder)
      (.ingest now provider ev.event_id (some pcid) ev.etype (toTimestamp ev.ts)
        ("\x7b\"raw\": \"" ++ ev.raw ++ "\"\x7d"))

/-- Whatever an action of the simulation asks of the system is one of these requests. -/
theorem issues_of_mem_writes {s : State} {a : Act} {b : SmartDialer.Act} (hb : b ∈ s.writes a) :
    s.Issues a b := by
  cases a with
  | hire now campaign_id ext_ref =>
    rcases List.mem_pair.mp hb with rfl | rfl
    · exact .create now campaign_id ext_ref
    · exact .login now campaign_id ext_ref
  -- the loop is confined to what its phase runs
  | loop a =>
    rw [writes] at hb
    split at hb
    · rename_i hruns
      obtain rfl := List.mem_singleton.mp hb
      exact .loop hruns
    · cases hb
  | place clock_now call_id timeout hard_fail pcid =>
    rw [writes] at hb
    split at hb
    · obtain rfl := List.mem_singleton.mp hb
      exact .placed clock_now call_id timeout hard_fail pcid
    · cases hb
  | settle now clock_now call_id =>
    rw [writes] at hb
    split at hb
    · -- the second transaction follows the answer of `place_call`
      rename_i pcid hanswer
      obtain rfl := List.mem_singleton.mp hb
      exact .accepted hanswer now clock_now
    · rename_i hanswer
      obtain rfl := List.mem_singleton.mp hb
      exact .rejected hanswer now clock_now
    · cases hb
  | logout now injector =>
    obtain ⟨i, hi, rfl⟩ := List.mem_map.mp hb
    exact .logout hi now
  | resume now provider pcid reorder =>
    rw [writes] at hb
    split at hb
    · rename_i ev hsending
      obtain rfl := List.mem_singleton.mp hb
      exact .deliver hsending now reorder
    · cases hb
  | turn | outage | select | advance => cases hb

section

variable (s : State)

/-- An allocation calls its provider once, and with a fresh reference. -/
theorem calling_eq_some {call_id : ℕ} {pcid provider : String}
    (h : s.calling call_id pcid = some provider) :
    ∃ att, s.sys.attempts.get? call_id = some att ∧ att.placed = false ∧
      att.reservation.provider = provider ∧
      ∀ t l, s.lifecycles.get? t = some l → (l.provider, l.pcid) ≠ (provider, pcid) := by
  unfold calling at h
  split at h
  · rename_i att hatt
    simp only at h
    split at h
    · cases h
    · rename_i hnot
      obtain rfl := Option.some.inj h
      simp only [Bool.or_eq_true, decide_eq_true_eq, not_or, not_not, Bool.not_eq_true] at hnot
      refine ⟨att, hatt, hnot.1, rfl, fun t l hget heq => ?_⟩
      -- no lifecycle of the provider has drawn this id
      have hno := Table.select_eq_nil_iff.mp hnot.2 t l hget
      obtain ⟨hp, hq⟩ := Prod.mk.inj heq
      simp [hp, hq] at hno
  · cases h

/-- `place_call` raises, or it returns a fresh id and starts a lifecycle under it. -/
theorem place_cases (clock_now : ℚ) (call_id : ℕ) (timeout hard_fail : Bool) (pcid : String) :
    s.place clock_now call_id timeout hard_fail pcid = s ∨
      ∃ att, s.sys.attempts.get? call_id = some att ∧ att.placed = false ∧
        (∀ t l, s.lifecycles.get? t = some l →
          (l.provider, l.pcid) ≠ (att.reservation.provider, pcid)) ∧
        (s.place clock_now call_id timeout hard_fail pcid
            = { s with answers := Function.update s.answers call_id (some none) } ∨
          s.place clock_now call_id timeout hard_fail pcid
            = { s with
                answers := Function.update s.answers call_id (some (some pcid))
                lifecycles := s.lifecycles.push ⟨att.reservation.provider, pcid, .placed⟩ }) := by
  unfold place
  split
  · rename_i provider hcalling
    obtain ⟨att, hatt, hplaced, rfl, hfresh⟩ := s.calling_eq_some hcalling
    refine Or.inr ⟨att, hatt, hplaced, hfresh, ?_⟩
    split
    · exact Or.inr rfl
    · exact Or.inl rfl
  · exact Or.inl rfl

/-- The loop goes on when what it awaits is done. -/
theorem turn_cases (reaps : Bool) : ∃ phase, s.turn reaps = { s with phase := phase } ∧
    (phase = s.phase ∨ (s.phase = .tick → s.sys.attempts.rows = []) ∧
      (s.phase = .drain → s.sys.drains.rows = [])) := by
  unfold turn
  split
  · rename_i hp
    split
    · rename_i hempty
      -- `asyncio.gather` has returned, so no allocation is in flight
      exact ⟨.drain, rfl, Or.inr ⟨fun _ => hempty, fun h => (nomatch hp.symm.trans h)⟩⟩
    · exact ⟨s.phase, rfl, Or.inl rfl⟩
  · rename_i hp
    split
    · rename_i hempty
      -- the drain has been committed or rolled back
      exact ⟨if reaps then .reap else .tick, rfl,
        Or.inr ⟨fun h => (nomatch hp.symm.trans h), fun _ => hempty⟩⟩
    · exact ⟨s.phase, rfl, Or.inl rfl⟩
  · rename_i hp
    exact ⟨.tick, rfl,
      Or.inr ⟨fun h => (nomatch hp.symm.trans h), fun h => (nomatch hp.symm.trans h)⟩⟩

/-- A lifecycle goes on only when its last `_emit` is done; then it emits the next event of its
    script, or flushes. -/
theorem advance_cases (task : ℕ) (answered : Bool) (event_id : String) (clock_now : ℚ)
    (dup : Bool) :
    s.advance task answered event_id clock_now dup = s ∨
      ∃ l raw stage a, s.lifecycles.get? task = some l ∧
        ((s.mocks l.provider).buffer.tasks l.pcid).Idle ∧
        l.stage.next answered = some (raw, stage) ∧
        ((∃ e : Emission, raw = some e.raw_event_type ∧ a = .emit l.pcid e ∧
            ∀ x ∈ (s.mocks l.provider).buffer.emissions, x.2.event_id ≠ e.event_id) ∨
          raw = none ∧ a = .flush l.pcid) ∧
        s.advance task answered event_id clock_now dup = State.onBuffer
          { s with lifecycles := s.lifecycles.alter task fun l => { l with stage := stage } }
          l.provider a := by
  unfold advance
  split
  · rename_i l hget
    simp only
    split
    · rename_i hready
      obtain ⟨hidle, hfresh⟩ := hready
      -- the coroutine of the call is idle, and the drawn id is new
      simp only [List.all_eq_true, bne_iff_ne] at hfresh
      split
      · rename_i raw stage hnext
        cases raw with
        | some raw_event_type =>
          exact Or.inr ⟨l, _, stage, _, hget, hidle, hnext,
            Or.inl ⟨⟨raw_event_type, event_id, clock_now, dup⟩, rfl, rfl, hfresh⟩, rfl⟩
        | none => exact Or.inr ⟨l, _, stage, _, hget, hidle, hnext, Or.inr ⟨rfl, rfl⟩, rfl⟩
      · exact Or.inl rfl
    · exact Or.inl rfl
  · exact Or.inl rfl

/-- An injector selects agents, and nothing else happens. -/
theorem select_cases (injector campaign_id count : ℕ) (ids : List ℕ) :
    s.outside (.select injector campaign_id count ids) = s ∨
      s.selects campaign_id count ids = true ∧
        s.outside (.select injector campaign_id count ids)
          = { s with leaving := Function.update s.leaving injector ids } := by
  unfold outside
  simp only
  split
  · rename_i hsel
    exact Or.inr ⟨hsel, rfl⟩
  · exact Or.inl rfl

end

/-! ### Stages and buffers -/

/-- The stages and the buffers agree. -/
structure Scripted (s : State) : Prop where
  delivering : ∀ provider pcid, (s.mocks provider).buffer.Delivering pcid
  unique : s.lifecycles.UniqueOn fun l => some (l.provider, l.pcid)
  script : ∀ t l, s.lifecycles.get? t = some l →
    (s.mocks l.provider).buffer.raws l.pcid = l.stage.script ∧
      ((s.mocks l.provider).buffer.tasks l.pcid).flushed = l.stage.isOver
  /-- Without a lifecycle nothing has been emitted. -/
  silent : ∀ provider pcid,
    (∀ t l, s.lifecycles.get? t = some l → (l.provider, l.pcid) ≠ (provider, pcid)) →
    (s.mocks provider).buffer.raws pcid = [] ∧
      ((s.mocks provider).buffer.tasks pcid).flushed = false

/-- What has been emitted comes from a lifecycle. -/
theorem Scripted.of_raws {s : State} (h : s.Scripted) {provider pcid raw : String}
    (hraw : raw ∈ (s.mocks provider).buffer.raws pcid) :
    ∃ t l, s.lifecycles.get? t = some l ∧ l.provider = provider ∧ l.pcid = pcid ∧
      raw ∈ l.stage.script := by
  by_contra hnone
  push Not at hnone
  have hsome : ∃ t l, s.lifecycles.get? t = some l ∧ (l.provider, l.pcid) = (provider, pcid) := by
    by_contra hno
    push Not at hno
    rw [(h.silent provider pcid hno).1] at hraw
    cases hraw
  obtain ⟨t, l, hl, heq⟩ := hsome
  obtain ⟨rfl, rfl⟩ := Prod.mk.inj heq
  rw [(h.script t l hl).1] at hraw
  exact hnone t l hl rfl rfl hraw

/-- No lifecycle has started, and no buffer has seen an event. -/
theorem scripted_init : init.Scripted where
  delivering _ pcid := MockProvider.delivering_init pcid
  unique := Table.uniqueOn_empty _
  script _ _ h := by cases h
  silent _ _ _ := ⟨rfl, rfl⟩

section

variable {s : State}

/-- An action on the buffer of one mock leaves the buffers of the others. -/
theorem onBuffer_buffer (provider other : String) (a : MockProvider.Act) :
    ((s.onBuffer provider a).mocks other).buffer =
      if other = provider then (s.mocks provider).buffer.step a else (s.mocks other).buffer := by
  show (Function.update s.mocks provider _ other).buffer = _
  split
  · rename_i h
    subst h
    rw [Function.update_self]
  · rename_i h
    rw [Function.update_of_ne h]

/-- Nothing is said of the rest of the state. -/
private theorem Scripted.congr {s' : State} (h : s.Scripted)
    (hm : ∀ provider, (s'.mocks provider).buffer = (s.mocks provider).buffer)
    (hl : s'.lifecycles = s.lifecycles) : s'.Scripted where
  delivering provider pcid := by rw [hm]; exact h.delivering provider pcid
  unique := by rw [hl]; exact h.unique
  script t l := by rw [hl, hm]; exact h.script t l
  silent provider pcid := by rw [hl, hm]; exact h.silent provider pcid

/-- A running `_emit` or `_flush` goes on. -/
private theorem Scripted.resume (h : s.Scripted) (provider pcid : String) (reorder : Bool) :
    (s.onBuffer provider (.resume pcid reorder)).Scripted := by
  -- a turn of a coroutine adds no event to any script, and calls no flush
  have hstep : ∀ other q, (((s.onBuffer provider (.resume pcid reorder)).mocks other).buffer.raws q
      = (s.mocks other).buffer.raws q) ∧
      (((s.onBuffer provider (.resume pcid reorder)).mocks other).buffer.tasks q).flushed
        = ((s.mocks other).buffer.tasks q).flushed := by
    intro other q
    rw [onBuffer_buffer]
    split
    · rename_i heq
      rw [heq]
      exact ⟨MockProvider.raws_resume reorder, MockProvider.flushed_resume reorder⟩
    · exact ⟨rfl, rfl⟩
  refine ⟨fun other q => ?_, h.unique, fun t l hl => ?_, fun other q hnone => ?_⟩
  · rw [onBuffer_buffer]
    split
    · exact (h.delivering provider q).step _
    · exact h.delivering other q
  · rw [(hstep _ _).1, (hstep _ _).2]
    exact h.script t l hl
  · rw [(hstep _ _).1, (hstep _ _).2]
    exact h.silent other q hnone

/-- A lifecycle starts. -/
private theorem Scripted.push {s' : State} (h : s.Scripted) {provider pcid : String}
    (hfresh : ∀ t l, s.lifecycles.get? t = some l → (l.provider, l.pcid) ≠ (provider, pcid))
    (hm : s'.mocks = s.mocks) (hl : s'.lifecycles = s.lifecycles.push ⟨provider, pcid, .placed⟩) :
    s'.Scripted where
  delivering p q := by rw [hm]; exact h.delivering p q
  unique := by
    rw [hl]
    refine h.unique.push fun t l hget heq => hfresh t l hget (Option.some.inj heq)
  script t l hget := by
    rw [hl] at hget
    rw [hm]
    rcases Table.cases_of_get?_push hget with ⟨_, rfl⟩ | hold
    · -- a fresh id has emitted nothing
      exact h.silent provider pcid hfresh
    · exact h.script t l hold
  silent p q hnone := by
    rw [hm]
    refine h.silent p q fun t l hget => hnone t l ?_
    rw [hl, Table.get?_push, if_neg (Table.ne_nextId hget), hget]

/-- A lifecycle takes its next step: it emits an event, or it flushes. -/
private theorem Scripted.next {s' : State} (h : s.Scripted) {t : ℕ} {l : Lifecycle}
    (hget : s.lifecycles.get? t = some l)
    (hidle : ((s.mocks l.provider).buffer.tasks l.pcid).Idle) {answered : Bool}
    {raw : Option String} {stage : Stage} (hnext : l.stage.next answered = some (raw, stage))
    {a : MockProvider.Act}
    (ha : (∃ e : Emission, raw = some e.raw_event_type ∧ a = .emit l.pcid e ∧
        ∀ x ∈ (s.mocks l.provider).buffer.emissions, x.2.event_id ≠ e.event_id) ∨
      raw = none ∧ a = .flush l.pcid)
    (hm : s'.mocks = (s.onBuffer l.provider a).mocks)
    (hl : s'.lifecycles = s.lifecycles.alter t fun l => { l with stage := stage }) :
    s'.Scripted := by
  obtain ⟨hscript, hopen, hover⟩ := Stage.next_script hnext
  obtain ⟨hraws, hflushed⟩ := h.script t l hget
  rw [hopen] at hflushed
  have hself : ((s.mocks l.provider).buffer.step a).raws l.pcid = stage.script ∧
      (((s.mocks l.provider).buffer.step a).tasks l.pcid).flushed = stage.isOver := by
    rw [hscript, hover]
    rcases ha with ⟨e, rfl, rfl, _⟩ | ⟨rfl, rfl⟩
    · obtain ⟨hr, hf⟩ := MockProvider.emit_enabled hidle hflushed e
      exact ⟨hr.trans (by rw [hraws]; rfl), hf⟩
    · obtain ⟨hr, hf⟩ := MockProvider.flush_enabled hidle hflushed
      exact ⟨hr.trans (by rw [hraws]; simp), hf⟩
  have hother : ∀ p q, (p, q) ≠ (l.provider, l.pcid) →
      (s'.mocks p).buffer.raws q = (s.mocks p).buffer.raws q ∧
        ((s'.mocks p).buffer.tasks q).flushed = ((s.mocks p).buffer.tasks q).flushed := by
    intro p q hne
    rw [hm, onBuffer_buffer]
    split
    · rename_i hp
      subst hp
      have hq : l.pcid ≠ q := fun hq => hne (by rw [hq])
      have hsteps := fun e => MockProvider.step_other (m := (s.mocks l.provider).buffer) hq e
      rcases ha with ⟨e, _, rfl, _⟩ | ⟨_, rfl⟩
      · rw [(hsteps e).1.1, (hsteps e).1.2]
        exact ⟨rfl, rfl⟩
      · have hstep := (hsteps ⟨"", "", 0, false⟩).2
        rw [hstep.1, hstep.2]
        exact ⟨rfl, rfl⟩
    · exact ⟨rfl, rfl⟩
  have hbuffer : (s'.mocks l.provider).buffer = (s.mocks l.provider).buffer.step a := by
    rw [hm, onBuffer_buffer, if_pos rfl]
  -- the other lifecycles have other references
  have hdistinct : ∀ u l', u ≠ t → s.lifecycles.get? u = some l' →
      (l'.provider, l'.pcid) ≠ (l.provider, l.pcid) := fun u l' hne hget' heq =>
    hne (h.unique u l' t l hget' hget (Option.some_ne_none _) (congrArg some heq))
  refine ⟨fun p q => ?_, ?_, fun u l' hu => ?_, fun p q hnone => ?_⟩
  · rw [hm, onBuffer_buffer]
    split
    · exact (h.delivering _ q).step _
    · exact h.delivering p q
  · rw [hl]
    exact h.unique.modify fun _ _ _ _ => rfl
  · rw [hl] at hu
    rcases Table.cases_of_get?_alter hget hu with ⟨rfl, rfl⟩ | ⟨hne, hold⟩
    · show (s'.mocks l.provider).buffer.raws l.pcid = _ ∧ _
      rw [hbuffer]
      exact hself
    · obtain ⟨hr, hf⟩ := hother _ _ (hdistinct u l' hne hold)
      rw [hr, hf]
      exact h.script u l' hold
  · have hnone' : ∀ u l', s.lifecycles.get? u = some l' → (l'.provider, l'.pcid) ≠ (p, q) := by
      intro u l' hu
      obtain ⟨l'', hu', hsame⟩ := Table.exists_get?_modify
        (p := fun i _ => i == t) (f := fun l : Lifecycle => { l with stage := stage })
        (g := fun l => (l.provider, l.pcid)) (fun _ => rfl) u l' hu
      rw [← hsame]
      exact hnone u l'' (by rw [hl]; exact hu')
    obtain ⟨hr, hf⟩ := hother p q (hnone' t l hget).symm
    rw [hr, hf]
    exact h.silent p q hnone'

end

/-- **Step.** -/
theorem scripted_step (cfg : Settings) {s : State} (h : s.Scripted) (a : Act) :
    (step cfg s a).Scripted := by
  -- nothing here looks at the database
  have hsys : ∀ s' : State, s'.Scripted → ∀ sys, State.Scripted { s' with sys := sys } :=
    fun s' hs' sys => hs'.congr (fun _ => rfl) rfl
  refine hsys _ ?_ _
  cases a with
  | hire | loop | settle => exact h
  | turn reaps =>
    obtain ⟨phase, hs, _⟩ := s.turn_cases reaps
    show (s.turn reaps).Scripted
    rw [hs]
    exact h.congr (fun _ => rfl) rfl
  | place clock_now call_id timeout hard_fail pcid =>
    show (s.place clock_now call_id timeout hard_fail pcid).Scripted
    rcases s.place_cases clock_now call_id timeout hard_fail pcid with hs |
      ⟨att, _, _, hfresh, hs | hs⟩ <;> rw [hs]
    · exact h
    · exact h.congr (fun _ => rfl) rfl
    · exact h.push hfresh rfl rfl
  | outage clock_now dur provider =>
    -- an outage is a time in the mock; its buffer goes on
    refine h.congr (fun other => ?_) rfl
    show (Function.update s.mocks provider _ other).buffer = _
    by_cases hp : other = provider
    · subst hp
      rw [Function.update_self]
      rfl
    · rw [Function.update_of_ne hp]
  | select injector campaign_id count ids =>
    rcases s.select_cases injector campaign_id count ids with hs | ⟨_, hs⟩ <;> rw [hs]
    · exact h
    · exact h.congr (fun _ => rfl) rfl
  | logout => exact h.congr (fun _ => rfl) rfl
  | advance task answered event_id clock_now dup =>
    show (s.advance task answered event_id clock_now dup).Scripted
    rcases s.advance_cases task answered event_id clock_now dup with hs |
      ⟨l, raw, stage, a, hget, hidle, hnext, ha, hs⟩ <;> rw [hs]
    · exact h
    · exact h.next hget hidle hnext ha rfl rfl
  | resume now provider pcid reorder => exact h.resume provider pcid reorder

end State

end Scenario

end SmartDialer
