import SmartDialer.Worker.Leader

namespace SmartDialer

open Relational

/-!
# One pacing leader

A loop that leads over a live connection holds the lock (`Elected`), and the lock has one holder.  A
loop whose connection is lost still leads; what keeps it alone is that nobody else is granted the
lock before it leaves its loop.

* `step_stepped` — what an action can do.
* `elected_step` — the invariant, which no step breaks.
* `alone_step_iff` — the one step that makes a second leader.
* `one_leader_iff` — whole runs.
-/

/-- No two loops lead: at most one is able to run `tick`. -/
def Election.Alone (s : Election) : Prop :=
  ∀ w w' l l', s.loops.get? w = some l → s.loops.get? w' = some l' → l.phase = .leading →
    l'.phase = .leading → w = w'

/-- A poll that the server grants finds no leader whose connection is lost. -/
def Election.Attached (s : Election) (a : Election.Act) : Prop :=
  ∀ w l, a = .tryLeader w → s.loops.get? w = some l → l.phase = .polling →
    s.server.grants l.lock_con = true →
    ∀ w' l', s.loops.get? w' = some l' → l'.phase = .leading → l'.lock_con ∈ s.server.live

/-- Connections are dedicated to one loop at a time, and a leader holds the lock while its
    connection lives. -/
structure Election.Elected (s : Election) : Prop where
  separate : ∀ w w' l l', s.loops.get? w = some l → s.loops.get? w' = some l' →
    l.phase ≠ .ended → l'.phase ≠ .ended → l.lock_con = l'.lock_con → w = w'
  opened : ∀ w l, s.loops.get? w = some l → l.lock_con < s.server.opened
  holds : ∀ w l, s.loops.get? w = some l → l.phase = .leading → l.lock_con ∈ s.server.live →
    s.server.Holds l.lock_con

namespace Election

/-- No loop has started. -/
theorem elected_init : Election.init.Elected :=
  ⟨fun _ _ _ _ h => (by cases h), fun _ _ h => (by cases h), fun _ _ h => (by cases h)⟩

section

variable {s : Election} {w : ℕ} {l : Loop} {phase : Phase}

/-- The loops after one of them has changed its phase. -/
private theorem cases_of_setPhase (hw : s.loops.get? w = some l) {i : ℕ} {r : Loop}
    (h : (s.setPhase w phase).loops.get? i = some r) :
    (i = w ∧ r = { l with phase := phase }) ∨ (i ≠ w ∧ s.loops.get? i = some r) :=
  Table.cases_of_get?_alter hw h

/-- A running loop changes its phase, and the server does something for its connection that does
    not concern the others. -/
theorem Elected.setPhase (h : s.Elected) (hw : s.loops.get? w = some l) (hrun : l.phase ≠ .ended)
    {server : SessionLock} (hopened : server.opened = s.server.opened)
    (hlive : server.live = s.server.live)
    (hnew : phase = .leading → server.Holds l.lock_con)
    (hothers : ∀ con, con ≠ l.lock_con → s.server.Holds con → server.Holds con) :
    Elected { s.setPhase w phase with server := server } := by
  constructor
  · intro i j r r' hi hj hr hr' hcon
    rcases cases_of_setPhase hw hi with ⟨rfl, rfl⟩ | ⟨_, hi₀⟩
    · rcases cases_of_setPhase hw hj with ⟨rfl, _⟩ | ⟨_, hj₀⟩
      · rfl
      · exact h.separate i j l r' hw hj₀ hrun hr' hcon
    · rcases cases_of_setPhase hw hj with ⟨rfl, rfl⟩ | ⟨_, hj₀⟩
      · exact h.separate i j r l hi₀ hw hr hrun hcon
      · exact h.separate i j r r' hi₀ hj₀ hr hr' hcon
  · intro i r hi
    rw [hopened]
    rcases cases_of_setPhase hw hi with ⟨rfl, rfl⟩ | ⟨_, hi⟩
    · exact h.opened i l hw
    · exact h.opened i r hi
  · intro i r hi hlead hcon
    rcases cases_of_setPhase hw hi with ⟨rfl, rfl⟩ | ⟨hne, hi⟩
    · exact hnew hlead
    · -- another leader has another connection
      have hr : r.phase ≠ .ended := by rw [hlead]; exact fun h => by cases h
      rw [hlive] at hcon
      exact hothers _ (fun heq => hne (h.separate i w r l hi hw hr hrun heq))
        (h.holds i r hi hlead hcon)

/-- A connection that is not taken is the connection of no running loop. -/
theorem taken_eq_false {con : ℕ} (h : s.taken con = false) {i : ℕ} {r : Loop}
    (hi : s.loops.get? i = some r) (hr : r.phase ≠ .ended) : r.lock_con ≠ con := by
  intro hcon
  have hsel := Table.select_eq_nil_iff.mp (of_not_not (of_decide_eq_false h)) i r hi
  simp [hcon, hr] at hsel

/-- A loop starts on a connection that no running loop has. -/
theorem Elected.start (h : s.Elected) {con : ℕ} (hopen : con < s.server.opened)
    (htaken : s.taken con = false) :
    Elected { s with loops := s.loops.insertAt w ⟨con, .polling⟩ } := by
  constructor
  · intro i j r r' hi hj hr hr' hcon
    rcases Table.cases_of_get?_insertAt hi with hi₀ | ⟨rfl, rfl, _⟩
    · rcases Table.cases_of_get?_insertAt hj with hj₀ | ⟨rfl, rfl, _⟩
      · exact h.separate i j r r' hi₀ hj₀ hr hr' hcon
      · exact absurd hcon (taken_eq_false htaken hi₀ hr)
    · rcases Table.cases_of_get?_insertAt hj with hj₀ | ⟨rfl, rfl, _⟩
      · exact absurd hcon.symm (taken_eq_false htaken hj₀ hr')
      · rfl
  · intro i r hi
    rcases Table.cases_of_get?_insertAt hi with hi | ⟨rfl, rfl, _⟩
    · exact h.opened i r hi
    · exact hopen
  · intro i r hi hlead hcon
    rcases Table.cases_of_get?_insertAt hi with hi | ⟨rfl, rfl, _⟩
    · exact h.holds i r hi hlead hcon
    · -- the new loop does not lead yet
      cases hlead

end

/-- What an action can do: run a tick, open or end a session, start a loop on a connection that no
    other loop has, or move one loop to another phase.  Only a poll that is granted moves it to
    `leading`. -/
inductive Stepped (s : Election) (a : Act) : Election → Prop
  | ticked (ticks : List ℕ) : Stepped s a { s with ticks := ticks }
  | connected : Stepped s a { s with server := s.server.openSession }
  | lost (con : ℕ) : Stepped s a { s with server := s.server.endSession con }
  | started {w con : ℕ} : con < s.server.opened → s.taken con = false →
      Stepped s a { s with loops := s.loops.insertAt w ⟨con, .polling⟩ }
  | moved {w : ℕ} {l : Loop} {phase : Phase} {server : SessionLock} :
      s.loops.get? w = some l → l.phase ≠ .ended →
      server.opened = s.server.opened → server.live = s.server.live →
      (phase = .leading → a = .tryLeader w ∧ l.phase = .polling ∧
        s.server.grants l.lock_con = true ∧ server = s.server.tryLock l.lock_con) →
      (∀ con, con ≠ l.lock_con → s.server.Holds con → server.Holds con) →
      Stepped s a { s.setPhase w phase with server := server }

namespace Stepped

variable {s : Election} {a : Act} {w : ℕ} {l : Loop} {phase : Phase}

/-- An action that is not possible is a tick that is recorded as before. -/
private theorem refl : Stepped s a s := .ticked s.ticks

/-- A loop leaves its phase, and the server hears nothing of it. -/
private theorem of_setPhase (hw : s.loops.get? w = some l) (hrun : l.phase ≠ .ended)
    (hphase : phase ≠ .leading) : Stepped s a (s.setPhase w phase) :=
  .moved hw hrun rfl rfl (fun h => absurd h hphase) fun _ _ hold => hold

end Stepped

/-- Releasing the lock opens no session and ends none. -/
private theorem released_eq (server : SessionLock) (con : ℕ) (unlocks reset : Bool) :
    (released server con unlocks reset).opened = server.opened ∧
      (released server con unlocks reset).live = server.live := by
  unfold released
  cases unlocks <;> cases reset <;> exact ⟨rfl, rfl⟩

/-- The release of a connection takes the lock from nobody else. -/
private theorem holds_released {server : SessionLock} {con con' : ℕ} (hne : con' ≠ con)
    (hold : server.Holds con') (unlocks reset : Bool) :
    (released server con unlocks reset).Holds con' := by
  unfold released
  cases unlocks <;> cases reset
  · exact hold
  · exact hold.unlockAll_of_ne hne
  · exact hold.unlock_of_ne hne
  · exact (hold.unlock_of_ne hne).unlockAll_of_ne hne

/-- Every action does one of these things; the proof follows the cases of `step`. -/
theorem step_stepped (s : Election) (a : Act) : s.Stepped a (s.step a) := by
  cases a with
  | connect => exact .connected
  | lose con => exact .lost con
  | dedicated w con =>
    rw [step]
    split
    · rename_i hok
      exact .started hok.2.1 hok.2.2
    · exact .refl
  | tryLeader w =>
    rw [step]
    split
    · rename_i con hw
      split
      · split
        · rename_i hgrant
          exact .moved hw (fun h => by cases h) (SessionLock.tryLock_opened _ _)
            SessionLock.tryLock_live (fun _ => ⟨rfl, rfl, hgrant, rfl⟩) fun _ _ hold => hold.tryLock
        · exact .refl
      · -- the connection is lost, so `try_leader` raises
        exact .of_setPhase hw (fun h => by cases h) fun h => by cases h
    · exact .refl
  | cancelTryLeader w =>
    rw [step]
    split
    · rename_i con hw
      exact .moved hw (fun h => by cases h) (SessionLock.tryLock_opened _ _)
        SessionLock.tryLock_live (fun h => by cases h) fun _ _ hold => hold.tryLock
    · exact .refl
  | tick w =>
    rw [step]
    split
    · exact .ticked _
    · exact .refl
  | raised w =>
    rw [step]
    split
    · rename_i con hw
      exact .of_setPhase hw (fun h => by cases h) fun h => by cases h
    · rename_i con hw
      exact .of_setPhase hw (fun h => by cases h) fun h => by cases h
    · exact .refl
  | leave w completes reset =>
    rw [step]
    split
    · rename_i con leader hw
      obtain ⟨hopened, hlive⟩ := released_eq s.server con (leader && completes) reset
      exact .moved hw (fun h => by cases h) hopened hlive (fun h => by cases h)
        fun con' hne hold => holds_released hne hold _ _
    · exact .refl
  | crash w =>
    rw [step]
    split
    · exact .refl
    · rename_i l hnot hw
      refine .of_setPhase hw (fun hend => ?_) fun h => by cases h
      exact hnot l.lock_con (by rw [← hend])
    · exact .refl

/-- **Invariant.** No step breaks it: not the loss of a connection, a cancelled poll or a crash. -/
theorem elected_step (s : Election) (a : Act) (h : s.Elected) : (s.step a).Elected := by
  have hstep := step_stepped s a
  generalize s.step a = s' at hstep ⊢
  cases hstep with
  | ticked => exact ⟨h.separate, h.opened, h.holds⟩
  | connected =>
    refine ⟨h.separate, fun i r hi => Nat.lt_succ_of_lt (h.opened i r hi), ?_⟩
    intro i r hi hlead hcon
    -- the new session is nobody's yet
    apply h.holds i r hi hlead
    rcases List.mem_append.mp hcon with hcon | hcon
    · exact hcon
    · have hlt := h.opened i r hi
      rw [List.mem_singleton.mp hcon] at hlt
      exact absurd hlt (Nat.lt_irrefl _)
  | lost con =>
    -- the leader on this connection has nothing to show any more, the others hold what they held
    refine ⟨h.separate, h.opened, fun i r hi hlead hcon => ?_⟩
    obtain ⟨hmem, hne⟩ := List.mem_filter.mp hcon
    exact (h.holds i r hi hlead hmem).endSession_of_ne (by simpa using hne)
  | started hopen htaken => exact h.start hopen htaken
  | moved hw hrun hopened hlive hlead hothers =>
    refine h.setPhase hw hrun hopened hlive (fun hphase => ?_) hothers
    obtain ⟨_, _, hgrant, rfl⟩ := hlead hphase
    exact SessionLock.holds_tryLock_of_grants hgrant

/-- A loop that leads after a step led before it, or has been granted the lock. -/
theorem leads_step {s : Election} {a : Act} {w : ℕ} {l' : Loop}
    (h : (s.step a).loops.get? w = some l') (hlead : l'.phase = .leading) :
    (∃ l, s.loops.get? w = some l ∧ l.phase = .leading) ∨
      (a = .tryLeader w ∧ ∃ l, s.loops.get? w = some l ∧ l.phase = .polling ∧
        s.server.grants l.lock_con = true) := by
  have hstep := step_stepped s a
  generalize s.step a = s' at h hstep
  cases hstep with
  | ticked | connected | lost => exact Or.inl ⟨l', h, hlead⟩
  | started =>
    rcases Table.cases_of_get?_insertAt h with h | ⟨_, rfl, _⟩
    · exact Or.inl ⟨l', h, hlead⟩
    · cases hlead
  | moved hw _ _ _ hgranted =>
    rcases cases_of_setPhase hw h with ⟨rfl, rfl⟩ | ⟨_, h⟩
    · obtain ⟨ha, hpoll, hgrant, _⟩ := hgranted hlead
      exact Or.inr ⟨ha, _, hw, hpoll, hgrant⟩
    · exact Or.inl ⟨l', h, hlead⟩

/-- **Step.** A second leader appears exactly when the lock is granted past a leader that has lost
    its connection. -/
theorem alone_step_iff (s : Election) (a : Act) (h : s.Elected) (halone : s.Alone) :
    (s.step a).Alone ↔ s.Attached a := by
  constructor
  · rintro hafter w ⟨con, phase⟩ rfl hw rfl hgrant w' l' hw' hlead
    -- both lead after the grant, so there was no leader
    have hne : w' ≠ w := by
      rintro rfl
      rw [hw, Option.some.injEq] at hw'
      rw [← hw'] at hlead
      cases hlead
    have hstep : s.step (.tryLeader w) =
        { s.setPhase w .leading with server := s.server.tryLock con } := by
      simp only [step, hw]
      rw [if_pos (SessionLock.mem_live_of_grants hgrant), if_pos hgrant]
    have hnew : (s.step (.tryLeader w)).loops.get? w = some ⟨con, .leading⟩ := by
      rw [hstep]
      show (s.loops.alter w _).get? w = _
      rw [Table.get?_alter, if_pos rfl, hw]
      rfl
    have hold : (s.step (.tryLeader w)).loops.get? w' = some l' := by
      rw [hstep]
      show (s.loops.alter w _).get? w' = _
      rw [Table.get?_alter, if_neg hne, hw']
    exact absurd (hafter w' w l' _ hold hnew hlead rfl) hne
  · intro hatt i j r r' hi hj hr hr'
    -- a leader over a live connection holds the lock, and the grant shows that it is the new one
    have hsame : ∀ {w w' : ℕ} {l l' : Loop}, a = .tryLeader w → s.loops.get? w = some l →
        l.phase = .polling → s.server.grants l.lock_con = true → s.loops.get? w' = some l' →
        l'.phase = .leading → w' = w := by
      intro w w' l l' ha hw hpoll hgrant hw' hlead
      have hlive := hatt w l ha hw hpoll hgrant w' l' hw' hlead
      have hcon := SessionLock.eq_of_grants hgrant (h.holds w' l' hw' hlead hlive)
      refine h.separate w' w l' l hw' hw ?_ ?_ hcon
      · rw [hlead]; exact fun h => by cases h
      · rw [hpoll]; exact fun h => by cases h
    rcases leads_step hi hr with ⟨l, hl, hlead⟩ | ⟨ha, l, hl, hpoll, hgrant⟩
    · rcases leads_step hj hr' with ⟨l', hl', hlead'⟩ | ⟨ha', l', hl', hpoll', hgrant'⟩
      · exact halone i j l l' hl hl' hlead hlead'
      · exact hsame ha' hl' hpoll' hgrant' hl hlead
    · rcases leads_step hj hr' with ⟨l', hl', hlead'⟩ | ⟨ha', _⟩
      · exact (hsame ha hl hpoll hgrant hl' hlead').symm
      · rw [ha] at ha'
        exact Act.tryLeader.inj ha'

/-- **One leader.** In a run of the loops of a campaign no two of them are ever able to tick exactly
    if no poll is granted while a leader has lost its connection.  Leadership is a flag that is set
    when the lock was granted; the lock ends with its connection, and the flag does not. -/
theorem one_leader_iff (acts : List Act) :
    (∀ pre, pre <+: acts → (run step init pre).Alone) ↔ Along step Attached init acts :=
  forall_prefix_iff_along elected_step alone_step_iff elected_init
    (fun _ _ _ _ h => by cases h) acts

/-- A leader loses its lock connection, and goes on: another loop is granted the lock and ticks as
    well. -/
def lostConnection : List Act :=
  [.connect, .connect, .dedicated 1 0, .dedicated 2 1, .tryLeader 1, .tick 1, .tryLeader 2, .lose 0,
    .tick 1, .tryLeader 2, .tick 2, .tick 1]

/-- In this run both loops lead at the end, and both have ticked. -/
theorem lostConnection_not_alone : ¬ (run step init lostConnection).Alone ∧
    (run step init lostConnection).ticks = [1, 1, 2, 1] := by
  refine ⟨fun h => ?_, by decide +kernel⟩
  have h₁ : (run step init lostConnection).loops.get? 1 = some ⟨0, .leading⟩ := by decide +kernel
  have h₂ : (run step init lostConnection).loops.get? 2 = some ⟨1, .leading⟩ := by decide +kernel
  exact absurd (h 1 2 _ _ h₁ h₂ rfl rfl) (by decide)

end Election

end SmartDialer
