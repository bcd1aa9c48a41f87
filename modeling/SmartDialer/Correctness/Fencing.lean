import SmartDialer.Statements

namespace SmartDialer

open Relational

/-!
# The version of an agent is a fencing token

`Fenced` relates two databases when every agent row of the first is found in the second,
either untouched or under a higher version.  It is reflexive and transitive, and every statement
keeps it, so it relates any two points of a run.  A version therefore names one row image for
good: whoever still sees the version he read sees the row he read (`Fenced.eq_of_version`), and
the compare-and-swap cannot be fooled by a row that went away and came back.
-/

/-- Every agent row is still the same, or has a higher version. -/
def Fenced (db db' : Db) : Prop :=
  ∀ i a, db.agents.get? i = some a →
    ∃ a', db'.agents.get? i = some a' ∧ (a' = a ∨ a.version < a'.version)

/-- A row that nobody wrote is the same. -/
theorem Fenced.refl (db : Db) : Fenced db db := fun _ a ha => ⟨a, ha, Or.inl rfl⟩

/-- Versions only grow, so the relation composes over any number of statements. -/
theorem Fenced.trans (db₁ db₂ db₃ : Db) (h₁₂ : Fenced db₁ db₂) (h₂₃ : Fenced db₂ db₃) :
    Fenced db₁ db₃ := by
  intro i a ha
  obtain ⟨b, hb, hab⟩ := h₁₂ i a ha
  obtain ⟨c, hc, hbc⟩ := h₂₃ i b hb
  refine ⟨c, hc, ?_⟩
  rcases hab with rfl | hab
  · exact hbc
  · rcases hbc with rfl | hbc
    · exact Or.inr hab
    · exact Or.inr (hab.trans hbc)

/-- Between two points that see the same version nothing has touched the row. -/
theorem Fenced.eq_of_version {db₁ db₂ db₃ : Db} (h₁₂ : Fenced db₁ db₂) (h₂₃ : Fenced db₂ db₃)
    {i : ℕ} {a c : AgentRow} (ha : db₁.agents.get? i = some a) (hc : db₃.agents.get? i = some c)
    (hver : c.version = a.version) : db₂.agents.get? i = some a ∧ c = a := by
  obtain ⟨b, hb, hab⟩ := h₁₂ i a ha
  obtain ⟨c', hc', hbc⟩ := h₂₃ i b hb
  rw [hc, Option.some.injEq] at hc'
  subst hc'
  rcases hab with rfl | hab
  · -- untouched up to the middle, and a rise after it would show at the end
    refine ⟨hb, hbc.resolve_right ?_⟩
    omega
  · rcases hbc with rfl | hbc <;> omega

/-! ### Statements -/

/-- A statement leaves each agent row alone that its `WHERE` clause does not select, and counts the
    version of the others up by one. -/
theorem exec_agent {db : Db} (s : Stmt) {i : ℕ} {a : AgentRow} (ha : db.agents.get? i = some a) :
    ∃ a', (s.exec db).agents.get? i = some a' ∧
      (s.selects i a = true → a'.version = a.version + 1) ∧ (s.selects i a = false → a' = a) := by
  have heff := Stmt.exec_effect db s
  generalize s.exec db = db' at heff ⊢
  generalize s.selects = p at heff ⊢
  -- an `INSERT`, or an `UPDATE` of `calls`
  have hkeep : ∀ {db' : Db}, db'.agents.get? i = some a → ∃ a', db'.agents.get? i = some a' ∧
      (false = true → a'.version = a.version + 1) ∧ (false = false → a' = a) :=
    fun ha' => ⟨a, ha', fun h => absurd h Bool.false_ne_true, fun _ => rfl⟩
  cases heff with
  | none => exact hkeep ha
  | insertAgent h =>
    have hagents := congrArg View.agents (insertAgent_run h)
    rw [Db.view_agents] at hagents
    refine hkeep ?_
    rw [hagents, Table.get?_push, if_neg (Table.ne_nextId ha), ha]
  | updateAgents now p f hf =>
    refine ⟨if p i a then f a else a, ?_, fun h => ?_, fun h => ?_⟩
    · show (db.agents.modify p f).get? i = _
      rw [Table.get?_modify, ha]
      rfl
    · rw [if_pos h]
      exact (hf a).2
    · rw [h]
      rfl
  | insertCall h =>
    have hagents := congrArg View.agents (insertCall_run h).2.1
    exact hkeep ((congrArg (fun t => Table.get? t i) hagents).trans ha)
  | updateCalls hf h =>
    have hagents := congrArg View.agents (updateCalls_view h).2
    exact hkeep ((congrArg (fun t => Table.get? t i) hagents).trans ha)

/-- **Step.** Every statement leaves each agent row alone or raises its version. -/
theorem fenced_exec (db : Db) (s : Stmt) : Fenced db (s.exec db) := by
  intro i a ha
  obtain ⟨a', ha', hwritten, hkept⟩ := exec_agent s ha
  refine ⟨a', ha', ?_⟩
  cases hs : s.selects i a with
  | true => exact Or.inr (by rw [hwritten hs]; exact Nat.lt_succ_self _)
  | false => exact Or.inl (hkept hs)

/-- **Run.** The fence holds between the ends of every run of statements. -/
theorem fenced_run (db : Db) (stmts : List Stmt) : Fenced db (run Stmt.exec db stmts) :=
  related_run (I := fun _ => True) (R := Fenced) Fenced.refl Fenced.trans (fun _ _ _ => trivial)
    (fun db s _ => fenced_exec db s) trivial stmts

/-! ### The compare-and-swap -/

/-- `reserve` won: it reported success in this state. -/
def ReserveWins (now : Time) (agent_id version : ℕ) (worker : String) (lease_until : Time)
    (db : Db) : Prop :=
  (AgentRepo.reserve now agent_id version worker lease_until).result db = some true

/-- A winning `reserve` finds the agent available at the version and leaves a higher one. -/
theorem ReserveWins.spec {now : Time} {agent_id version : ℕ} {worker : String} {lease_until : Time}
    {db : Db} (h : ReserveWins now agent_id version worker lease_until db) :
    (∃ a, db.agents.get? agent_id = some a ∧ a.state = .AVAILABLE ∧ a.version = version) ∧
      ∃ a', (Stmt.exec db (.reserve now agent_id version worker lease_until)).agents.get? agent_id
        = some a' ∧ version < a'.version := by
  obtain ⟨won, db', hrun, hres⟩ :=
    AgentRepo.reserve_run now agent_id version worker lease_until db
  obtain ⟨hcommit, hresult⟩ := Txn.commit_of_run hrun
  rw [ReserveWins, hresult, Option.some.injEq] at h
  rcases hres with ⟨_, ⟨a, ha, hs, hv⟩, hview⟩ | ⟨hlost, _⟩
  · refine ⟨⟨a, ha, hs, hv⟩, AgentRepo.reservedRow now worker lease_until a, ?_, ?_⟩
    · have hagents := congrArg View.agents hview
      rw [Db.view_agents] at hagents
      rw [Stmt.exec, hcommit, hagents, View.setAgent, Db.view_agents, Table.get?_alter, if_pos rfl,
        ha]
      rfl
    · show version < a.version + 1
      omega
  · rw [h] at hlost
    cases hlost

/-- **Fencing.** In any run of statements,
    * every statement counts the version of each agent row up by one that its `WHERE` clause
      selects, and leaves every other row alone;
    * of two `reserve`s with the same agent and version at most one succeeds;
    * a `reserve` with a version that was read from a row succeeds only if that row was available
      and has not been touched at any point since it was read. -/
theorem reserve_fenced (db : Db) (stmts : List Stmt) :
    (∀ pre s post, stmts = pre ++ s :: post →
      ∀ i a, (run Stmt.exec db pre).agents.get? i = some a →
        ∃ a', (run Stmt.exec db (pre ++ [s])).agents.get? i = some a' ∧
          (s.selects i a = true → a'.version = a.version + 1) ∧
          (s.selects i a = false → a' = a)) ∧
    (∀ pre mid post now₁ now₂ agent_id version worker₁ worker₂ lease₁ lease₂,
      stmts = pre ++ .reserve now₁ agent_id version worker₁ lease₁ ::
        (mid ++ .reserve now₂ agent_id version worker₂ lease₂ :: post) →
      ¬ (ReserveWins now₁ agent_id version worker₁ lease₁ (run Stmt.exec db pre) ∧
        ReserveWins now₂ agent_id version worker₂ lease₂
          (run Stmt.exec db (pre ++ .reserve now₁ agent_id version worker₁ lease₁ :: mid)))) ∧
    (∀ pre mid post now agent_id worker lease a,
      stmts = pre ++ (mid ++ .reserve now agent_id a.version worker lease :: post) →
      (run Stmt.exec db pre).agents.get? agent_id = some a →
      ReserveWins now agent_id a.version worker lease (run Stmt.exec db (pre ++ mid)) →
      a.state = .AVAILABLE ∧ ∀ mid₁ mid₂, mid = mid₁ ++ mid₂ →
        (run Stmt.exec db (pre ++ mid₁)).agents.get? agent_id = some a) := by
  refine ⟨?_, ?_, ?_⟩
  · intro pre s post _ i a ha
    rw [run_append]
    exact exec_agent s ha
  · rintro pre mid post now₁ now₂ agent_id version worker₁ worker₂ lease₁ lease₂ _ ⟨h₁, h₂⟩
    -- the first winner leaves a higher version, and no statement lowers it again
    obtain ⟨_, a', ha', hlt⟩ := h₁.spec
    obtain ⟨⟨b, hb, _, hver⟩, _⟩ := h₂.spec
    rw [run_append, run_cons] at hb
    obtain ⟨b', hb', hab⟩ := fenced_run _ mid agent_id a' ha'
    rw [hb, Option.some.injEq] at hb'
    subst hb'
    rcases hab with rfl | hab <;> omega
  · intro pre mid post now agent_id worker lease a _ ha hwin
    obtain ⟨⟨b, hb, hs, hver⟩, _⟩ := hwin.spec
    have hread : ∀ mid₁ mid₂, mid = mid₁ ++ mid₂ →
        (run Stmt.exec db (pre ++ mid₁)).agents.get? agent_id = some a ∧ b = a := by
      rintro mid₁ mid₂ rfl
      -- equal versions at both ends leave no room for a write in between
      have h₁₂ := fenced_run (run Stmt.exec db pre) mid₁
      have h₂₃ := fenced_run (run Stmt.exec db (pre ++ mid₁)) mid₂
      rw [← run_append] at h₁₂ h₂₃
      rw [← List.append_assoc] at hb
      exact h₁₂.eq_of_version h₂₃ ha hb hver
    refine ⟨?_, fun mid₁ mid₂ h => (hread mid₁ mid₂ h).1⟩
    rw [← (hread mid [] (List.append_nil mid).symm).2]
    exact hs

end SmartDialer
