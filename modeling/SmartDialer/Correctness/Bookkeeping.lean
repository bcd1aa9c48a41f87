import SmartDialer.Lib.Counting
import SmartDialer.Correctness.OneLiveCall

namespace SmartDialer

open Relational

/-!
# Attempts are counted exactly once

While the reaper fails no call whose attempt is still to run its second transaction, every attempt
is counted by the transaction that ends its call, and by no other.  So the count of a borrower is
the number of its calls that have ended (`Books.Exact`), and a borrower that is out of the pool has
no live call left whose end could bring it back.
-/

/-- Every count belongs to a call that ended, and a live call keeps its borrower in the pool. -/
structure Books.Exact (B : Books) : Prop where
  count : ∀ k b, B.borrowers.get? k = some b →
    b.attempt_count = B.calls.count fun _ c => c.borrower_id == k && c.state.isTerminal
  held : ∀ i c b, B.calls.get? i = some c → c.state.isTerminal = false →
    B.borrowers.get? c.borrower_id = some b → b.state = .PENDING ∨ b.state = .LOCKED

/-- Nothing is counted late. -/
def Books.Punctual (_ : Books) : Entry → Prop
  | .late _ => False
  | _ => True

/-- Without late counts there is none to exclude. -/
theorem Books.Punctual.timely {B : Books} {e : Entry} (h : B.Punctual e) : B.Timely e := by
  cases e with
  | late => exact h.elim
  | routine | unlocked => trivial

/-- The borrower is out of the pool for good. -/
def BorrowerRow.Closed (b : BorrowerRow) : Prop := b.state = .DONE ∨ b.state = .EXHAUSTED

/-- A closed borrower is not in the pool. -/
theorem BorrowerRow.Closed.not_pooled {b : BorrowerRow} (h : b.Closed) :
    b.state ≠ .PENDING ∧ b.state ≠ .LOCKED := by
  rcases h with h | h <;> rw [h] <;> exact ⟨by decide, by decide⟩

/-- The rows of closed borrowers stay as they are. -/
def Books.KeepsClosed (B B' : Books) : Prop :=
  ∀ k b, B.borrowers.get? k = some b → b.Closed → B'.borrowers.get? k = some b

namespace Books.Exact

variable {B : Books}

/-- Nobody has been called, and nobody has been counted. -/
theorem init : Sys.init.books.Exact := ⟨(fun _ _ h => by cases h), fun _ _ _ h => by cases h⟩

/-- The count of a borrower goes up when one of its calls ends, and at no other time. -/
private theorem count_step {B' : Books} {e : Entry} (h : B.Exact) (hS : B.Serial)
    (hK : B.Punctual e) (hm : B.Step e B') {k : ℕ} {b' : BorrowerRow}
    (hb' : B'.borrowers.get? k = some b') :
    b'.attempt_count = B'.calls.count fun _ c => c.borrower_id == k && c.state.isTerminal := by
  cases hm with
  | kept => exact h.count k b' hb'
  | seeded =>
    rcases Table.cases_of_get?_push hb' with ⟨rfl, rfl⟩ | hb
    · symm
      apply Table.count_eq_zero_iff.mpr
      intro i c hc
      rw [beq_eq_false_iff_ne.mpr (hS.keyed.borrower_ne_nextId hc), Bool.false_and]
    · exact h.count k b' hb
  | @unclaimed lease worker borrower_id b hb hs =>
    rw [Table.alter_alter] at hb'
    obtain ⟨b₀, hb₀, rfl⟩ := Table.exists_of_get?_alter hb'
    have hcount := h.count k b₀ hb₀
    split <;> exact hcount
  | @opened now lease worker provider agent_id borrower_id b hb hs hfree =>
    obtain ⟨b₀, hb₀, rfl⟩ := Table.exists_of_get?_alter hb'
    have hcount := h.count k b₀ hb₀
    -- the new call has not ended
    show _ = (B.calls.push _).count _
    simp only [Table.count_push, CallRepo.createdRow, Bool.and_false, Bool.false_eq_true, if_false,
      Nat.add_zero, show CallState.RESERVED.isTerminal = false from rfl]
    split <;> exact hcount
  | @moved call_id c f hc hlive hf hlive' =>
    have hcount := h.count k b' hb'
    have halter := Table.count_alter f (fun c => c.borrower_id == k && c.state.isTerminal) hc
    simp only [hlive, hlive', Bool.and_false, Bool.false_eq_true, if_false] at halter
    show _ = (B.calls.alter call_id f).count _
    omega
  | @ended call_id c f g hc hlive hf hend hg =>
    obtain ⟨b, hb, rfl⟩ := Table.exists_of_get?_alter hb'
    have hcount := h.count k b hb
    have halter := Table.count_alter f (fun c => c.borrower_id == k && c.state.isTerminal) hc
    simp only [hlive, hend, hf.borrower_id, Bool.and_false, Bool.and_true, Bool.false_eq_true,
      if_false, beq_iff_eq] at halter
    show _ = (B.calls.alter call_id f).count _
    by_cases hid : k = c.borrower_id
    · rw [if_pos hid, (hg b).attempt_count]
      rw [if_pos hid.symm] at halter
      omega
    · rw [if_neg hid]
      rw [if_neg fun h => hid h.symm] at halter
      omega
  | late => exact hK.elim
  | @unlocked now =>
    obtain ⟨b, hb, rfl⟩ := Table.exists_of_get?_modify hb'
    have hcount := h.count k b hb
    split <;> exact hcount

/-- A live call keeps its borrower pending or locked. -/
private theorem held_step {B' : Books} {e : Entry} (h : B.Exact) (hS : B.Serial)
    (hK : B.Punctual e) (hm : B.Step e B') {i : ℕ} {c' : CallRow} {b' : BorrowerRow}
    (hc' : B'.calls.get? i = some c') (hl : c'.state.isTerminal = false)
    (hb' : B'.borrowers.get? c'.borrower_id = some b') :
    b'.state = .PENDING ∨ b'.state = .LOCKED := by
  cases hm with
  | kept => exact h.held i c' b' hc' hl hb'
  | seeded =>
    rcases Table.cases_of_get?_push hb' with ⟨hid, _⟩ | hb
    · exact absurd hid (hS.keyed.borrower_ne_nextId hc')
    · exact h.held i c' b' hc' hl hb
  | @unclaimed lease worker borrower_id b hb hs =>
    rw [Table.alter_alter] at hb'
    rcases Table.cases_of_get?_alter hb hb' with ⟨_, rfl⟩ | ⟨_, hb₀⟩
    · exact Or.inl rfl
    · exact h.held i c' b' hc' hl hb₀
  | @opened now lease worker provider agent_id borrower_id b hb hs hfree =>
    rcases Table.cases_of_get?_alter hb hb' with ⟨_, rfl⟩ | ⟨hid, hb₀⟩
    · exact Or.inr rfl
    · rcases Table.cases_of_get?_push hc' with ⟨_, rfl⟩ | hc
      · exact absurd rfl hid
      · exact h.held i c' b' hc hl hb₀
  | @moved call_id c f hc hlive hf hlive' =>
    rcases Table.cases_of_get?_alter hc hc' with ⟨_, rfl⟩ | ⟨_, hd⟩
    · rw [hf.borrower_id] at hb'
      exact h.held call_id c b' hc hlive hb'
    · exact h.held i c' b' hd hl hb'
  | @ended call_id c f g hc hlive hf hend hg =>
    rcases Table.cases_of_get?_alter hc hc' with ⟨_, rfl⟩ | ⟨hid, hd⟩
    · rw [hend] at hl
      cases hl
    · obtain ⟨b, hb, rfl⟩ := Table.exists_of_get?_alter hb'
      -- the borrower of the call that ended has no other live call
      rw [if_neg fun hbid => hid (hS.single i call_id c' c hd hc hbid hl hlive)]
      exact h.held i c' b hd hl hb
  | late => exact hK.elim
  | @unlocked now =>
    obtain ⟨b, hb, rfl⟩ := Table.exists_of_get?_modify hb'
    split
    · exact Or.inl rfl
    · exact h.held i c' b hc' hl hb

/-- **Step.** Every punctual entry keeps the count of each borrower. -/
theorem step {B' : Books} {e : Entry} (h : B.Exact) (hS : B.Serial) (hK : B.Punctual e)
    (hm : B.Step e B') : B'.Exact where
  count := fun _ _ hb => h.count_step hS hK hm hb
  held := fun _ _ _ hc hl hb => h.held_step hS hK hm hc hl hb

/-- **Step.** A punctual entry leaves the closed borrowers alone. -/
theorem keepsClosed {B' : Books} {e : Entry} (h : B.Exact) (hK : B.Punctual e) (hm : B.Step e B') :
    B.KeepsClosed B' := by
  intro k b hb hclosed
  obtain ⟨hnp, hnl⟩ := hclosed.not_pooled
  have hother : ∀ {j : ℕ} {g : BorrowerRow → BorrowerRow}, k ≠ j →
      (B.borrowers.alter j g).get? k = some b := by
    intro j g hkj
    rw [Table.get?_alter, if_neg hkj, hb]
  cases hm with
  | kept | moved => exact hb
  | seeded => rw [Table.get?_push, if_neg (Table.ne_nextId hb), hb]
  | @unclaimed lease worker borrower_id b₀ hb₀ hs =>
    rw [Table.alter_alter]
    apply hother
    rintro rfl
    rw [hb, Option.some.injEq] at hb₀
    exact hnp (hb₀ ▸ hs)
  | @opened now lease worker provider agent_id borrower_id b₀ hb₀ hs hfree =>
    apply hother
    rintro rfl
    rw [hb, Option.some.injEq] at hb₀
    exact hnp (hb₀ ▸ hs)
  -- a live call keeps its borrower pooled or locked, so not this one
  | @ended call_id c f g hc hlive hf hend hg =>
    apply hother
    rintro rfl
    rcases h.held call_id c b hc hlive hb with hs | hs
    · exact hnp hs
    · exact hnl hs
  | late => exact hK.elim
  | @unlocked now =>
    rw [Table.get?_modify, hb, Option.map_some, if_neg]
    intro hlock
    simp only [BorrowerRepo.isLockExpired, Bool.and_eq_true, beq_iff_eq] at hlock
    exact hnl hlock.1

end Books.Exact

/-! ### Runs -/

/-- A tick of the reaper fails no call whose attempt is still to run its second transaction. -/
def ReaperWaits (s : Sys) : Act → Prop
  | .reap _ now_ts _ => ∀ i att, s.attempts.get? i = some att →
      ∀ c ∈ s.db.calls.get? att.reservation.call_id, isOrphan now_ts c = false
  | _ => True

/-- The condition looks at the attempts in flight, of which there are finitely many. -/
instance (s : Sys) (a : Act) : Decidable (ReaperWaits s a) :=
  match a with
  | .reap _ now_ts _ => inferInstanceAs (Decidable (∀ i att, s.attempts.get? i = some att →
      ∀ c ∈ s.db.calls.get? att.reservation.call_id, isOrphan now_ts c = false))
  | .createAgent .. | .login .. | .logout .. | .pause .. | .seed .. | .reserveAndCreate ..
  | .placeCall .. | .rejected .. | .accepted .. | .abandon .. | .pullback .. | .ingest ..
  | .fetch .. | .read .. | .commit .. | .rollback .. => inferInstanceAs (Decidable True)

/-- The same, as a condition on the moves of the floor. -/
def Floor.Waits (F : Floor) : Move → Prop
  | .orphaned call_id => F.Unattended call_id
  | _ => True

/-- A reaper that waits fails only calls that no attempt will come back to. -/
theorem ReaperWaits.permits {s : Sys} {a : Act} (h : ReaperWaits s a) :
    Permits Floor.Waits s a where
  routine := fun F m hm => by cases m <;> trivial
  staffed := fun _ _ _ => trivial
  refusedLate := fun _ _ _ _ _ _ _ => trivial
  orphaned := by
    rintro now now_ts registry F i c rfl hF hc ho k att hk rfl
    rw [hF] at hk
    rw [h k att hk c hc] at ho
    cases ho
  unlocked := fun _ _ _ _ _ _ _ => trivial

/-- A prompt floor is in particular one where every attempt knows its own call. -/
theorem Floor.Prompt.attempted {F : Floor} (h : F.Prompt) : F.Attempted := by
  intro i att hatt
  obtain ⟨hid, c, hc, hagent, hborrower, hs⟩ := h i att hatt
  exact ⟨hid, c, hc, hagent, hborrower, Or.inl hs⟩

/-- While the reaper waits, the floor is prompt. -/
structure Sys.Awaited (s : Sys) : Prop where
  live : s.Live
  prompt : s.floor.Prompt

/-- No attempt is in flight at the start. -/
theorem awaited_init : Sys.init.Awaited := ⟨live_init, fun _ _ h => by cases h⟩

/-- A floor stays prompt over a move that fails no attended call. -/
private theorem prompt_move {F F' : Floor} {m : Move} (h : F.Prompt) (hH : F.Waits m)
    (hm : F.Step m F') : F'.Prompt := h.step (fun i hi => by subst hi; exact hH) hm

/-- **Step.** The reaper waits, so the attempts in flight find their calls as they left them. -/
theorem awaited_step (cfg : Settings) {s : Sys} {a : Act} (h : s.Awaited) (ha : ReaperWaits s a) :
    (step cfg s a).Awaited where
  live := live_step cfg h.live a
  prompt := (step_path cfg h.live ha.permits).invariant (I := Floor.Prompt)
    (fun _ _ _ hF hH hm => prompt_move hF hH hm) h.prompt

/-- While the reaper waits, a step is a path of punctual entries. -/
theorem step_books_punctual (cfg : Settings) {s : Sys} {a : Act} (h : s.Awaited)
    (ha : ReaperWaits s a) : Path Books.Step Books.Punctual s.books (step cfg s a).books := by
  have hpath := step_path cfg h.live ha.permits
  refine hpath.map Floor.books (I := Floor.Prompt) ?_ ?_ h.prompt
  · intro F m F' hF hH hm
    exact prompt_move hF hH hm
  · intro F m F' hF hH hm
    obtain ⟨_, hnolate⟩ := hF.not_late hm
    apply hm.books hF.attempted (fun _ => trivial)
    cases m with
    | refusedLate att => exact absurd rfl (hnolate att)
    | _ => trivial

/-- **Bookkeeping.** In every run in which the reaper fails no call whose attempt is still to run
    its second transaction,
    * the count of a borrower is the number of its calls that have ended;
    * a borrower that is done or exhausted at some point stays so. -/
theorem borrower_bookkeeping (cfg : Settings) (acts : List Act)
    (h : Along (step cfg) ReaperWaits Sys.init acts) :
    (∀ k b, (run (step cfg) Sys.init acts).db.borrowers.get? k = some b →
      b.attempt_count = (run (step cfg) Sys.init acts).db.calls.count fun _ c =>
        c.borrower_id == k && decide (c.state ∈ terminal)) ∧
    (∀ pre post, acts = pre ++ post → ∀ k b,
      (run (step cfg) Sys.init pre).db.borrowers.get? k = some b →
      b.state = .DONE ∨ b.state = .EXHAUSTED →
      ∃ b', (run (step cfg) Sys.init acts).db.borrowers.get? k = some b' ∧
        (b'.state = .DONE ∨ b'.state = .EXHAUSTED)) := by
  -- the three invariants along a punctual run, at any prefix of it
  have hinv : ∀ {acts}, Along (step cfg) ReaperWaits Sys.init acts →
      (run (step cfg) Sys.init acts).Awaited ∧ (run (step cfg) Sys.init acts).books.Serial ∧
        (run (step cfg) Sys.init acts).books.Exact := by
    intro acts h
    refine ⟨invariant_along (fun s a hs ha => awaited_step cfg hs ha) awaited_init h, ?_⟩
    exact invariant_of_simulation (L := Sys.Awaited) (G := ReaperWaits) (H := Books.Punctual)
      (I := fun B => B.Serial ∧ B.Exact) (fun _ _ hs ha => awaited_step cfg hs ha)
      (fun _ _ hs ha => step_books_punctual cfg hs ha)
      (fun _ _ _ hB hK hm => ⟨hB.1.step hK.timely hm, hB.2.step hB.1 hK hm⟩) awaited_init
      ⟨.init, .init⟩ h
  constructor
  · intro k b hb
    rw [(hinv h).2.2.count k b hb]
    apply Table.count_congr
    intro i c _
    rw [Bool.eq_iff_iff, Bool.and_eq_true, Bool.and_eq_true, decide_eq_true_eq, mem_terminal]
  · rintro pre post rfl k b hb hclosed
    rw [along_append] at h
    obtain ⟨hawaited, hserial, hexact⟩ := hinv h.1
    -- from the prefix on, each step of the books keeps the closed rows
    have hrel := related_of_simulation (L := Sys.Awaited) (G := ReaperWaits) (H := Books.Punctual)
      (I := fun B => B.Serial ∧ B.Exact) (R := Books.KeepsClosed)
      (fun _ _ hs ha => awaited_step cfg hs ha) (fun _ _ hs ha => step_books_punctual cfg hs ha)
      (fun _ _ _ hb _ => hb) (fun _ _ _ h₁ h₂ k b hb hc => h₂ k b (h₁ k b hb hc) hc)
      (fun _ _ _ hB hK hm => ⟨hB.1.step hK.timely hm, hB.2.step hB.1 hK hm⟩)
      (fun _ _ _ hB hK hm => hB.2.keepsClosed hK hm) hawaited ⟨hserial, hexact⟩ h.2
    refine ⟨b, ?_, hclosed⟩
    rw [run_append]
    exact hrel k b hb hclosed

/-- A refused call, and one whose borrower is unlocked before it is completed. -/
def unlockedWhileLive : List Act :=
  [.createAgent 0 7 "ext-1", .login 0 1, .seed 0 7 "+15550001" 100 3,
    .reserveAndCreate 0 0 [] [] (some "mock") "w1" 7, .placeCall 1, .rejected (secs 1) 1,
    .reserveAndCreate (secs 61) (secs 61) [] [] (some "mock") "w1" 7, .placeCall 2,
    .accepted (secs 62) (secs 62) 2 "pc-2", .reap (secs 92) (secs 92) none,
    .ingest (secs 93) "mock" "e-1" (some "pc-2") "completed" (secs 93) "",
    .fetch (secs 94) 1 10, .read (secs 94) 1, .commit 1]

/-- A run in which the lock of a borrower is swept while its call lives: both of its calls are
    counted, each once. -/
theorem borrower_bookkeeping_unlockedWhileLive :
    (∀ k b, (run (step .default) Sys.init unlockedWhileLive).db.borrowers.get? k = some b →
      b.attempt_count = (run (step .default) Sys.init unlockedWhileLive).db.calls.count fun _ c =>
        c.borrower_id == k && decide (c.state ∈ terminal)) ∧
      ((run (step .default) Sys.init unlockedWhileLive).db.borrowers.get? 1).map
        (fun b => (b.state, b.attempt_count)) = some (.DONE, 2) :=
  ⟨(borrower_bookkeeping .default unlockedWhileLive (by decide +kernel)).1, by decide +kernel⟩

end SmartDialer
