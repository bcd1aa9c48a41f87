import SmartDialer.Lib.Counting
import SmartDialer.Correctness.Keys

namespace SmartDialer

open Relational

/-!
# The cap on the calls of a borrower

However the transactions interleave, a borrower is in the pool only while its count is below the
maximum, so every call made for it carries an attempt number within the cap (`Books.Capped`), and
the keys make these numbers distinct.  A provider is called at most once for each call
(`Sys.PlacedOnce`), so the cap bounds the requests as well.
-/

/-! ### Calls -/

/-- A borrower in the pool has attempts left, and its calls are numbered within the cap. -/
structure Books.Capped (B : Books) : Prop where
  room : ∀ k b, B.borrowers.get? k = some b → 1 ≤ b.max_attempts →
    b.state = .PENDING ∨ b.state = .LOCKED → b.attempt_count < b.max_attempts
  range : ∀ i c b, B.calls.get? i = some c → B.borrowers.get? c.borrower_id = some b →
    1 ≤ b.max_attempts → 1 ≤ c.attempt_no ∧ c.attempt_no ≤ b.max_attempts

/-- Every borrower is still there, with the same cap. -/
def Books.KeepsCap (B B' : Books) : Prop :=
  ∀ k b, B.borrowers.get? k = some b →
    ∃ b', B'.borrowers.get? k = some b' ∧ b'.max_attempts = b.max_attempts

namespace Books.Capped

variable {B : Books}

/-- Without borrowers there is no cap to exceed. -/
theorem init : Sys.init.books.Capped := ⟨(fun _ _ h => by cases h), fun _ _ _ h => by cases h⟩

/-- An update of borrowers that keeps the cap, and lets no borrower without attempts left into the
    pool. -/
private theorem modify_borrowers (h : B.Capped) {p : ℕ → BorrowerRow → Bool}
    {g : BorrowerRow → BorrowerRow} (hmax : ∀ b, (g b).max_attempts = b.max_attempts)
    (hroom : ∀ k b, B.borrowers.get? k = some b → p k b = true → 1 ≤ b.max_attempts →
      (g b).state = .PENDING ∨ (g b).state = .LOCKED → (g b).attempt_count < b.max_attempts) :
    Books.Capped { B with borrowers := B.borrowers.modify p g } := by
  constructor
  · intro k b' hb' hcap hs
    obtain ⟨b, hb, rfl⟩ := Table.exists_of_get?_modify hb'
    cases hp : p k b with
    | true =>
      simp only [hp, if_true, hmax] at hcap hs ⊢
      exact hroom k b hb hp hcap hs
    | false =>
      simp only [hp, Bool.false_eq_true, if_false] at hcap hs ⊢
      exact h.room k b hb hcap hs
  · intro i c b' hc hb' hcap
    obtain ⟨b, hb, rfl⟩ := Table.exists_of_get?_modify hb'
    have hsame : (if p c.borrower_id b = true then g b else b).max_attempts = b.max_attempts := by
      split
      · exact hmax b
      · rfl
    rw [hsame] at hcap ⊢
    exact h.range i c b hc hb hcap

/-- An update of one call that lets it evolve. -/
private theorem alter_calls (h : B.Capped) {k : ℕ} {c : CallRow} {f : CallRow → CallRow}
    (hc : B.calls.get? k = some c) (hf : c.Evolves (f c)) :
    Books.Capped { B with calls := B.calls.alter k f } := by
  refine ⟨h.room, fun i c' b hc' hb hcap => ?_⟩
  rcases Table.cases_of_get?_alter hc hc' with ⟨_, rfl⟩ | ⟨_, hd⟩
  · rw [hf.borrower_id] at hb
    rw [hf.attempt_no]
    exact h.range k c b hc hb hcap
  · exact h.range i c' b hd hb hcap

/-- A counted attempt leaves the borrower in the pool only with attempts left. -/
private theorem counted_room {b b' : BorrowerRow} (hb : b.Counted b')
    (hs : b'.state = .PENDING ∨ b'.state = .LOCKED) : b'.attempt_count < b.max_attempts := by
  rcases hs with hs | hs
  · rw [hb.attempt_count]
    exact hb.lt_of_pending hs
  · exact absurd hs hb.not_locked

/-- **Step.** Every entry, late or not, keeps the calls within the cap. -/
theorem step {B' : Books} {e : Entry} (h : B.Capped) (hkeyed : B.Keyed) (hm : B.Step e B') :
    B'.Capped := by
  cases hm with
  | kept => exact h
  | seeded =>
    constructor
    · intro k b hb hcap hs
      rcases Table.cases_of_get?_push hb with ⟨_, rfl⟩ | hb
      · exact hcap
      · exact h.room k b hb hcap hs
    · intro i c b hc hb hcap
      rcases Table.cases_of_get?_push hb with ⟨hid, _⟩ | hb
      · exact absurd hid (hkeyed.borrower_ne_nextId hc)
      · exact h.range i c b hc hb hcap
  | @unclaimed lease worker borrower_id b hb hs =>
    rw [Table.alter_alter]
    refine h.modify_borrowers (fun _ => rfl) fun k b₀ hb₀ hk hcap _ => ?_
    rw [beq_iff_eq] at hk
    subst hk
    rw [hb, Option.some.injEq] at hb₀
    exact h.room k b₀ (hb₀ ▸ hb) hcap (Or.inl (hb₀ ▸ hs))
  | @opened now lease worker provider agent_id borrower_id b hb hs hfree =>
    -- the borrower is locked first; then the call is within the cap, since it was pending
    have hlocked : Books.Capped { B with
        borrowers := B.borrowers.alter borrower_id (BorrowerRepo.lockedRow worker lease) } := by
      refine h.modify_borrowers (fun _ => rfl) fun k b₀ hb₀ hk hcap _ => ?_
      rw [beq_iff_eq] at hk
      subst hk
      rw [hb, Option.some.injEq] at hb₀
      exact h.room k b₀ (hb₀ ▸ hb) hcap (Or.inl (hb₀ ▸ hs))
    refine ⟨hlocked.room, fun i c b' hc hb' hcap => ?_⟩
    rcases Table.cases_of_get?_push hc with ⟨_, rfl⟩ | hc
    · rcases Table.cases_of_get?_alter hb hb' with ⟨_, rfl⟩ | ⟨hid, _⟩
      · have hroom := h.room borrower_id b hb hcap (Or.inl hs)
        exact ⟨Nat.succ_pos _, hroom⟩
      · exact absurd rfl hid
    · exact hlocked.range i c b' hc hb' hcap
  | moved hc _ hf => exact h.alter_calls hc hf
  | @ended call_id c f g hc _ hf _ hg =>
    have hcount : Books.Capped { B with borrowers := B.borrowers.alter c.borrower_id g } :=
      h.modify_borrowers (fun b => (hg b).max_attempts) fun _ b _ _ _ hs => counted_room (hg b) hs
    exact hcount.alter_calls hc hf
  | late hg =>
    exact h.modify_borrowers (fun b => (hg b).max_attempts)
      fun _ b _ _ _ hs => counted_room (hg b) hs
  | unlocked =>
    refine h.modify_borrowers (fun _ => rfl) fun k b hb hlock hcap _ => ?_
    simp only [BorrowerRepo.isLockExpired, Bool.and_eq_true, beq_iff_eq] at hlock
    exact h.room k b hb hcap (Or.inr hlock.1)

/-- **Cap.** A borrower has no more calls than attempts. -/
theorem count_le (h : B.Capped) (hkeyed : B.Keyed) {k : ℕ} {b : BorrowerRow}
    (hb : B.borrowers.get? k = some b) (hcap : 1 ≤ b.max_attempts) :
    (B.calls.count fun _ c => c.borrower_id == k) ≤ b.max_attempts := by
  refine Table.count_le_of_label (fun c => c.attempt_no) ?_ ?_
  · intro i c hc hck
    rw [beq_iff_eq] at hck
    exact h.range i c b hc (hck ▸ hb) hcap
  · intro i c j d hc hck hd hdk hn
    rw [beq_iff_eq] at hck hdk
    exact hkeyed.eq_of_attempt hc hd (hck.trans hdk.symm) hn

end Books.Capped

/-- **Step.** The cap of a borrower never changes. -/
theorem Books.Step.keepsCap {B B' : Books} {e : Entry} (hm : B.Step e B') : B.KeepsCap B' := by
  cases hm with
  | kept | moved => exact fun k b hb => ⟨b, hb, rfl⟩
  | seeded =>
    intro k b hb
    exact ⟨b, by rw [Table.get?_push, if_neg (Table.ne_nextId hb), hb], rfl⟩
  | unclaimed =>
    rw [Table.alter_alter]
    exact Table.exists_get?_modify fun _ => rfl
  | opened | unlocked => exact Table.exists_get?_modify fun _ => rfl
  | ended _ _ _ _ hg => exact Table.exists_get?_modify fun b => (hg b).max_attempts
  | late hg => exact Table.exists_get?_modify fun b => (hg b).max_attempts

/-! ### Requests -/

/-- The requests that a provider has received for calls to a borrower. -/
def Sys.requestsFor (s : Sys) (borrower_id : ℕ) : List CallRequest :=
  s.placed.filter fun r => (s.db.calls.get? r.call_id).any fun c => c.borrower_id == borrower_id

/-- A provider has been called once at most for each call, and not yet for an attempt that is still
    to be placed. -/
structure Sys.PlacedOnce (s : Sys) : Prop where
  nodup : (s.placed.map (·.call_id)).Nodup
  call : ∀ r ∈ s.placed, ∃ c, s.db.calls.get? r.call_id = some c ∧
    c.idempotency_key = r.idempotency_key
  fresh : ∀ i att, s.attempts.get? i = some att → att.placed = false →
    att.reservation.call_id ∉ s.placed.map (·.call_id)
  idem : ∀ i att, s.attempts.get? i = some att →
    ∃ c, s.db.calls.get? att.reservation.call_id = some c ∧
      c.idempotency_key = att.reservation.idem

/-- Nothing has been asked of a provider. -/
theorem placedOnce_init : Sys.init.PlacedOnce :=
  ⟨List.nodup_nil, (fun _ h => by cases h), (fun _ _ h => by cases h), fun _ _ h => by cases h⟩

/-- An attempt that has just been opened: its call is new, and not placed yet. -/
private def Opened (s s' : Sys) (att : Attempt) : Prop :=
  att.placed = false ∧ att.reservation.call_id = s.db.calls.nextId ∧
    ∃ c, s'.db.calls.get? att.reservation.call_id = some c ∧
      c.idempotency_key = att.reservation.idem

/-- An allocation opens one attempt at most. -/
private theorem opened_of_allocate {s : Sys} {worker : String} {x : Tx (Option Reservation)}
    (hx : ∀ o, x.run s.db = .ok (o, x.commit s.db) → ∀ r, o = some r →
      r.call_id = s.db.calls.nextId ∧
        ∃ c, (x.commit s.db).calls.get? r.call_id = some c ∧ c.idempotency_key = r.idem) :
    ∀ i att, (s.allocate worker x).attempts.get? i = some att →
      s.attempts.get? i = some att ∨ Opened s (s.allocate worker x) att := by
  intro i att hatt
  rcases Txn.commit_cases x s.db with ⟨o, hrun, hres⟩ | ⟨_, hnone⟩
  · cases o with
    | none =>
      simp only [Sys.allocate, hres] at hatt
      exact Or.inl hatt
    | some r =>
      obtain ⟨hid, hcall⟩ := hx _ hrun r rfl
      simp only [Sys.allocate, hres] at hatt
      rcases Table.cases_of_get?_insertAt hatt with hold | ⟨_, rfl, _⟩
      · exact Or.inl hold
      · refine Or.inr ⟨rfl, hid, ?_⟩
        rw [Sys.allocate_db]
        exact hcall
  · simp only [Sys.allocate, hnone] at hatt
    exact Or.inl hatt

/-- **Attempts and requests.** An action either requests nothing, and keeps, drops and opens
    attempts, or it places the request of an attempt. -/
private theorem requests_cases (cfg : Settings) (s : Sys) (a : Act) :
    ((step cfg s a).placed = s.placed ∧ ∀ i att, (step cfg s a).attempts.get? i = some att →
        s.attempts.get? i = some att ∨ Opened s (step cfg s a) att) ∨
      ∃ i att, s.attempts.get? i = some att ∧ att.placed = false ∧ step cfg s a = { s with
        attempts := s.attempts.modify (fun j _ => j == i) fun a => { a with placed := true }
        placed := s.placed ++ [callRequest cfg att.reservation] } := by
  have hkept : ∀ {s' : Sys}, s'.placed = s.placed → s'.attempts = s.attempts →
      s'.placed = s.placed ∧ ∀ i att, s'.attempts.get? i = some att →
        s.attempts.get? i = some att ∨ Opened s s' att :=
    fun hp ha => ⟨hp, fun i att hatt => Or.inl (ha ▸ hatt)⟩
  have hsettle : ∀ call_id x, (s.settle call_id x).placed = s.placed ∧
      ∀ i att, (s.settle call_id x).attempts.get? i = some att →
        s.attempts.get? i = some att ∨ Opened s (s.settle call_id x) att := by
    intro call_id x
    refine ⟨s.settle_placed call_id x, fun i att hatt => Or.inl ?_⟩
    rcases s.settle_cases call_id x with ⟨_, _, _, _, hattempts⟩ | hs
    · rw [hattempts] at hatt
      exact (Table.get?_of_get?_erase hatt).2
    · rw [hs] at hatt
      exact hatt
  -- only `placeCall` makes a request; only the transaction of RESERVE opens an attempt
  cases a with
  | createAgent | login | logout | pause | seed | pullback | reap | ingest | rollback =>
    exact Or.inl (hkept rfl rfl)
  | reserveAndCreate now clock_now lockedAgents lockedBorrowers pick worker campaign_id =>
    refine Or.inl ⟨s.allocate_placed _ _, opened_of_allocate fun o hrun r ho => ?_⟩
    have hcases := reserveAndCreate_cases hrun
    subst ho
    generalize hv : Db.view _ = v at hcases
    cases hcases with
    -- no other outcome returns a reservation
    | created =>
      refine ⟨rfl, ?_⟩
      have hcalls := congrArg View.calls hv
      rw [Db.view_calls] at hcalls
      rw [hcalls]
      simp only [Table.get?_push, if_true]
      exact ⟨_, rfl, rfl⟩
  | placeCall call_id =>
    cases hatt : s.attempts.get? call_id with
    | none =>
      left
      rw [step, Sys.placeCall, hatt]
      exact hkept rfl rfl
    | some att =>
      cases hp : att.placed with
      | true =>
        left
        have hs : step cfg s (.placeCall call_id) = s := by
          simp only [step, Sys.placeCall, hatt, hp, if_true]
        rw [hs]
        exact hkept rfl rfl
      | false =>
        right
        refine ⟨call_id, att, hatt, hp, ?_⟩
        simp only [step, Sys.placeCall, hatt, hp, Bool.false_eq_true, if_false]
  | rejected => exact Or.inl (hsettle _ _)
  | accepted => exact Or.inl (hsettle _ _)
  | abandon => exact Or.inl ⟨rfl, fun i att hatt => Or.inl (Table.get?_of_get?_erase hatt).2⟩
  | fetch now w limit =>
    obtain ⟨rows, hs, _⟩ := s.fetch_cases now w limit
    left
    rw [step, hs]
    exact hkept rfl rfl
  | read clock_now w =>
    left
    rcases s.read_cases cfg clock_now w with ⟨_, _, _, _, _, _, _, hs⟩ | hs <;>
      rw [step, hs] <;> exact hkept rfl rfl
  | commit w =>
    left
    rcases s.commit_cases cfg w with ⟨_, _, _, _, hs⟩ | hs <;>
      rw [step, hs] <;> exact hkept rfl rfl

/-- **Step.** No action requests a call twice. -/
theorem placedOnce_step (cfg : Settings) {s : Sys} (hkept : s.Kept) (h : s.PlacedOnce) (a : Act) :
    (step cfg s a).PlacedOnce := by
  have hevo := (step_progress cfg hkept.live a hkept.live.healthy).2
  -- a call keeps its key
  have hkey : ∀ {i key}, (∃ c, s.db.calls.get? i = some c ∧ c.idempotency_key = key) →
      ∃ c, (step cfg s a).db.calls.get? i = some c ∧ c.idempotency_key = key := by
    rintro i key ⟨c, hc, hck⟩
    obtain ⟨c', hc', he⟩ := hevo i c hc
    exact ⟨c', hc', he.idempotency_key.trans hck⟩
  rcases requests_cases cfg s a with ⟨hplaced, hattempts⟩ | ⟨k, att₀, hatt₀, hp₀, hs⟩
  · constructor
    · rw [hplaced]; exact h.nodup
    · rw [hplaced]; exact fun r hr => hkey (h.call r hr)
    · intro i att hatt hp
      rw [hplaced]
      rcases hattempts i att hatt with hold | ⟨_, hid, _⟩
      · exact h.fresh i att hold hp
      · -- the id of a new call has not been used in a request
        rw [hid]
        intro hmem
        obtain ⟨r, hr, hrid⟩ := List.mem_map.mp hmem
        obtain ⟨c, hc, _⟩ := h.call r hr
        exact Table.ne_nextId hc hrid
    · intro i att hatt
      rcases hattempts i att hatt with hold | ⟨_, _, hcall⟩
      · exact hkey (h.idem i att hold)
      · exact hcall
  · have hfresh := h.fresh k att₀ hatt₀ hp₀
    obtain ⟨hid₀, _⟩ := hkept.attempted k att₀ hatt₀
    rw [hs]
    constructor
    · rw [List.map_append, List.map_singleton]
      refine List.nodup_append.mpr ⟨h.nodup, List.nodup_singleton _, fun i hi j hj hij => ?_⟩
      rw [hij, List.mem_singleton.mp hj] at hi
      exact hfresh hi
    · intro r hr
      rcases List.mem_append.mp hr with hr | hr
      · exact h.call r hr
      · rw [List.mem_singleton.mp hr]
        exact h.idem k att₀ hatt₀
    · intro i att hatt hp
      obtain ⟨att', hatt', heq⟩ := Table.exists_of_get?_modify hatt
      by_cases hik : i = k
      · rw [if_pos (beq_iff_eq.mpr hik)] at heq
        rw [heq] at hp
        cases hp
      · rw [if_neg fun hb => hik (beq_iff_eq.mp hb)] at heq
        subst heq
        rw [List.map_append, List.mem_append, not_or]
        refine ⟨h.fresh i att hatt' hp, fun hmem => hik ?_⟩
        -- attempts are filed under the ids of their calls
        have hcid : att.reservation.call_id = att₀.reservation.call_id := List.mem_singleton.mp hmem
        rw [← (hkept.attempted i att hatt').1, hcid, hid₀]
    · intro i att hatt
      obtain ⟨att', hatt', rfl⟩ := Table.exists_of_get?_modify hatt
      have hidem := h.idem i att' hatt'
      split <;> exact hidem

/-- The requests for a borrower are no more than its calls. -/
theorem Sys.PlacedOnce.length_le {s : Sys} (h : s.PlacedOnce) (k : ℕ) :
    (s.requestsFor k).length ≤ s.db.calls.count fun _ c => c.borrower_id == k := by
  -- each request names a call of its own, and that call's row names the borrower
  have hsub : (s.requestsFor k).map (·.call_id)
      ⊆ (s.db.calls.select fun _ c => c.borrower_id == k).map Prod.fst := by
    intro i hi
    obtain ⟨r, hr, rfl⟩ := List.mem_map.mp hi
    obtain ⟨hplaced, hany⟩ := List.mem_filter.mp hr
    obtain ⟨c, hc, _⟩ := h.call r hplaced
    rw [hc, Option.any_some] at hany
    exact (Table.mem_keys_select hc).mpr hany
  have hnd : ((s.requestsFor k).map (·.call_id)).Nodup :=
    h.nodup.sublist (List.filter_sublist.map _)
  have hle := hnd.length_le_of_subset hsub
  rw [List.length_map, List.length_map] at hle
  rw [Table.count, List.countP_eq_length_filter]
  exact hle

/-- The requests for a borrower carry distinct keys. -/
theorem Sys.PlacedOnce.keys_nodup {s : Sys} (h : s.PlacedOnce) (hkeyed : s.books.Keyed) (k : ℕ) :
    ((s.requestsFor k).map (·.idempotency_key)).Nodup := by
  have hnd : ((s.requestsFor k).map (·.call_id)).Nodup :=
    h.nodup.sublist (List.filter_sublist.map _)
  rw [List.nodup_map_iff_inj_on (List.Nodup.of_map _ hnd)]
  intro r hr r' hr' heq
  obtain ⟨c, hc, hck⟩ := h.call r (List.mem_of_mem_filter hr)
  obtain ⟨c', hc', hck'⟩ := h.call r' (List.mem_of_mem_filter hr')
  have hid : r.call_id = r'.call_id := hkeyed.unique _ _ c c' hc hc' (by rw [hck, hck', heq])
  exact List.inj_on_of_nodup_map hnd hr hr' hid

/-! ### Runs -/

/-- Nothing is assumed of the entries. -/
private theorem permits_any (s : Sys) (a : Act) : Permits (Floor.Guard fun _ _ => True) s a :=
  permits_guard (fun _ _ _ _ _ _ _ => trivial) fun _ _ _ _ _ _ _ => trivial

/-- **Run.** The keys are distinct and the counts capped in every reachable state, with no
    assumption about its run. -/
theorem capped_run (cfg : Settings) (acts : List Act) :
    (run (step cfg) Sys.init acts).books.Keyed ∧ (run (step cfg) Sys.init acts).books.Capped :=
  invariant_of_simulation (L := Sys.Kept) (G := fun _ _ => True) (H := fun _ _ => True)
    (I := fun B => B.Keyed ∧ B.Capped) (fun _ a hs _ => kept_step cfg hs a)
    (fun s a hs _ => step_books cfg hs (fun _ => trivial) (permits_any s a))
    (fun _ _ _ hB _ hm => ⟨hB.1.step hm, hB.2.step hB.1 hm⟩) kept_init ⟨.init, .init⟩
    (along_true _ acts)

/-- **Call frequency.** Take a borrower with a cap of at least one at any point of any run.  At any
    later point no more calls than the cap have been created for it, all under distinct keys, and no
    more requests than the cap have been made of a provider, each with a key of its own. -/
theorem call_frequency (cfg : Settings) (pre post : List Act) :
    ∀ k b, (run (step cfg) Sys.init pre).db.borrowers.get? k = some b → 1 ≤ b.max_attempts →
      ((run (step cfg) Sys.init (pre ++ post)).db.calls.count fun _ c => c.borrower_id == k)
          ≤ b.max_attempts ∧
      (∀ i c, (run (step cfg) Sys.init (pre ++ post)).db.calls.get? i = some c →
        ∀ j d, (run (step cfg) Sys.init (pre ++ post)).db.calls.get? j = some d →
          c.idempotency_key = d.idempotency_key → i = j) ∧
      ((run (step cfg) Sys.init (pre ++ post)).requestsFor k).length ≤ b.max_attempts ∧
      (((run (step cfg) Sys.init (pre ++ post)).requestsFor k).map (·.idempotency_key)).Nodup := by
  intro k b hb hcap
  have hkept : ∀ acts, (run (step cfg) Sys.init acts).Kept :=
    invariant_run (I := Sys.Kept) (fun _ a h => kept_step cfg h a) kept_init
  have hplaced : (run (step cfg) Sys.init (pre ++ post)).PlacedOnce :=
    (invariant_run (I := fun s : Sys => s.Kept ∧ s.PlacedOnce)
      (fun _ a h => ⟨kept_step cfg h.1 a, placedOnce_step cfg h.1 h.2 a⟩)
      ⟨kept_init, placedOnce_init⟩ _).2
  obtain ⟨hkeyed, hcapped⟩ := capped_run cfg (pre ++ post)
  -- the row of the borrower has changed by now, but not its cap
  have hrel : (run (step cfg) Sys.init pre).books.KeepsCap
      (run (step cfg) Sys.init (pre ++ post)).books := by
    rw [run_append]
    exact related_of_simulation (L := Sys.Kept) (G := fun _ _ => True) (H := fun _ _ => True)
      (I := fun _ => True) (R := Books.KeepsCap) (fun _ a hs _ => kept_step cfg hs a)
      (fun s a hs _ => step_books cfg hs (fun _ => trivial) (permits_any s a))
      (fun _ k b hb => ⟨b, hb, rfl⟩)
      (fun _ _ _ h₁ h₂ k b hb => by
        obtain ⟨b', hb', he⟩ := h₁ k b hb
        obtain ⟨b'', hb'', he'⟩ := h₂ k b' hb'
        exact ⟨b'', hb'', he'.trans he⟩)
      (fun _ _ _ _ _ _ => trivial) (fun _ _ _ _ _ hm => hm.keepsCap) (hkept pre) trivial
      (along_true _ post)
  obtain ⟨b', hb', hmax⟩ := hrel k b hb
  have hcount := hcapped.count_le hkeyed hb' (hmax ▸ hcap)
  rw [hmax] at hcount
  exact ⟨hcount, fun i c hc j d hd heq => hkeyed.unique i j c d hc hd heq,
    (hplaced.length_le k).trans hcount, hplaced.keys_nodup hkeyed k⟩

/-- A borrower with one attempt, and the days of a single allocation for it: the reaper fails its
    call, the provider refuses it afterwards, and the next allocation finds nothing to do. -/
def seededOnce : List Act :=
  [.createAgent 0 7 "ext-1", .login 0 1, .seed 0 7 "+15550001" 100 1]

/-- One attempt that is failed twice over, and an allocation that comes after it. -/
def failedTwice : List Act :=
  [.reserveAndCreate 0 0 [] [] (some "mock") "w1" 7, .placeCall 1, .reap (secs 31) (secs 31) none,
    .rejected (secs 32) 1, .reserveAndCreate (secs 200) (secs 200) [] [] (some "mock") "w1" 7]

/-- The borrower was called once, although its one attempt ended twice. -/
theorem call_frequency_failedTwice :
    ((run (step .default) Sys.init (seededOnce ++ failedTwice)).requestsFor 1).length ≤ 1 ∧
      (run (step .default) Sys.init (seededOnce ++ failedTwice)).requestsFor 1
        = [⟨1, "+15550001", "+10000000000", "7:1:1"⟩] :=
  ⟨(call_frequency .default seededOnce failedTwice 1
      (BorrowerRepo.seededRow 0 7 "+15550001" 100 1) (by decide +kernel) (by decide)).2.2.1,
    by decide +kernel⟩

end SmartDialer
