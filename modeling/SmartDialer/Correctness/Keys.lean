import SmartDialer.Correctness.Books

namespace SmartDialer

open Relational

/-!
# Idempotency keys

The key of a call is made of its campaign, its borrower and the number of the attempt, and no two
calls share one.  Since a key can be read in one way only (`idempotencyKey_inj`), a borrower has at
most one call for each attempt, and the key of the next attempt is free exactly when no call was
made for it.
-/

/-! ### Reading a key -/

/-- A number is written without a colon. -/
private theorem colon_notMem_repr (n : ℕ) : ':' ∉ n.repr.toList := by
  rw [Nat.toList_repr]
  intro h
  have hdigit := Nat.isDigit_of_mem_toDigits (by decide) (by decide) h
  exact absurd hdigit (by decide)

/-- A number is read back from its digits. -/
private theorem eq_of_toList_repr {m n : ℕ} (h : m.repr.toList = n.repr.toList) : m = n := by
  rw [Nat.toList_repr, Nat.toList_repr] at h
  calc m = Nat.ofDigitChars 10 (Nat.toDigits 10 m) 0 := Nat.ofDigitChars_ten_toDigits.symm
    _ = Nat.ofDigitChars 10 (Nat.toDigits 10 n) 0 := by rw [h]
    _ = n := Nat.ofDigitChars_ten_toDigits

/-- The first separator of a list divides it in one way only. -/
private theorem split_at_first {α : Type} {a : α} {x y z w : List α} (hx : a ∉ x) (hy : a ∉ y)
    (h : x ++ a :: z = y ++ a :: w) : x = y ∧ z = w := by
  induction x generalizing y with
  | nil =>
    cases y with
    | nil => exact ⟨rfl, (List.cons.inj h).2⟩
    | cons b y => exact absurd ((List.cons.inj h).1 ▸ List.mem_cons_self) hy
  | cons b x ih =>
    cases y with
    | nil => exact absurd ((List.cons.inj h).1 ▸ List.mem_cons_self) hx
    | cons c y =>
      obtain ⟨hbc, htail⟩ := List.cons.inj h
      obtain ⟨rfl, hz⟩ := ih (fun hm => hx (List.mem_cons_of_mem _ hm))
        (fun hm => hy (List.mem_cons_of_mem _ hm)) htail
      exact ⟨by rw [hbc], hz⟩

/-- **Unique reading.** A key determines its campaign, its borrower and its attempt. -/
theorem idempotencyKey_inj
    {campaign_id borrower_id attempt_no campaign_id' borrower_id' attempt_no' : ℕ} :
    idempotencyKey campaign_id borrower_id attempt_no
        = idempotencyKey campaign_id' borrower_id' attempt_no' ↔
      campaign_id = campaign_id' ∧ borrower_id = borrower_id' ∧ attempt_no = attempt_no' := by
  constructor
  · intro h
    have hlist : campaign_id.repr.toList ++
          ':' :: (borrower_id.repr.toList ++ ':' :: attempt_no.repr.toList) =
        campaign_id'.repr.toList ++
          ':' :: (borrower_id'.repr.toList ++ ':' :: attempt_no'.repr.toList) := by
      have := congrArg String.toList h
      simpa [idempotencyKey, toString] using this
    -- the first colon ends the campaign, the second one the borrower
    obtain ⟨hcampaign, hrest⟩ :=
      split_at_first (colon_notMem_repr _) (colon_notMem_repr _) hlist
    obtain ⟨hborrower, hattempt⟩ :=
      split_at_first (colon_notMem_repr _) (colon_notMem_repr _) hrest
    exact ⟨eq_of_toList_repr hcampaign, eq_of_toList_repr hborrower, eq_of_toList_repr hattempt⟩
  · rintro ⟨rfl, rfl, rfl⟩
    rfl

/-! ### The keys of the calls -/

/-- Every call carries the key of an attempt on a borrower of its campaign, and no other call
    carries the same. -/
structure Books.Keyed (B : Books) : Prop where
  key : ∀ i c, B.calls.get? i = some c →
    c.idempotency_key = idempotencyKey c.campaign_id c.borrower_id c.attempt_no
  unique : ∀ i j c d, B.calls.get? i = some c → B.calls.get? j = some d →
    c.idempotency_key = d.idempotency_key → i = j
  borrower : ∀ i c, B.calls.get? i = some c →
    ∃ b, B.borrowers.get? c.borrower_id = some b ∧ b.campaign_id = c.campaign_id

namespace Books.Keyed

variable {B : Books}

/-- There are no calls, and so no keys. -/
theorem init : Sys.init.books.Keyed :=
  ⟨(fun _ _ h => by cases h), (fun _ _ _ _ h => by cases h), fun _ _ h => by cases h⟩

/-- The borrower of a call is not one that is still to be added. -/
theorem borrower_ne_nextId (h : B.Keyed) {i : ℕ} {c : CallRow} (hc : B.calls.get? i = some c) :
    c.borrower_id ≠ B.borrowers.nextId := by
  obtain ⟨b, hb, _⟩ := h.borrower i c hc
  exact Table.ne_nextId hb

/-- A borrower has at most one call for each attempt. -/
theorem eq_of_attempt (h : B.Keyed) {i j : ℕ} {c d : CallRow} (hc : B.calls.get? i = some c)
    (hd : B.calls.get? j = some d) (hb : c.borrower_id = d.borrower_id)
    (hn : c.attempt_no = d.attempt_no) : i = j := by
  obtain ⟨b, hbc, hcampaign⟩ := h.borrower i c hc
  obtain ⟨b', hbd, hcampaign'⟩ := h.borrower j d hd
  rw [hb, hbd, Option.some.injEq] at hbc
  subst hbc
  apply h.unique i j c d hc hd
  rw [h.key i c hc, h.key j d hd, ← hcampaign, ← hcampaign', hb, hn]

/-- A key of a borrower is free when no call was made for the attempt. -/
theorem key_ne_iff (h : B.Keyed) {i k : ℕ} {c : CallRow} {b : BorrowerRow}
    (hc : B.calls.get? i = some c) (hb : B.borrowers.get? k = some b) (n : ℕ) :
    c.idempotency_key ≠ idempotencyKey b.campaign_id k n ↔
      ¬ (c.borrower_id = k ∧ c.attempt_no = n) := by
  rw [h.key i c hc, ne_eq, idempotencyKey_inj]
  refine not_congr ⟨fun hkey => hkey.2, ?_⟩
  rintro ⟨rfl, rfl⟩
  obtain ⟨b', hb', hcampaign⟩ := h.borrower i c hc
  rw [hb, Option.some.injEq] at hb'
  subst hb'
  exact ⟨hcampaign.symm, rfl, rfl⟩

/-- Calls that evolve, with borrowers that stay in their campaigns. -/
private theorem of_evolves {B' : Books} (h : B.Keyed)
    (hcalls : ∀ i c', B'.calls.get? i = some c' → ∃ c, B.calls.get? i = some c ∧ c.Evolves c')
    (hborrowers : ∀ i b, B.borrowers.get? i = some b →
      ∃ b', B'.borrowers.get? i = some b' ∧ b'.campaign_id = b.campaign_id) : B'.Keyed where
  key := by
    intro i c' hc'
    obtain ⟨c, hc, hevo⟩ := hcalls i c' hc'
    rw [hevo.idempotency_key, hevo.campaign_id, hevo.borrower_id, hevo.attempt_no]
    exact h.key i c hc
  unique := by
    intro i j c' d' hc' hd' heq
    obtain ⟨c, hc, hevo⟩ := hcalls i c' hc'
    obtain ⟨d, hd, hevo'⟩ := hcalls j d' hd'
    rw [hevo.idempotency_key, hevo'.idempotency_key] at heq
    exact h.unique i j c d hc hd heq
  borrower := by
    intro i c' hc'
    obtain ⟨c, hc, hevo⟩ := hcalls i c' hc'
    obtain ⟨b, hb, hcampaign⟩ := h.borrower i c hc
    obtain ⟨b', hb', hcampaign'⟩ := hborrowers _ b hb
    rw [hevo.borrower_id, hevo.campaign_id]
    exact ⟨b', hb', hcampaign'.trans hcampaign⟩

/-- An update of one call that lets it evolve. -/
private theorem evolves_alter {t : Table CallRow} {k : ℕ} {c : CallRow} {f : CallRow → CallRow}
    (hc : t.get? k = some c) (hf : c.Evolves (f c)) :
    ∀ i c', (t.alter k f).get? i = some c' → ∃ c, t.get? i = some c ∧ c.Evolves c' := by
  intro i c' hc'
  rcases Table.cases_of_get?_alter hc hc' with ⟨hik, rfl⟩ | ⟨_, hd⟩
  · exact ⟨c, hik ▸ hc, hf⟩
  · exact ⟨c', hd, .refl c'⟩

/-- **Step.** Every entry keeps the keys. -/
theorem step {B' : Books} {e : Entry} (h : B.Keyed) (hm : B.Step e B') : B'.Keyed := by
  have hsame : ∀ i c', B.calls.get? i = some c' → ∃ c, B.calls.get? i = some c ∧ c.Evolves c' :=
    fun _ c' hc' => ⟨c', hc', .refl c'⟩
  cases hm with
  | kept => exact h
  | seeded =>
    refine h.of_evolves hsame fun i b hb => ⟨b, ?_, rfl⟩
    rw [Table.get?_push, if_neg (Table.ne_nextId hb), hb]
  | unclaimed =>
    refine h.of_evolves hsame ?_
    rw [Table.alter_alter]
    exact Table.exists_get?_modify fun _ => rfl
  | @opened now lease worker provider agent_id borrower_id b hb hs hfree =>
    -- the calls made before keep their keys while the borrower is locked
    have hold : Books.Keyed { B with
        borrowers := B.borrowers.alter borrower_id (BorrowerRepo.lockedRow worker lease) } :=
      h.of_evolves hsame (Table.exists_get?_modify fun _ => rfl)
    constructor
    · intro i c hc
      rcases Table.cases_of_get?_push hc with ⟨_, rfl⟩ | hc
      · rfl
      · exact h.key i c hc
    · intro i j c d hc hd heq
      rcases Table.cases_of_get?_push hc with ⟨rfl, rfl⟩ | hc <;>
        rcases Table.cases_of_get?_push hd with ⟨rfl, rfl⟩ | hd
      · rfl
      · exact absurd heq.symm (hfree j d hd)
      · exact absurd heq (hfree i c hc)
      · exact h.unique i j c d hc hd heq
    · intro i c hc
      rcases Table.cases_of_get?_push hc with ⟨_, rfl⟩ | hc
      · exact ⟨BorrowerRepo.lockedRow worker lease b, by
          show (B.borrowers.alter _ _).get? borrower_id = _
          rw [Table.get?_alter, if_pos rfl, hb]
          rfl, rfl⟩
      · exact hold.borrower i c hc
  | moved hc _ hf => exact h.of_evolves (evolves_alter hc hf) fun i b hb => ⟨b, hb, rfl⟩
  | ended hc _ hf _ hg =>
    exact h.of_evolves (evolves_alter hc hf) (Table.exists_get?_modify fun b => (hg b).campaign_id)
  | late hg => exact h.of_evolves hsame (Table.exists_get?_modify fun b => (hg b).campaign_id)
  | unlocked => exact h.of_evolves hsame (Table.exists_get?_modify fun _ => rfl)

end Books.Keyed

end SmartDialer
