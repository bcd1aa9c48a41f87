import SmartDialer.Lib.Run
import SmartDialer.Providers.Registry
import SmartDialer.Safety.Rules

namespace SmartDialer

open Numeric Relational

/-!
# Routing and the health rule

`pick` goes by whether a breaker admits calls, `s4_provider_health` by the share of good results
among those the breaker still holds, and these may be old: they are dropped when a result is
recorded, and without calls none is.  `routing_agrees_iff` says exactly when the rule leaves
something of a request that routing would serve, and `starved_run` that it leaves nothing for ever
once all results that are held are failures.
-/

variable {fl : Rounding}

/-! ### Admission and score -/

/-- A breaker admits no call: it is cooling down, or all its probes are used. -/
def CircuitBreaker.Refuses (fl : Rounding) (now : ℚ) (b : CircuitBreaker) : Prop :=
  b.CoolingDown fl now ∨ b.state = .half_open ∧ b.half_open_probes ≤ b.probes

/-- `allow` says no exactly in these two cases. -/
theorem CircuitBreaker.allow_eq_false_iff {now : ℚ} {b : CircuitBreaker} :
    (b.allow fl now).1 = false ↔ b.Refuses fl now := by
  unfold Refuses
  constructor
  · unfold allow CoolingDown
    split
    · rename_i hs
      split
      · intro h; cases h
      · rename_i hnow
        exact fun _ => Or.inl ⟨hs, not_le.mp hnow⟩
    · rename_i hs
      exact fun h => Or.inr ⟨hs, not_lt.mp (of_decide_eq_false h)⟩
    · intro h; cases h
  · rintro (h | ⟨hs, hp⟩)
    · exact allow_of_coolingDown h
    · unfold allow
      rw [hs]
      exact decide_eq_false (not_lt.mpr hp)

/-- The share of good results that a breaker holds. -/
def Provider.goodRate (fl : Rounding) (p : Provider) : ℚ := fl (1 - p.breaker.errorRate fl)

/-- The score behind `health` is the share of good results, unless the breaker is cooling down. -/
theorem Provider.score_health {now : ℚ} (p : Provider) :
    (p.health fl now).1.score fl =
      if p.breaker.CoolingDown fl now then 0 else max 0 (p.goodRate fl) := by
  unfold HealthSnapshot.score Provider.health Provider.goodRate
  simp only [decide_eq_true_eq, CircuitBreaker.allow_open_iff, CircuitBreaker.allow_errorRate]

/-- `pick` finds a provider exactly when some breaker admits a call. -/
theorem ProviderRegistry.pick_isSome_iff {now : ℚ} (r : ProviderRegistry) :
    (r.pick fl now).1.isSome = true ↔ ∃ p ∈ r.providers, ¬ p.breaker.Refuses fl now := by
  have hbest : ∀ score l, (best score l).isSome = true ↔ l ≠ [] := by
    intro score l
    cases l with
    | nil => simp [best]
    | cons p l => simp [best]
  unfold pick
  rw [Option.isSome_map, hbest, ne_eq, List.map_eq_nil_iff, List.filter_eq_nil_iff]
  push Not
  simp only [Provider.health, ← CircuitBreaker.allow_eq_false_iff, Bool.not_eq_false]

/-! ### The health rule -/

/-- A rule leaves nothing of a request. -/
def CutsToZero (cap : Cap) : Prop := ∃ n code, cap = some (n, code) ∧ n ≤ 0

/-- The best health is that of some provider, and no provider has a better one. -/
theorem bestHealth_spec {l : List (String × ℚ)} (h : l ≠ []) :
    (∃ e ∈ l, e.2 = bestHealth l) ∧ ∀ e ∈ l, e.2 ≤ bestHealth l := by
  obtain ⟨m, hm⟩ : ∃ m, (l.map Prod.snd).max? = some m := by
    rw [← Option.isSome_iff_exists, List.isSome_max?_iff]
    simpa using h
  obtain ⟨hmem, hle⟩ := List.max?_eq_some_iff.mp hm
  have hbest : bestHealth l = m := by
    unfold bestHealth
    rw [hm, Option.getD_some]
  rw [hbest]
  exact ⟨List.mem_map.mp hmem, fun e he => hle e.2 (List.mem_map_of_mem he)⟩

/-- The rule leaves something of a request when the best score is high, or high enough for one
    call after scaling. -/
theorem not_cutsToZero_s4_iff {req : PacingRequest} (hn : 1 ≤ req.n) (s : Snapshot) :
    ¬ CutsToZero (s4ProviderHealth fl req s) ↔ 0 < bestHealth s.provider_health ∧
      (fl (6 / 10) ≤ bestHealth s.provider_health ∨
        1 ≤ fl.mulInt req.n (bestHealth s.provider_health)) := by
  unfold s4ProviderHealth CutsToZero
  generalize bestHealth s.provider_health = best
  simp only
  split
  · rename_i h
    simp [not_lt.mpr h]
  · rename_i h
    split
    · rename_i hlow
      -- below 0.6 the cap is the truncated product, which is zero when the product is under 1
      rw [← one_le_truncate]
      simp only [not_le.mp h, not_le.mpr hlow, true_and, false_or]
      constructor
      · intro hcut
        by_contra hone
        exact hcut ⟨_, _, rfl, by omega⟩
      · rintro hone ⟨m, code, heq, hm⟩
        cases heq
        omega
    · rename_i hhigh
      simp [not_le.mp h, not_lt.mp hhigh]

/-! ### Histories -/

/-- What happens to the breaker of a provider, and when. -/
inductive Observation where
  | record (now : ℚ) (name : String) (ok : Bool)
  | allow (now : ℚ) (name : String)
  deriving Repr

/-- One call of `record` or `allow`. -/
def ProviderRegistry.observe (fl : Rounding) (r : ProviderRegistry) :
    Observation → ProviderRegistry
  | .record now name ok => r.record fl now name ok
  | .allow now name => r.onBreaker name fun b => (b.allow fl now).2

/-- Something is left of `n` calls at this rate of good results. -/
def Sufficient (fl : Rounding) (n : ℤ) (rate : ℚ) : Prop :=
  0 < rate ∧ (fl (6 / 10) ≤ rate ∨ 1 ≤ fl.mulInt n rate)

/-- The condition compares numbers. -/
instance (fl : Rounding) (n : ℤ) (rate : ℚ) : Decidable (Sufficient fl n rate) :=
  inferInstanceAs (Decidable (_ ∧ (_ ∨ _)))

/-- A better rate leaves something whenever a worse one does. -/
theorem Sufficient.mono {n : ℤ} (hn : 0 ≤ n) {x y : ℚ} (h : Sufficient fl n x) (hxy : x ≤ y) :
    Sufficient fl n y := by
  refine ⟨h.1.trans_le hxy, h.2.imp (fun hx => hx.trans hxy) fun hx => ?_⟩
  exact hx.trans (fl.mulInt_mono hn hxy)

/-- The health rule in terms of the providers: one that is not cooling down has to do well
    enough. -/
theorem not_cutsToZero_healthMap_iff {now : ℚ} (r : ProviderRegistry) {req : PacingRequest}
    (hn : 1 ≤ req.n) (s : Snapshot) (hne : r.providers ≠ []) :
    ¬ CutsToZero (s4ProviderHealth fl req (s.withHealth (r.healthMap fl now).1)) ↔
      ∃ p ∈ r.providers, ¬ p.breaker.CoolingDown fl now ∧ Sufficient fl req.n (p.goodRate fl) := by
  rw [not_cutsToZero_s4_iff hn]
  show Sufficient fl req.n (bestHealth (r.healthMap fl now).1) ↔ _
  obtain ⟨⟨e, he, hbest⟩, hle⟩ := bestHealth_spec (l := (r.healthMap fl now).1)
    (by simpa [ProviderRegistry.healthMap] using hne)
  constructor
  · intro h
    -- the best score is positive, so its provider is not cooling down
    obtain ⟨p, hp, rfl⟩ := List.mem_map.mp he
    rw [← hbest, Provider.score_health] at h
    refine ⟨p, hp, fun hcool => ?_, ?_⟩
    · rw [if_pos hcool] at h
      exact lt_irrefl _ h.1
    · split at h
      · exact absurd h.1 (lt_irrefl _)
      · rcases max_cases 0 (p.goodRate fl) with ⟨hmax, _⟩ | ⟨hmax, _⟩ <;> rw [hmax] at h
        · exact absurd h.1 (lt_irrefl _)
        · exact h
  · rintro ⟨p, hp, hcool, hsuff⟩
    apply hsuff.mono (by omega)
    have hscore := hle _ (List.mem_map_of_mem hp)
    rw [Provider.score_health, if_neg hcool] at hscore
    exact (le_max_right _ _).trans hscore

/-! ### Starvation -/

/-- All results that the breakers hold are failures. -/
def ProviderRegistry.AllFailed (fl : Rounding) (r : ProviderRegistry) : Prop :=
  r.providers ≠ [] ∧ ∀ p ∈ r.providers, p.breaker.errorRate fl = 1

/-- Asking alone changes nothing about it. -/
theorem ProviderRegistry.AllFailed.allow {r : ProviderRegistry} (h : r.AllFailed fl) (now : ℚ)
    (name : String) : (r.observe fl (.allow now name)).AllFailed fl := by
  obtain ⟨hne, hrate⟩ := h
  refine ⟨by simpa [observe, onBreaker, mapProviders] using hne, fun p hp => ?_⟩
  obtain ⟨q, hq, rfl⟩ := List.mem_map.mp hp
  dsimp only
  split
  · rw [CircuitBreaker.allow_errorRate]
    exact hrate q hq
  · exact hrate q hq

/-- **Starvation.** Once all results that the breakers hold are failures, and as long as none is
    recorded, the health rule leaves nothing of any request, at every later time. -/
theorem starved_run {registry : ProviderRegistry} (h : registry.AllFailed fl)
    (asked : List (ℚ × String)) (now : ℚ) (req : PacingRequest) (s : Snapshot) :
    s4ProviderHealth fl req (s.withHealth ((run (ProviderRegistry.observe fl) registry
        (asked.map fun a => .allow a.1 a.2)).healthMap fl now).1)
      = some (0, .PROVIDER_DEGRADED) := by
  have hrun : (run (ProviderRegistry.observe fl) registry
      (asked.map fun a => .allow a.1 a.2)).AllFailed fl := by
    -- asking never records a result, so every window keeps its failures
    induction asked generalizing registry with
    | nil => exact h
    | cons a asked ih => exact ih (h.allow a.1 a.2)
  generalize run (ProviderRegistry.observe fl) registry (asked.map fun a => .allow a.1 a.2) = r
    at hrun ⊢
  obtain ⟨⟨e, he, hbest⟩, _⟩ := bestHealth_spec (l := (r.healthMap fl now).1)
    (by simpa [ProviderRegistry.healthMap] using hrun.1)
  obtain ⟨p, hp, rfl⟩ := List.mem_map.mp he
  have hzero : bestHealth (r.healthMap fl now).1 = 0 := by
    rw [← hbest, Provider.score_health, Provider.goodRate, hrun.2 p hp, sub_self, fl.zero, max_self,
      ite_self]
  unfold s4ProviderHealth
  exact if_pos hzero.le

/-! ### Agreement -/

/-- **Routing and safety.** After every history the two agree on a request of one or more calls,
    that is, whenever routing finds a provider the health rule leaves something of the request,
    exactly when every breaker refuses or a provider that is not cooling down has a sufficient rate
    of good results among those its breaker still holds.  The two part after an outage: routing
    takes the best of the providers that are let through again, were its score zero, while the
    health rule approves nothing on the failures that their breakers still hold. -/
theorem routing_agrees_iff (fl : Rounding) (registry : ProviderRegistry)
    (history : List Observation) (now : ℚ) (req : PacingRequest) (hn : 1 ≤ req.n) (s : Snapshot) :
    (((run (ProviderRegistry.observe fl) registry history).pick fl now).1.isSome = true →
      ¬ CutsToZero (s4ProviderHealth fl req (s.withHealth
        ((run (ProviderRegistry.observe fl) registry history).healthMap fl now).1))) ↔
    ((∀ p ∈ (run (ProviderRegistry.observe fl) registry history).providers,
        p.breaker.Refuses fl now) ∨
      ∃ p ∈ (run (ProviderRegistry.observe fl) registry history).providers,
        ¬ p.breaker.CoolingDown fl now ∧ Sufficient fl req.n (p.goodRate fl)) := by
  generalize run (ProviderRegistry.observe fl) registry history = r
  rw [ProviderRegistry.pick_isSome_iff]
  constructor
  · intro h
    by_cases hrefuse : ∀ p ∈ r.providers, p.breaker.Refuses fl now
    · exact Or.inl hrefuse
    · push Not at hrefuse
      have hne : r.providers ≠ [] := List.ne_nil_of_mem hrefuse.choose_spec.1
      exact Or.inr ((not_cutsToZero_healthMap_iff r hn s hne).mp (h hrefuse))
  · rintro (hrefuse | hsuff) ⟨p, hp, hadmits⟩
    · exact absurd (hrefuse p hp) hadmits
    · exact (not_cutsToZero_healthMap_iff r hn s (List.ne_nil_of_mem hp)).mpr hsuff

/-- Two providers as the worker sets them up. -/
def twoProviders : ProviderRegistry where
  providers := [⟨"mock_a", 2 / 5, .default⟩, ⟨"mock_b", 5 / 2, .default⟩]
  nodup := by decide

/-- Ten calls fail at each provider. -/
def outage : List Observation :=
  List.replicate 10 (.record 1 "mock_a" false) ++ List.replicate 10 (.record 1 "mock_b" false)

/-- A minute after the outage routing would serve a request for fifty calls, but the health rule
    cuts it to zero. -/
theorem outage_cutsToZero :
    ((run (ProviderRegistry.observe .binary64) twoProviders outage).pick .binary64 60).1
        = some "mock_a" ∧
      s4ProviderHealth .binary64 ⟨7, 50⟩ ((Snapshot.ofCounts 10 0 0 100 0).withHealth
        ((run (ProviderRegistry.observe .binary64) twoProviders outage).healthMap .binary64 60).1)
        = some (0, .PROVIDER_DEGRADED) := by
  decide +kernel

/-- One probe is placed after the outage, and it ends well. -/
def goodProbe : List Observation :=
  outage ++ [.allow 60 "mock_a", .record 61 "mock_a" true]

/-- After a good probe the request is served again. -/
theorem routing_agrees_iff_goodProbe :
    ¬ CutsToZero (s4ProviderHealth .binary64 ⟨7, 50⟩ ((Snapshot.ofCounts 10 0 0 100 0).withHealth
      ((run (ProviderRegistry.observe .binary64) twoProviders goodProbe).healthMap
        .binary64 62).1)) := by
  have hsuff : ∃ p ∈ (run (ProviderRegistry.observe .binary64) twoProviders goodProbe).providers,
      ¬ p.breaker.CoolingDown .binary64 62 ∧ Sufficient .binary64 50 (p.goodRate .binary64) := by
    decide +kernel
  have hpick : ((run (ProviderRegistry.observe .binary64) twoProviders goodProbe).pick
      .binary64 62).1.isSome = true := by decide +kernel
  exact (routing_agrees_iff .binary64 twoProviders goodProbe 62 ⟨7, 50⟩ (by decide)
    (.ofCounts 10 0 0 100 0)).mpr (Or.inr hsuff) hpick

end SmartDialer
