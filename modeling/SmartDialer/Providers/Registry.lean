import SmartDialer.Providers.Breaker

namespace SmartDialer

open Numeric

/-!
# `providers/base.py` and `providers/registry.py`

A provider as far as routing sees it: a name, its setup time, and the breaker behind `health`.
Looking at the health of a provider asks its breaker, so `pick` and `health_map` return the
registry they leave behind along with their answer.
-/

/-- What a provider tells about itself. -/
structure HealthSnapshot where
  name : String
  healthy : Bool
  error_rate : ℚ
  p95_setup_s : ℚ
  open_circuit : Bool
  deriving DecidableEq, Repr

variable (fl : Rounding)

/-- `score`: zero with an open circuit, and otherwise what the error rate leaves. -/
def HealthSnapshot.score (h : HealthSnapshot) : ℚ :=
  if h.open_circuit then 0 else max 0 (fl (1 - h.error_rate))

/-- A provider of the registry, as far as `health` and `pick` look at it. -/
structure Provider where
  name : String
  p95_setup_s : ℚ
  breaker : CircuitBreaker
  deriving DecidableEq, Repr

/-- `health` of the providers: it asks the breaker first. -/
def Provider.health (now : ℚ) (p : Provider) : HealthSnapshot × Provider :=
  let asked := p.breaker.allow fl now
  (⟨p.name, asked.1, asked.2.errorRate fl, p.p95_setup_s, decide (asked.2.state = .open)⟩,
    { p with breaker := asked.2 })

/-- The providers by name, in the order of the dictionary. -/
structure ProviderRegistry where
  providers : List Provider
  nodup : (providers.map (·.name)).Nodup

namespace ProviderRegistry

/-- Change providers, but not their names. -/
def mapProviders (f : Provider → Provider) (hf : ∀ p, (f p).name = p.name)
    (r : ProviderRegistry) : ProviderRegistry where
  providers := r.providers.map f
  nodup := by
    rw [List.map_map]
    exact (List.map_congr_left fun p _ => hf p) ▸ r.nodup

/-- Change the breaker of the provider called `name`. -/
def onBreaker (name : String) (f : CircuitBreaker → CircuitBreaker) (r : ProviderRegistry) :
    ProviderRegistry :=
  r.mapProviders (fun p => if p.name = name then { p with breaker := f p.breaker } else p)
    fun p => by split <;> rfl

/-- `record`. -/
def record (now : ℚ) (name : String) (ok : Bool) (r : ProviderRegistry) : ProviderRegistry :=
  r.onBreaker name fun b => b.record fl now ok

/-- A look at the health of all providers. -/
def askAll (now : ℚ) (r : ProviderRegistry) : ProviderRegistry :=
  r.mapProviders (fun p => (p.health fl now).2) fun _ => rfl

/-- `max(candidates, key=…)`: the first of the best. -/
def best (score : Provider → ℚ) : List Provider → Option Provider
  | [] => none
  | p :: rest => some (rest.foldl (fun q p => if score q < score p then p else q) p)

/-- `pick`: the healthy provider with the best score, if any is healthy. -/
def pick (now : ℚ) (r : ProviderRegistry) : Option String × ProviderRegistry :=
  let candidates := (r.providers.filter fun p => (p.health fl now).1.healthy).map
    fun p => (p.health fl now).2
  let r := r.askAll fl now
  ((best (fun p => (p.health fl now).1.score fl) candidates).map (·.name),
    if candidates = [] then r else r.mapProviders
      (fun p => if p ∈ candidates then (p.health fl now).2 else p) fun p => by split <;> rfl)

/-- `health_map`. -/
def healthMap (now : ℚ) (r : ProviderRegistry) : List (String × ℚ) × ProviderRegistry :=
  (r.providers.map fun p => (p.name, (p.health fl now).1.score fl), r.askAll fl now)

end ProviderRegistry

end SmartDialer
