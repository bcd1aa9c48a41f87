import Mathlib.Data.List.Basic

namespace Relational

/-!
# Session locks

A lock that a server grants to one of its sessions at a time and drops when that session ends.  It
is re-entrant: a session that holds it is granted it again, and has to release it as often.  The
holder of the lock is a live session by construction.

* `eq_of_grants` — the lock is granted when it is free or the session's own.
* `Holds.tryLock`, `Holds.unlock_of_ne`, `Holds.unlockAll_of_ne`, `Holds.endSession_of_ne` — what
  other sessions do leaves the holder in place.
-/

/-- A server with one advisory lock that belongs to sessions.  A session may hold it more than once,
    and the lock is free when every hold has been given up. -/
structure SessionLock where
  /-- The number of sessions opened so far; they are numbered in this order. -/
  opened : ℕ
  /-- The sessions that have not ended. -/
  live : List ℕ
  /-- The session that holds the lock, and how many grants it has on top of the first. -/
  holder : Option (ℕ × ℕ)
  live_lt : ∀ con ∈ live, con < opened
  holder_live : ∀ con n, holder = some (con, n) → con ∈ live

namespace SessionLock

/-- No session is open yet. -/
def init : SessionLock where
  opened := 0
  live := []
  holder := none
  live_lt := fun _ h => by cases h
  holder_live := fun _ _ h => by cases h

/-- The session holds the lock. -/
def Holds (l : SessionLock) (con : ℕ) : Prop := ∃ n, l.holder = some (con, n)

/-- A new session, which has a number that no session had before. -/
def openSession (l : SessionLock) : SessionLock where
  opened := l.opened + 1
  live := l.live ++ [l.opened]
  holder := l.holder
  live_lt := fun con h => by
    rcases List.mem_append.mp h with h | h
    · exact Nat.lt_succ_of_lt (l.live_lt con h)
    · rw [List.mem_singleton.mp h]
      exact Nat.lt_succ_self _
  holder_live := fun con n h => List.mem_append_left _ (l.holder_live con n h)

/-- Does the server grant the lock to the session? -/
def grants (l : SessionLock) (con : ℕ) : Bool :=
  l.live.contains con && match l.holder with
    | none => true
    | some (con', _) => con' == con

/-- Only a live session is granted the lock. -/
theorem mem_live_of_grants {l : SessionLock} {con : ℕ} (h : l.grants con = true) :
    con ∈ l.live := by
  unfold grants at h
  rw [Bool.and_eq_true] at h
  exact List.contains_iff_mem.mp h.1

/-- A session is granted a lock that is free or its own. -/
theorem eq_of_grants {l : SessionLock} {con con' : ℕ} (h : l.grants con = true)
    (hold : l.Holds con') : con' = con := by
  obtain ⟨n, hn⟩ := hold
  unfold grants at h
  rw [hn, Bool.and_eq_true] at h
  exact eq_of_beq h.2

/-- One attempt of a session to take the lock. -/
def tryLock (l : SessionLock) (con : ℕ) : SessionLock :=
  if h : l.grants con = true then
    { l with
      holder := some (con, (l.holder.map fun e => e.2 + 1).getD 0)
      holder_live := fun con' n heq => by
        obtain ⟨rfl, _⟩ := Prod.mk.inj (Option.some.inj heq)
        exact mem_live_of_grants h }
  else l

/-- The holder after one release by a session; only the holder has something to release. -/
def released (con : ℕ) (e : ℕ × ℕ) : Option (ℕ × ℕ) :=
  if e.1 ≠ con then some e
  else if e.2 = 0 then none
  else some (e.1, e.2 - 1)

/-- A hold that is left after an unlock belongs to the session it belonged to. -/
theorem released_eq_some {con con' n : ℕ} {e : ℕ × ℕ} (h : released con e = some (con', n)) :
    e.1 = con' := by
  unfold released at h
  split_ifs at h
  · exact congrArg Prod.fst (Option.some.inj h)
  · exact congrArg Prod.fst (Option.some.inj h)

/-- One release of the lock by a session. -/
def unlock (l : SessionLock) (con : ℕ) : SessionLock where
  opened := l.opened
  live := l.live
  holder := l.holder.bind (released con)
  live_lt := l.live_lt
  holder_live := fun con' n h => by
    obtain ⟨e, he, hrel⟩ := Option.bind_eq_some_iff.mp h
    rw [← released_eq_some hrel]
    exact l.holder_live e.1 e.2 he

/-- All grants of a session are released. -/
def unlockAll (l : SessionLock) (con : ℕ) : SessionLock where
  opened := l.opened
  live := l.live
  holder := l.holder.filter fun e => e.1 != con
  live_lt := l.live_lt
  holder_live := fun con' n h => l.holder_live con' n (Option.filter_eq_some_iff.mp h).1

/-- A session ends, and the server drops its lock. -/
def endSession (l : SessionLock) (con : ℕ) : SessionLock where
  opened := l.opened
  live := l.live.filter fun c => c != con
  holder := l.holder.filter fun e => e.1 != con
  live_lt := fun con' h => l.live_lt con' (List.mem_of_mem_filter h)
  holder_live := fun con' n h => by
    obtain ⟨hl, hne⟩ := Option.filter_eq_some_iff.mp h
    exact List.mem_filter.mpr ⟨l.holder_live con' n hl, hne⟩

section

variable {l : SessionLock} {con con' : ℕ}

/-- Trying to lock opens no session. -/
theorem tryLock_opened (l : SessionLock) (con : ℕ) : (l.tryLock con).opened = l.opened := by
  unfold tryLock
  split <;> rfl

/-- Trying to lock ends no session, whether it succeeds or not. -/
theorem tryLock_live : (l.tryLock con).live = l.live := by
  unfold tryLock
  split <;> rfl

/-- A granted lock is the session's. -/
theorem holds_tryLock_of_grants (h : l.grants con = true) : (l.tryLock con).Holds con := by
  unfold tryLock
  rw [dif_pos h]
  exact ⟨_, rfl⟩

/-- A session that holds the lock keeps it, whoever tries. -/
theorem Holds.tryLock (h : l.Holds con') : (l.tryLock con).Holds con' := by
  unfold SessionLock.tryLock
  split
  · rename_i hg
    exact ⟨_, by rw [eq_of_grants hg h]⟩
  · exact h

/-- Releases of another session do not concern the holder. -/
theorem Holds.unlock_of_ne (h : l.Holds con') (hne : con' ≠ con) : (l.unlock con).Holds con' := by
  obtain ⟨n, hn⟩ := h
  have hrel : released con (con', n) = some (con', n) := if_pos hne
  exact ⟨n, Option.bind_eq_some_iff.mpr ⟨_, hn, hrel⟩⟩

/-- A session that gives up its own holds leaves those of the others. -/
theorem Holds.unlockAll_of_ne (h : l.Holds con') (hne : con' ≠ con) :
    (l.unlockAll con).Holds con' := by
  obtain ⟨n, hn⟩ := h
  exact ⟨n, Option.filter_eq_some_iff.mpr ⟨hn, by simpa using hne⟩⟩

/-- The end of another session does not concern the holder. -/
theorem Holds.endSession_of_ne (h : l.Holds con') (hne : con' ≠ con) :
    (l.endSession con).Holds con' := by
  obtain ⟨n, hn⟩ := h
  exact ⟨n, Option.filter_eq_some_iff.mpr ⟨hn, by simpa using hne⟩⟩

end

end SessionLock

end Relational
