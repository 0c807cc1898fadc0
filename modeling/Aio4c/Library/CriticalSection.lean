import Mathlib.Init

/-! Calls on a state that a lock protects. A call that takes a lock that is held does not
come back; the lock is not recursive. Taking and releasing are explicit, so that a return
that forgets the release can be told from one that does not. -/

set_option autoImplicit false

namespace CriticalSection

variable {σ α β : Type}

/-- Why a call does not come back: its lock is held, it made an invalid access, or it is
still waiting for the system. -/
inductive Stop where
  | blocked
  | fault
  | waiting
  deriving DecidableEq, Repr

structure Protected (σ : Type) where
  state : σ
  locked : Bool

abbrev Locking (σ α : Type) := StateT (Protected σ) (Except Stop) α

def takeLock : Locking σ Unit := fun start =>
  if start.locked then .error .blocked else .ok ((), { start with locked := true })

def releaseLock : Locking σ Unit := fun start => .ok ((), { start with locked := false })

def peek : Locking σ σ := fun start => .ok (start.state, start)

def assign (state : σ) : Locking σ Unit := fun start => .ok ((), { start with state })

def access (step : σ → Option (α × σ)) : Locking σ α := fun start =>
  match step start.state with
  | none => .error .fault
  | some (value, state) => .ok (value, { start with state })

def stop (reason : Stop) : Locking σ α := fun _ => .error reason

/-- The call does not come back, but not for the lock; or it comes back with what is
expected and the lock in the state `locked`. -/
def Completes (result : Except Stop (α × Protected σ)) (expected : Option (α × σ))
    (locked : Bool) : Prop :=
  (∃ reason, reason ≠ .blocked ∧ result = .error reason) ∨
    ∃ value state, expected = some (value, state) ∧ result = .ok (value, { state, locked })

@[simp] theorem bind_run (first : Locking σ α) (next : α → Locking σ β) (start : Protected σ) :
    (first >>= next) start = (first start).bind fun (value, middle) => next value middle := rfl

@[simp] theorem map_run (change : α → β) (call : Locking σ α) (start : Protected σ) :
    (change <$> call) start =
      (call start).bind fun (value, final) => .ok (change value, final) := rfl

@[simp] theorem pure_run (value : α) (start : Protected σ) :
    (pure value : Locking σ α) start = .ok (value, start) := rfl

@[simp] theorem takeLock_free (state : σ) :
    takeLock { state, locked := false } = .ok ((), { state, locked := true }) := rfl

@[simp] theorem takeLock_held (state : σ) :
    takeLock { state, locked := true } = .error .blocked := rfl

@[simp] theorem releaseLock_run (start : Protected σ) :
    releaseLock start = .ok ((), { start with locked := false }) := rfl

@[simp] theorem peek_run (start : Protected σ) : peek start = .ok (start.state, start) := rfl

@[simp] theorem assign_run (state : σ) (start : Protected σ) :
    assign state start = .ok ((), { start with state }) := rfl

@[simp] theorem stop_run (reason : Stop) (start : Protected σ) :
    (stop reason : Locking σ α) start = .error reason := rfl

@[simp] theorem bind_ok (value : α) (next : α → Except Stop β) :
    (Except.ok value).bind next = next value := rfl

@[simp] theorem bind_error (reason : Stop) (next : α → Except Stop β) :
    (Except.error reason).bind next = .error reason := rfl

theorem Completes.returned {value : α} {state : σ} {expected : Option (α × σ)} {locked : Bool}
    (same : expected = some (value, state)) :
    Completes (.ok (value, { state, locked })) expected locked :=
  .inr ⟨value, state, same, rfl⟩

theorem Completes.faulted {expected : Option (α × σ)} {locked : Bool} :
    Completes (.error .fault) expected locked :=
  .inl ⟨.fault, by decide, rfl⟩

theorem Completes.not_blocked {result : Except Stop (α × Protected σ)}
    {expected : Option (α × σ)} {locked : Bool} (completes : Completes result expected locked) :
    result ≠ .error .blocked := by
  intro equal
  subst equal
  rcases completes with ⟨reason, other, same⟩ | ⟨value, state, _, same⟩
  · cases same
    exact other rfl
  · cases same

theorem Completes.locked_eq {result : Except Stop (α × Protected σ)}
    {expected : Option (α × σ)} {locked : Bool} (completes : Completes result expected locked)
    {value : α} {final : Protected σ} (returned : result = .ok (value, final)) :
    final.locked = locked := by
  subst returned
  rcases completes with ⟨_, _, same⟩ | ⟨_, _, _, same⟩
  · cases same
  · cases same
    rfl

theorem Completes.release (step : σ → Option (Unit × σ)) (value : α) (state : σ) (locked : Bool) :
    Completes ((do access step; releaseLock; return value : Locking σ α) { state, locked })
      ((step state).map fun (_, state) => (value, state)) false := by
  cases result : step state with
  | none => exact .inl ⟨.fault, by decide, by simp [access, result]⟩
  | some outcome => exact .inr ⟨value, outcome.2, rfl, by simp [access, result]⟩

theorem Completes.releaseValue (step : σ → Option (α × σ)) (state : σ) (locked : Bool) :
    Completes ((do let value ← access step; releaseLock; return value : Locking σ α)
      { state, locked }) (step state) false := by
  cases result : step state with
  | none => exact .inl ⟨.fault, by decide, by simp [access, result]⟩
  | some outcome => exact .inr ⟨outcome.1, outcome.2, rfl, by simp [access, result]⟩

end CriticalSection
