import Aio4c.Library.TransitionSystem
import Mathlib.Logic.Function.Basic

/-! Threads that take locks inside one another. Where each takes them in the order of their
ranks and waits for nothing else but with locks that no other thread uses, a thread in front
of a lock can always get it. -/

set_option autoImplicit false

namespace LockOrder

open TransitionSystem

/-- What a thread does next: `pause` waits for something else than a lock. -/
inductive Op (ℓ : Type) where
  | take (lock : ℓ)
  | release (lock : ℓ)
  | pause
  deriving DecidableEq, Repr

/-- What a piece of code does to locks, with its branches and its loops left open. -/
inductive Code (ℓ : Type) where
  | skip
  | pause
  | within (lock : ℓ) (body : Code ℓ)
  | seq (first second : Code ℓ)
  | either (left right : Code ℓ)
  | any (bodies : Nat → Code ℓ)
  | many (body : Code ℓ)

variable {ℓ τ : Type}

/-- One piece of code after the other. -/
def Code.all (codes : List (Code ℓ)) : Code ℓ := codes.foldr .seq .skip

def Code.maybe (body : Code ℓ) : Code ℓ := .either .skip body

/-- The operations of one execution of the code. -/
inductive Code.Does : Code ℓ → List (Op ℓ) → Prop where
  | skip : Does .skip []
  | pause : Does .pause [.pause]
  | within {lock : ℓ} {body : Code ℓ} {ops : List (Op ℓ)} :
      Does body ops → Does (.within lock body) (.take lock :: (ops ++ [.release lock]))
  | seq {first second : Code ℓ} {ops rest : List (Op ℓ)} :
      Does first ops → Does second rest → Does (.seq first second) (ops ++ rest)
  | left {left right : Code ℓ} {ops : List (Op ℓ)} : Does left ops → Does (.either left right) ops
  | right {left right : Code ℓ} {ops : List (Op ℓ)} : Does right ops → Does (.either left right) ops
  | any {bodies : Nat → Code ℓ} {ops : List (Op ℓ)} (choice : Nat) :
      Does (bodies choice) ops → Does (.any bodies) ops
  | done {body : Code ℓ} : Does (.many body) []
  | again {body : Code ℓ} {ops rest : List (Op ℓ)} :
      Does body ops → Does (.many body) rest → Does (.many body) (ops ++ rest)

namespace Code.Does

variable {code : Code ℓ} {codes : List (Code ℓ)} {ops : List (Op ℓ)}

theorem maybe_skip : (maybe code).Does [] := .left .skip

theorem maybe_body (does : code.Does ops) : (maybe code).Does ops := .right does

theorem all_nil : (all ([] : List (Code ℓ))).Does [] := .skip

/-- The first code does nothing to a lock. -/
theorem all_skip (first : code.Does []) (rest : (all codes).Does ops) :
    (all (code :: codes)).Does ops := .seq first rest

/-- Only the first code does something to a lock. -/
theorem all_first (first : code.Does ops) (rest : (all codes).Does []) :
    (all (code :: codes)).Does ops := by
  have both : (all (code :: codes)).Does (ops ++ []) := .seq first rest
  rwa [List.append_nil] at both

end Code.Does

/-- The order of the locks, and which thread is the only one to use a lock. -/
structure Ranking (ℓ τ : Type) where
  rank : ℓ → Nat
  owner : ℓ → Option τ

/-- The code of a thread takes locks of rank `floor` and more, in their order. It pauses where
`alone` says that it holds its own locks only. -/
def Code.Ascends [DecidableEq τ] (ranking : Ranking ℓ τ) (thread : τ) :
    Nat → Bool → Code ℓ → Prop
  | _, _, .skip => True
  | _, alone, .pause => alone = true
  | floor, alone, .within lock body =>
      floor ≤ ranking.rank lock ∧ (∀ owner ∈ ranking.owner lock, owner = thread) ∧
        body.Ascends ranking thread (ranking.rank lock + 1)
          (alone && (ranking.owner lock).isSome)
  | floor, alone, .seq first second =>
      first.Ascends ranking thread floor alone ∧ second.Ascends ranking thread floor alone
  | floor, alone, .either left right =>
      left.Ascends ranking thread floor alone ∧ right.Ascends ranking thread floor alone
  | floor, alone, .any bodies => ∀ choice, (bodies choice).Ascends ranking thread floor alone
  | floor, alone, .many body => body.Ascends ranking thread floor alone

section Ascends

variable [DecidableEq τ] {ranking : Ranking ℓ τ} {thread : τ} {floor : Nat} {alone : Bool}

@[simp] theorem Code.skip_ascends :
    (Code.skip : Code ℓ).Ascends ranking thread floor alone := trivial

@[simp] theorem Code.pause_ascends :
    (Code.pause : Code ℓ).Ascends ranking thread floor alone ↔ alone = true := Iff.rfl

@[simp] theorem Code.either_ascends {left right : Code ℓ} :
    (Code.either left right).Ascends ranking thread floor alone ↔
      left.Ascends ranking thread floor alone ∧ right.Ascends ranking thread floor alone := Iff.rfl

@[simp] theorem Code.any_ascends {bodies : Nat → Code ℓ} :
    (Code.any bodies).Ascends ranking thread floor alone ↔
      ∀ choice, (bodies choice).Ascends ranking thread floor alone := Iff.rfl

@[simp] theorem Code.many_ascends {body : Code ℓ} :
    (Code.many body).Ascends ranking thread floor alone ↔
      body.Ascends ranking thread floor alone := Iff.rfl

@[simp] theorem Code.all_ascends {codes : List (Code ℓ)} :
    (Code.all codes).Ascends ranking thread floor alone ↔
      ∀ code ∈ codes, code.Ascends ranking thread floor alone := by
  induction codes with
  | nil =>
      constructor
      · intro _ _ member
        cases member
      · intro _
        exact trivial
  | cons code codes ih =>
      rw [List.forall_mem_cons, ← ih]
      exact Iff.rfl

/-- Code that may run above some locks may run above fewer of them. -/
theorem Code.Ascends.mono {code : Code ℓ} {lower : Nat} {other : Bool}
    (ascends : code.Ascends ranking thread floor alone) (low : lower ≤ floor)
    (own : alone = true → other = true) : code.Ascends ranking thread lower other := by
  induction code generalizing floor lower alone other with
  | skip => exact trivial
  | pause => exact own ascends
  | within lock body ih =>
      obtain ⟨above, mine, inside⟩ := ascends
      refine ⟨Nat.le_trans low above, mine, ih inside (Nat.le_refl _) ?_⟩
      intro both
      rw [Bool.and_eq_true] at both ⊢
      exact ⟨own both.1, both.2⟩
  | seq _ _ first second => exact ⟨first ascends.1 low own, second ascends.2 low own⟩
  | either _ _ left right => exact ⟨left ascends.1 low own, right ascends.2 low own⟩
  | any _ ih => exact fun choice => ih choice (ascends choice) low own
  | many _ ih => exact ih (Code.many_ascends.mp ascends) low own

end Ascends

/-- A thread with these locks may go on with these operations. -/
def Ordered (ranking : Ranking ℓ τ) (thread : τ) : List ℓ → List (Op ℓ) → Prop
  | held, [] => held = []
  | held, .take lock :: ops =>
      (∀ other ∈ held, ranking.rank other < ranking.rank lock) ∧
        (∀ owner ∈ ranking.owner lock, owner = thread) ∧ Ordered ranking thread (lock :: held) ops
  | held, .release lock :: ops => ∃ rest, held = lock :: rest ∧ Ordered ranking thread rest ops
  | held, .pause :: ops =>
      (∀ lock ∈ held, (ranking.owner lock).isSome) ∧ Ordered ranking thread held ops

/-- Code that ascends is in order, in front of whatever is. -/
theorem Code.Does.ordered [DecidableEq τ] {ranking : Ranking ℓ τ} {thread : τ} {code : Code ℓ}
    {ops : List (Op ℓ)} (does : code.Does ops) {floor : Nat} {alone : Bool}
    (ascends : code.Ascends ranking thread floor alone) {held : List ℓ} {rest : List (Op ℓ)}
    (below : ∀ lock ∈ held, ranking.rank lock < floor)
    (own : alone = true → ∀ lock ∈ held, (ranking.owner lock).isSome)
    (later : Ordered ranking thread held rest) : Ordered ranking thread held (ops ++ rest) := by
  induction does generalizing floor alone held rest with
  | skip => exact later
  | pause => exact ⟨own ascends, later⟩
  | @within lock body ops _ ih =>
      obtain ⟨above, mine, inside⟩ := ascends
      refine ⟨fun other member => Nat.lt_of_lt_of_le (below other member) above, mine, ?_⟩
      show Ordered ranking thread (lock :: held) ((ops ++ [.release lock]) ++ rest)
      rw [List.append_assoc]
      apply ih inside
      · intro other member
        rcases List.mem_cons.mp member with rfl | inHeld
        · exact Nat.lt_succ_self _
        · exact Nat.lt_succ_of_lt (Nat.lt_of_lt_of_le (below other inHeld) above)
      · intro both other member
        simp only [Bool.and_eq_true] at both
        rcases List.mem_cons.mp member with rfl | inHeld
        · exact both.2
        · exact own both.1 other inHeld
      · exact ⟨held, rfl, later⟩
  | seq _ _ first second =>
      rw [List.append_assoc]
      exact first ascends.1 below own (second ascends.2 below own later)
  | left _ ih => exact ih ascends.1 below own later
  | right _ ih => exact ih ascends.2 below own later
  | any choice _ ih => exact ih (ascends choice) below own later
  | done => exact later
  | again _ _ first second =>
      rw [List.append_assoc]
      exact first ascends below own (second ascends below own later)

/-! ## Threads -/

structure Thread (ℓ : Type) where
  held : List ℓ
  todo : List (Op ℓ)

abbrev State (ℓ τ : Type) := τ → Thread ℓ

def idle : State ℓ τ := fun _ => { held := [], todo := [] }

inductive Action (ℓ τ : Type) where
  | call (thread : τ) (ops : List (Op ℓ))
  | lock (thread : τ)
  | wake (thread : τ)

/-- The thread that an action moves takes or releases a lock. -/
def Action.isLock : Action ℓ τ → Bool
  | .lock _ => true
  | _ => false

/-- Every thread is in order, and a lock has one holder, who may use it. -/
structure Sound (ranking : Ranking ℓ τ) (state : State ℓ τ) : Prop where
  ordered : ∀ thread, Ordered ranking thread (state thread).held (state thread).todo
  stacked : ∀ thread,
    (state thread).held.Pairwise fun inner outer => ranking.rank outer < ranking.rank inner
  exclusive : ∀ thread other lock, lock ∈ (state thread).held → lock ∈ (state other).held →
    thread = other
  owned : ∀ thread, ∀ lock ∈ (state thread).held, ∀ owner ∈ ranking.owner lock, owner = thread

/-- A lock that a thread waits for is not one that only this thread uses. -/
theorem Sound.shared {ranking : Ranking ℓ τ} {state : State ℓ τ} (sound : Sound ranking state)
    {thread holder : τ} {lock : ℓ} {rest : List (Op ℓ)}
    (next : (state thread).todo = .take lock :: rest) (holds : lock ∈ (state holder).held) :
    ranking.owner lock = none := by
  have waits := sound.ordered thread
  rw [next] at waits
  obtain ⟨below, mine, _⟩ := waits
  cases owns : ranking.owner lock with
  | none => rfl
  | some owner =>
      have same : thread = holder :=
        (mine owner owns).symm.trans (sound.owned holder lock holds owner owns)
      rw [← same] at holds
      exact absurd (below lock holds) (Nat.lt_irrefl _)

variable [DecidableEq τ]

/-- One thread begins a call of its own, takes a free lock, releases its last one, or wakes up. -/
inductive Step (calls : τ → List (Op ℓ) → Prop) : State ℓ τ → Action ℓ τ → State ℓ τ → Prop where
  | call {state : State ℓ τ} {thread : τ} {ops : List (Op ℓ)} (ready : (state thread).todo = [])
      (allowed : calls thread ops) :
      Step calls state (.call thread ops)
        (Function.update state thread { held := (state thread).held, todo := ops })
  | take {state : State ℓ τ} {thread : τ} {lock : ℓ} {rest : List (Op ℓ)}
      (next : (state thread).todo = .take lock :: rest)
      (free : ∀ other, lock ∉ (state other).held) :
      Step calls state (.lock thread)
        (Function.update state thread { held := lock :: (state thread).held, todo := rest })
  | release {state : State ℓ τ} {thread : τ} {lock : ℓ} {rest : List (Op ℓ)}
      (next : (state thread).todo = .release lock :: rest) :
      Step calls state (.lock thread)
        (Function.update state thread { held := (state thread).held.tail, todo := rest })
  | wake {state : State ℓ τ} {thread : τ} {rest : List (Op ℓ)}
      (next : (state thread).todo = .pause :: rest) :
      Step calls state (.wake thread)
        (Function.update state thread { held := (state thread).held, todo := rest })

variable {ranking : Ranking ℓ τ} {calls : τ → List (Op ℓ) → Prop}

/-- A thread in front of a lock that it holds itself. -/
def Thread.Stuck (thread : Thread ℓ) : Prop :=
  ∃ lock rest, thread.todo = .take lock :: rest ∧ lock ∈ thread.held

theorem Step.stays {before after : State ℓ τ} {action : Action ℓ τ}
    (step : Step calls before action after) {thread : τ} (stuck : (before thread).Stuck) :
    after thread = before thread := by
  obtain ⟨lock, rest, next, held⟩ := stuck
  cases step with
  | @call other _ ready _ =>
      have differs : thread ≠ other := by
        rintro rfl
        simp [next] at ready
      exact Function.update_of_ne differs _ _
  | @take other _ _ takes free =>
      have differs : thread ≠ other := by
        rintro rfl
        rw [next, List.cons.injEq, Op.take.injEq] at takes
        exact free thread (takes.1 ▸ held)
      exact Function.update_of_ne differs _ _
  | @release other _ _ releases =>
      have differs : thread ≠ other := by
        rintro rfl
        simp [next] at releases
      exact Function.update_of_ne differs _ _
  | @wake other _ wakes =>
      have differs : thread ≠ other := by
        rintro rfl
        simp [next] at wakes
      exact Function.update_of_ne differs _ _

/-- A thread that has taken a lock and waits for it waits for ever. -/
theorem stays_of_run {state final : State ℓ τ} {actions : List (Action ℓ τ)}
    (run : Run (Step calls) state actions final) {thread : τ} (stuck : (state thread).Stuck) :
    final thread = state thread := by
  induction run with
  | nil => rfl
  | cons step _ ih =>
      have same := step.stays stuck
      exact (ih (same ▸ stuck)).trans same

namespace Sound

variable {state : State ℓ τ}

/-- A thread that goes on without a change of its locks. -/
theorem goes (sound : Sound ranking state) {thread : τ} {ops : List (Op ℓ)}
    (ordered : Ordered ranking thread (state thread).held ops) :
    Sound ranking
      (Function.update state thread { held := (state thread).held, todo := ops }) := by
  have same : ∀ other, (Function.update state thread
      { held := (state thread).held, todo := ops } other).held = (state other).held := by
    intro other
    rcases eq_or_ne other thread with rfl | differs
    · rw [Function.update_self]
    · rw [Function.update_of_ne differs]
  refine ⟨?_, ?_, ?_, ?_⟩
  · intro other
    rcases eq_or_ne other thread with rfl | differs
    · rw [Function.update_self]
      exact ordered
    · rw [Function.update_of_ne differs]
      exact sound.ordered other
  · intro other
    rw [same]
    exact sound.stacked other
  · intro first second lock
    rw [same, same]
    exact sound.exclusive first second lock
  · intro other
    rw [same]
    exact sound.owned other

theorem takes (sound : Sound ranking state) {thread : τ} {lock : ℓ} {rest : List (Op ℓ)}
    (next : (state thread).todo = .take lock :: rest)
    (free : ∀ other, lock ∉ (state other).held) :
    Sound ranking
      (Function.update state thread { held := lock :: (state thread).held, todo := rest }) := by
  have ordered := sound.ordered thread
  rw [next] at ordered
  obtain ⟨below, mine, later⟩ := ordered
  -- whoever holds a lock afterwards held it before, or it is the new one
  have held : ∀ other held, held ∈ (Function.update state thread
      { held := lock :: (state thread).held, todo := rest } other).held →
        (other = thread ∧ held = lock) ∨ held ∈ (state other).held := by
    intro other held member
    rcases eq_or_ne other thread with rfl | differs
    · rw [Function.update_self] at member
      rcases List.mem_cons.mp member with new | old
      · exact .inl ⟨rfl, new⟩
      · exact .inr old
    · rw [Function.update_of_ne differs] at member
      exact .inr member
  refine ⟨?_, ?_, ?_, ?_⟩
  · intro other
    rcases eq_or_ne other thread with rfl | differs
    · rw [Function.update_self]
      exact later
    · rw [Function.update_of_ne differs]
      exact sound.ordered other
  · intro other
    rcases eq_or_ne other thread with rfl | differs
    · rw [Function.update_self]
      exact List.pairwise_cons.mpr ⟨below, sound.stacked other⟩
    · rw [Function.update_of_ne differs]
      exact sound.stacked other
  · intro first second shared one two
    rcases held first shared one with ⟨rfl, rfl⟩ | earlier <;>
      rcases held second _ two with ⟨rfl, same⟩ | before
    · rfl
    · exact absurd before (free second)
    · rw [same] at earlier
      exact absurd earlier (free first)
    · exact sound.exclusive first second shared earlier before
  · intro other shared member owner owns
    rcases held other shared member with ⟨rfl, rfl⟩ | member
    · exact mine owner owns
    · exact sound.owned other shared member owner owns

theorem releases (sound : Sound ranking state) {thread : τ} {lock : ℓ} {rest : List (Op ℓ)}
    (next : (state thread).todo = .release lock :: rest) :
    Sound ranking
      (Function.update state thread { held := (state thread).held.tail, todo := rest }) := by
  have ordered := sound.ordered thread
  rw [next] at ordered
  obtain ⟨below, stack, later⟩ := ordered
  have held : ∀ other held, held ∈ (Function.update state thread
      { held := (state thread).held.tail, todo := rest } other).held →
        held ∈ (state other).held := by
    intro other held member
    rcases eq_or_ne other thread with rfl | differs
    · rw [Function.update_self] at member
      exact List.mem_of_mem_tail member
    · rw [Function.update_of_ne differs] at member
      exact member
  refine ⟨?_, ?_, ?_, ?_⟩
  · intro other
    rcases eq_or_ne other thread with rfl | differs
    · rw [Function.update_self, stack]
      exact later
    · rw [Function.update_of_ne differs]
      exact sound.ordered other
  · intro other
    rcases eq_or_ne other thread with rfl | differs
    · rw [Function.update_self]
      exact (sound.stacked other).tail
    · rw [Function.update_of_ne differs]
      exact sound.stacked other
  · intro first second shared one two
    exact sound.exclusive first second shared (held _ _ one) (held _ _ two)
  · intro other shared member
    exact sound.owned other shared (held _ _ member)

/-- Every step keeps the order, where the calls of each thread are in order. -/
theorem step {after : State ℓ τ} {action : Action ℓ τ} (sound : Sound ranking state)
    (ordered : ∀ thread ops, calls thread ops → Ordered ranking thread [] ops)
    (taken : Step calls state action after) : Sound ranking after := by
  cases taken with
  | @call thread ops ready allowed =>
      apply sound.goes
      have rests := sound.ordered thread
      rw [ready] at rests
      rw [show (state thread).held = [] from rests]
      exact ordered thread ops allowed
  | take next free => exact sound.takes next free
  | release next => exact sound.releases next
  | @wake thread rest next =>
      apply sound.goes
      have pauses := sound.ordered thread
      rw [next] at pauses
      exact pauses.2

end Sound

/-! ## Progress -/

/-- Threads that take and release locks lead from one state to the other; nobody wakes up, and
no call begins. -/
def LockRun (calls : τ → List (Op ℓ) → Prop) (before after : State ℓ τ) : Prop :=
  ∃ actions, Run (Step calls) before actions after ∧ ∀ action ∈ actions, action.isLock = true

theorem LockRun.refl (state : State ℓ τ) : LockRun calls state state :=
  ⟨[], .nil state, fun _ member => nomatch member⟩

theorem LockRun.head {before middle after : State ℓ τ} {thread : τ}
    (first : Step calls before (.lock thread) middle) (rest : LockRun calls middle after) :
    LockRun calls before after := by
  obtain ⟨actions, run, locks⟩ := rest
  refine ⟨.lock thread :: actions, .cons first run, ?_⟩
  intro action member
  rcases List.mem_cons.mp member with rfl | member
  · rfl
  · exact locks action member

theorem LockRun.trans {before middle after : State ℓ τ} (first : LockRun calls before middle)
    (rest : LockRun calls middle after) : LockRun calls before after := by
  obtain ⟨front, starts, locks⟩ := first
  obtain ⟨back, goes, others⟩ := rest
  refine ⟨front ++ back, starts.append goes, ?_⟩
  intro action member
  rcases List.mem_append.mp member with member | member
  · exact locks action member
  · exact others action member

namespace Sound

variable {state : State ℓ τ}

theorem lockRun {after : State ℓ τ} (sound : Sound ranking state)
    (ordered : ∀ thread ops, calls thread ops → Ordered ranking thread [] ops)
    (run : LockRun calls state after) : Sound ranking after := by
  obtain ⟨actions, run, _⟩ := run
  exact run.keeps (fun _ _ _ sound taken => sound.step ordered taken) sound

/-- Lock steps free a lock that any thread may use, and move nobody but threads that hold this
one or one of a higher rank. The induction is on the distance to the highest rank: the holder
waits at most for a lock above the one it holds. -/
theorem frees {bound : Nat} (bounded : ∀ lock, ranking.rank lock < bound)
    (ordered : ∀ thread ops, calls thread ops → Ordered ranking thread [] ops) (gap : Nat)
    {state : State ℓ τ} {holder : τ} {lock : ℓ} (sound : Sound ranking state)
    (holds : lock ∈ (state holder).held) (shared : ranking.owner lock = none)
    (near : bound ≤ ranking.rank lock + gap) :
    ∃ final, LockRun calls state final ∧ (∀ thread, lock ∉ (final thread).held) ∧
      ∀ thread, (∀ other ∈ (state thread).held, ranking.rank other < ranking.rank lock) →
        final thread = state thread := by
  induction gap generalizing state holder lock with
  | zero => exact absurd (bounded lock) (Nat.not_lt.mpr near)
  | succ gap ih =>
      generalize todo : (state holder).todo = ops
      induction ops generalizing state with
      | nil =>
          have done := sound.ordered holder
          rw [todo] at done
          rw [show (state holder).held = [] from done] at holds
          cases holds
      | cons op ops next =>
          have turn := sound.ordered holder
          rw [todo] at turn
          -- the holder goes on with this lock, and the threads below it have not moved
          have follow : ∀ {after : State ℓ τ} {held : List ℓ}, Sound ranking after →
              after holder = { held, todo := ops } → lock ∈ held →
              (∀ thread, (∀ other ∈ (state thread).held,
                ranking.rank other < ranking.rank lock) → after thread = state thread) →
              ∃ final, LockRun calls after final ∧ (∀ thread, lock ∉ (final thread).held) ∧
                ∀ thread, (∀ other ∈ (state thread).held,
                  ranking.rank other < ranking.rank lock) → final thread = state thread := by
            intro after held kept moved still others
            obtain ⟨final, run, free, same⟩ :=
              next kept (by rw [moved]; exact still) (by rw [moved])
            refine ⟨final, run, free, ?_⟩
            intro thread below
            have unmoved := others thread below
            rw [← unmoved]
            apply same
            rw [unmoved]
            exact below
          have apart : ∀ thread, (∀ other ∈ (state thread).held,
              ranking.rank other < ranking.rank lock) → thread ≠ holder := by
            rintro thread below rfl
            exact Nat.lt_irrefl _ (below lock holds)
          cases op with
          | pause =>
              have owns := turn.1 lock holds
              rw [shared] at owns
              cases owns
          | release other =>
              have first : Step calls state (.lock holder) _ := .release todo
              obtain ⟨rest, stack, _⟩ := turn
              have above := sound.stacked holder
              rw [stack] at holds above
              rcases List.mem_cons.mp holds with rfl | outer
              · refine ⟨_, .head first (.refl _), ?_, ?_⟩
                · intro thread held
                  rcases eq_or_ne thread holder with rfl | differs
                  · rw [Function.update_self, stack] at held
                    exact Nat.lt_irrefl _ ((List.pairwise_cons.mp above).1 lock held)
                  · rw [Function.update_of_ne differs] at held
                    apply differs
                    apply sound.exclusive thread holder lock held
                    rw [stack]
                    exact List.mem_cons_self
                · intro thread below
                  exact Function.update_of_ne (apart thread below) _ _
              · obtain ⟨final, run, free, same⟩ :=
                  follow (sound.releases todo) (Function.update_self _ _ _)
                    (by rw [stack]; exact outer)
                    (fun thread below => Function.update_of_ne (apart thread below) _ _)
                exact ⟨final, .head first run, free, same⟩
          | take other =>
              obtain ⟨below, _, _⟩ := turn
              -- a state in which the holder can take the next lock
              have clears : ∃ middle, LockRun calls state middle ∧
                  (∀ thread, other ∉ (middle thread).held) ∧
                  ∀ thread, (∀ held ∈ (state thread).held,
                    ranking.rank held < ranking.rank other) → middle thread = state thread := by
                by_cases free : ∀ thread, other ∉ (state thread).held
                · exact ⟨state, .refl state, free, fun _ _ => rfl⟩
                · obtain ⟨owner, held⟩ := not_forall_not.mp free
                  apply ih sound held (sound.shared todo held)
                  have rises := below lock holds
                  omega
              obtain ⟨middle, run, free, same⟩ := clears
              have stays := same holder below
              have turn : (middle holder).todo = .take other :: ops := by rw [stays, todo]
              have kept := (sound.lockRun ordered run).takes turn free
              obtain ⟨final, rest, free', same'⟩ := follow kept (Function.update_self _ _ _)
                (by rw [stays]; exact List.mem_cons_of_mem _ holds) (by
                  intro thread low
                  rw [Function.update_of_ne (apart thread low)]
                  apply same
                  intro held member
                  exact Nat.lt_trans (low held member) (below lock holds))
              exact ⟨final, run.trans (.head (.take turn free) rest), free', same'⟩

end Sound

end LockOrder
