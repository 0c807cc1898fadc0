import Aio4c.Library.TransitionSystem
import Mathlib.Logic.Function.Basic

/-! The table of threads over any sequence of calls. A thread is registered when it is
started and cleared when it ends, but the counter behind the test of `NewThread` only goes
up: it says how many threads were ever started. -/

set_option autoImplicit false

namespace Aio4c

open TransitionSystem

/-- `AIO4C_MAX_THREADS`. -/
def maxThreads : Nat := 4096

/-- The address of `_MainThread`. -/
def mainThread : Nat := 0

/-- What became of the structure at an address. A thread is `started` up to the critical
section of its cleanup. -/
inductive ThreadPhase where
  | unallocated
  | main
  | created
  | started
  | ended
  deriving DecidableEq, Repr

/-- `_threads` with the memory behind it, `_numThreads`, and every index of `_threads` that
was written. `strays` are threads whose structure was freed under them. -/
structure ThreadTable where
  threads : Nat → Option Nat
  numThreads : Nat
  writes : List Nat
  phase : Nat → ThreadPhase
  strays : List Nat

/-- `ThreadMain`. -/
def threadMain : ThreadTable :=
  { threads := Function.update (fun _ => none) 0 (some mainThread), numThreads := 1, writes := [0]
    phase := Function.update (fun _ => .unallocated) mainThread .main, strays := [] }

namespace ThreadTable

def setPhase (table : ThreadTable) (thread : Nat) (phase : ThreadPhase) : ThreadTable :=
  { table with phase := Function.update table.phase thread phase }

/-- `_addThread`. -/
def addThread (table : ThreadTable) (thread : Nat) : ThreadTable :=
  { table with
    threads := Function.update table.threads table.numThreads (some thread)
    numThreads := table.numThreads + 1
    writes := table.writes ++ [table.numThreads] }

/-- The critical section of `_ThreadCleanup`. -/
def clear (table : ThreadTable) (thread : Nat) : ThreadTable :=
  { table with
    threads := fun i =>
      if i < table.numThreads ∧ table.threads i = some thread then none else table.threads i
    writes := table.writes ++
      (List.range table.numThreads).filter fun i => table.threads i = some thread }

/-- The test at the start of `NewThread`. -/
def Refuses (table : ThreadTable) : Prop := maxThreads ≤ table.numThreads

instance (table : ThreadTable) : Decidable table.Refuses :=
  inferInstanceAs (Decidable (_ ≤ _))

end ThreadTable

/-- A call with the outcomes of the system calls in it, or a step of a started thread. -/
inductive ThreadCall where
  | newThread (thread : Nat) (allocated : Bool)
  | threadStart (thread : Nat) (created : Bool)
  | cleanup (thread : Nat)
  | cleanupStray (thread : Nat)
  | threadJoin (thread : Nat)
  deriving DecidableEq, Repr

/-- One call; `none` where it cannot happen next. A thread that ended can be started again
until it is joined. `ThreadJoin` waits for the end of a started thread; it is done with one
that has not ended where `ThreadRunning` answers false, and frees the structure under it. -/
def threadCall (table : ThreadTable) : ThreadCall → Option ThreadTable
  | .newThread thread allocated =>
      if table.Refuses then some table
      else if allocated then
        if table.phase thread = .unallocated then some (table.setPhase thread .created) else none
      else some table
  | .threadStart thread created =>
      if table.phase thread = .created ∨ table.phase thread = .ended then
        some (if created then (table.addThread thread).setPhase thread .started else table)
      else none
  | .cleanup thread =>
      if table.phase thread = .started then some ((table.clear thread).setPhase thread .ended)
      else none
  | .cleanupStray thread =>
      if thread ∈ table.strays then
        some { table.clear thread with strays := table.strays.erase thread }
      else none
  | .threadJoin thread =>
      match table.phase thread with
      | .created | .ended => some (table.setPhase thread .unallocated)
      | .started => some
          { table.setPhase thread .unallocated with strays := thread :: table.strays }
      | .unallocated | .main => none

def ThreadCallStep (before : ThreadTable) (call : ThreadCall) (after : ThreadTable) : Prop :=
  threadCall before call = some after

/-- The call registers a thread. -/
def ThreadCall.starts : ThreadCall → Bool
  | .threadStart _ true => true
  | _ => false

/-- The call clears the entry of a thread. -/
def ThreadCall.clears : ThreadCall → Bool
  | .cleanup _ | .cleanupStray _ => true
  | _ => false

/-! ## What one call does -/

/-- The thread was started and has not finished its cleanup. -/
def ThreadPhase.Unfinished : ThreadPhase → Prop
  | .main | .started => True
  | .unallocated | .created | .ended => False

section

variable {before after : ThreadTable} {call : ThreadCall}

/-- A call registers one thread behind the others, clears the entries of one, or leaves the
table alone. -/
inductive TableEffect (before : ThreadTable) : ThreadCall → ThreadTable → Prop where
  | added {thread : Nat} {after : ThreadTable} :
      before.phase thread = .created ∨ before.phase thread = .ended →
      after = (before.addThread thread).setPhase thread .started →
      TableEffect before (.threadStart thread true) after
  | cleared {thread : Nat} {after : ThreadTable} :
      before.phase thread = .started → after = (before.clear thread).setPhase thread .ended →
      TableEffect before (.cleanup thread) after
  | strayed {thread : Nat} {after : ThreadTable} :
      thread ∈ before.strays →
      after = { before.clear thread with strays := before.strays.erase thread } →
      TableEffect before (.cleanupStray thread) after
  | moved {call : ThreadCall} {thread : Nat} (phase : ThreadPhase) {after : ThreadTable} :
      call.starts = false → call.clears = false → ¬ (before.phase thread).Unfinished →
      ¬ phase.Unfinished → after = before.setPhase thread phase → TableEffect before call after
  | freedEarly {thread : Nat} {after : ThreadTable} :
      before.phase thread = .started →
      after = { before.setPhase thread .unallocated with strays := thread :: before.strays } →
      TableEffect before (.threadJoin thread) after
  | kept {call : ThreadCall} :
      call.starts = false → call.clears = false → TableEffect before call before

theorem threadCall_effect (step : ThreadCallStep before call after) :
    TableEffect before call after := by
  unfold ThreadCallStep at step
  cases call with
  | newThread thread allocated =>
      simp only [threadCall] at step
      by_cases refuses : before.Refuses
      · rw [if_pos refuses] at step
        cases step
        exact .kept rfl rfl
      · rw [if_neg refuses] at step
        split at step
        · simp only [Option.ite_none_right_eq_some, Option.some.injEq] at step
          obtain ⟨free, rfl⟩ := step
          exact .moved .created rfl rfl (by simp [free, ThreadPhase.Unfinished]) not_false rfl
        · cases step
          exact .kept rfl rfl
  | threadStart thread created =>
      simp only [threadCall, Option.ite_none_right_eq_some, Option.some.injEq] at step
      obtain ⟨fresh, rfl⟩ := step
      cases created with
      | true => exact .added fresh rfl
      | false => exact .kept rfl rfl
  | cleanup thread =>
      simp only [threadCall, Option.ite_none_right_eq_some, Option.some.injEq] at step
      obtain ⟨started, rfl⟩ := step
      exact .cleared started rfl
  | cleanupStray thread =>
      simp only [threadCall, Option.ite_none_right_eq_some, Option.some.injEq] at step
      obtain ⟨stray, rfl⟩ := step
      exact .strayed stray rfl
  | threadJoin thread =>
      simp only [threadCall] at step
      split at step <;> cases step
      · next created =>
          exact .moved .unallocated rfl rfl (by simp [created, ThreadPhase.Unfinished]) not_false
            rfl
      · next ended =>
          exact .moved .unallocated rfl rfl (by simp [ended, ThreadPhase.Unfinished]) not_false rfl
      · next started => exact .freedEarly started rfl

end

/-! ## Writes -/

/-- The indices written are the ones that the counter went past. -/
def ThreadTable.Counted (table : ThreadTable) : Prop :=
  ∀ i, i ∈ table.writes ↔ i < table.numThreads

theorem TableEffect.numThreads {before after : ThreadTable} {call : ThreadCall}
    (effect : TableEffect before call after) :
    after.numThreads = before.numThreads + if call.starts then 1 else 0 := by
  cases effect with
  | added _ same => simp [same, ThreadTable.setPhase, ThreadTable.addThread, ThreadCall.starts]
  | cleared _ same => simp [same, ThreadTable.setPhase, ThreadTable.clear, ThreadCall.starts]
  | strayed _ same => simp [same, ThreadTable.clear, ThreadCall.starts]
  | moved _ noStart _ _ _ same => simp [same, noStart, ThreadTable.setPhase]
  | freedEarly _ same => simp [same, ThreadCall.starts, ThreadTable.setPhase]
  | kept noStart _ => simp [noStart]

theorem TableEffect.counted {before after : ThreadTable} {call : ThreadCall}
    (effect : TableEffect before call after) (counted : before.Counted) : after.Counted := by
  intro i
  cases effect with
  | added _ same =>
      have earlier := counted i
      simp only [same, ThreadTable.setPhase, ThreadTable.addThread, List.mem_append,
        List.mem_singleton, earlier]
      omega
  | cleared _ same =>
      have earlier := counted i
      simp only [same, ThreadTable.setPhase, ThreadTable.clear, List.mem_append, List.mem_filter,
        List.mem_range, earlier]
      exact or_iff_left_of_imp And.left
  | strayed _ same =>
      have earlier := counted i
      simp only [same, ThreadTable.clear, List.mem_append, List.mem_filter, List.mem_range, earlier]
      exact or_iff_left_of_imp And.left
  | moved _ _ _ _ _ same => exact same ▸ counted i
  | freedEarly _ same => exact same ▸ counted i
  | kept => exact counted i

theorem numThreads_of_run {start state : ThreadTable} {calls : List ThreadCall}
    (run : Run ThreadCallStep start calls state) :
    state.numThreads = start.numThreads + calls.countP ThreadCall.starts := by
  induction run with
  | nil => simp
  | cons step _ ih =>
      rw [ih, (threadCall_effect step).numThreads, List.countP_cons]
      omega

theorem counted_of_run {calls : List ThreadCall} {state : ThreadTable}
    (run : Run ThreadCallStep threadMain calls state) : ThreadTable.Counted state := by
  apply run.keeps
  · intro before call after counted step
    exact (threadCall_effect step).counted counted
  · intro i
    simp only [threadMain, List.mem_singleton]
    omega

/-- `ThreadJoin` does not free the structure of a thread that has not ended. -/
def JoinsLate (table : ThreadTable) : ThreadCall → Prop
  | .threadJoin thread => table.phase thread ≠ .started
  | _ => True

instance (table : ThreadTable) (call : ThreadCall) : Decidable (JoinsLate table call) :=
  match call with
  | .threadJoin thread => inferInstanceAs (Decidable (table.phase thread ≠ .started))
  | .newThread _ _ | .threadStart _ _ | .cleanup _ | .cleanupStray _ => isTrue trivial

/-! ## Threads that are started one after the other -/

/-- A thread that is created, started and joined. -/
def lifetime (thread : Nat) : List ThreadCall :=
  [.newThread thread true, .threadStart thread true, .cleanup thread, .threadJoin thread]

theorem lifetime_run {table : ThreadTable} {thread : Nat} (room : table.numThreads < maxThreads)
    (free : table.phase thread = .unallocated) :
    ∃ after, Run (Guarded JoinsLate ThreadCallStep) table (lifetime thread) after ∧
      after.numThreads = table.numThreads + 1 ∧ after.phase = table.phase := by
  let created := table.setPhase thread .created
  let started := (created.addThread thread).setPhase thread .started
  let ended := (started.clear thread).setPhase thread .ended
  have accepted : ¬ table.Refuses := Nat.not_le_of_lt room
  have createdPhase : created.phase thread = .created := Function.update_self _ _ _
  have startedPhase : started.phase thread = .started := Function.update_self _ _ _
  have endedPhase : ended.phase thread = .ended := Function.update_self _ _ _
  have new : ThreadCallStep table (.newThread thread true) created := by
    simp [ThreadCallStep, threadCall, accepted, free, created]
  have start : ThreadCallStep created (.threadStart thread true) started := by
    simp [ThreadCallStep, threadCall, createdPhase, started]
  have cleanup : ThreadCallStep started (.cleanup thread) ended := by
    simp [ThreadCallStep, threadCall, startedPhase, ended]
  have join : ThreadCallStep ended (.threadJoin thread) (ended.setPhase thread .unallocated) := by
    simp [ThreadCallStep, threadCall, endedPhase]
  have late : JoinsLate ended (.threadJoin thread) := by simp [JoinsLate, endedPhase]
  refine ⟨ended.setPhase thread .unallocated, ?_, rfl, ?_⟩
  · exact .cons ⟨trivial, new⟩ (.cons ⟨trivial, start⟩ (.cons ⟨trivial, cleanup⟩
      (.cons ⟨late, join⟩ (.nil _))))
  · simp [ended, started, created, ThreadTable.setPhase, ThreadTable.clear, ThreadTable.addThread,
      free]

/-- As many threads as there is room for can be joined one after the other at one address. -/
theorem lifetimes_run {table : ThreadTable} {thread n : Nat}
    (room : table.numThreads + n ≤ maxThreads) (free : table.phase thread = .unallocated) :
    ∃ after, Run (Guarded JoinsLate ThreadCallStep) table
        (List.replicate n (lifetime thread)).flatten after ∧
      after.numThreads = table.numThreads + n ∧ after.phase = table.phase := by
  induction n generalizing table with
  | zero => exact ⟨table, .nil table, rfl, rfl⟩
  | succ n ih =>
      have space : table.numThreads < maxThreads := by omega
      obtain ⟨middle, first, numThreads, phase⟩ := lifetime_run space free
      have remaining : middle.numThreads + n ≤ maxThreads := by omega
      have unallocated : middle.phase thread = .unallocated := phase ▸ free
      obtain ⟨after, rest, total, phases⟩ := ih remaining unallocated
      refine ⟨after, ?_, by omega, phases.trans phase⟩
      rw [List.replicate_succ, List.flatten_cons]
      exact first.append rest

/-- Every write to `_threads` is inside it exactly as long as fewer than `AIO4C_MAX_THREADS`
threads were ever started. -/
theorem threadTable_writes_inside_iff {calls : List ThreadCall} {state : ThreadTable}
    (run : Run ThreadCallStep threadMain calls state) :
    (∀ i ∈ state.writes, i < maxThreads) ↔ calls.countP ThreadCall.starts < maxThreads := by
  have counted := counted_of_run run
  have total : state.numThreads = 1 + calls.countP ThreadCall.starts := numThreads_of_run run
  constructor
  · intro inside
    have last : calls.countP ThreadCall.starts ∈ state.writes := (counted _).mpr (by omega)
    exact inside _ last
  · intro few i written
    have passed := (counted i).mp written
    omega

theorem threadTable_writes_inside_one :
    ∃ state, Run ThreadCallStep threadMain (lifetime 1) state ∧
      ∀ i ∈ state.writes, i < maxThreads := by
  obtain ⟨state, _, run⟩ := exists_run_of_execute ThreadCallStep threadCall threadMain (lifetime 1)
    (fun _ _ _ step => step) (by decide)
  exact ⟨state, run, (threadTable_writes_inside_iff run).mpr (by decide)⟩

/-- A thread that is created first and started last, behind as many others as there is room
for: its entry is the one behind the table. -/
theorem threadTable_writes_outside :
    ¬ ∀ calls state, Run ThreadCallStep threadMain calls state →
        ∀ i ∈ state.writes, i < maxThreads := by
  intro inside
  let created := threadMain.setPhase 1 .created
  have new : ThreadCallStep threadMain (.newThread 1 true) created := by
    simp [ThreadCallStep, threadCall, created, threadMain, ThreadTable.Refuses, maxThreads,
      mainThread]
  have room : created.numThreads + 4095 ≤ maxThreads := Nat.le_refl _
  obtain ⟨full, lifetimes, numThreads, phase⟩ :=
    lifetimes_run room (show created.phase 2 = .unallocated from rfl)
  have waiting : full.phase 1 = .created := by simp [phase, created, ThreadTable.setPhase]
  have start : ThreadCallStep full (.threadStart 1 true)
      ((full.addThread 1).setPhase 1 .started) := by
    simp [ThreadCallStep, threadCall, waiting]
  have written : maxThreads ∈ ((full.addThread 1).setPhase 1 .started).writes := by
    simp [ThreadTable.setPhase, ThreadTable.addThread, numThreads, created, threadMain, maxThreads]
  have run := (Run.cons new lifetimes.unguarded).append (.cons start (.nil _))
  exact Nat.lt_irrefl _ (inside _ _ run _ written)

/-! ## Entries -/

/-- The entries that are not NULL are the unfinished threads, each of them once. -/
structure ThreadTable.Sound (table : ThreadTable) : Prop where
  strays : table.strays = []
  listed : ∀ i thread, table.threads i = some thread →
    i < table.numThreads ∧ (table.phase thread).Unfinished
  entered : ∀ thread, (table.phase thread).Unfinished → ∃ i, table.threads i = some thread
  once : ∀ i j thread, table.threads i = some thread → table.threads j = some thread → i = j

/-- One of the entries in front of the counter was cleared. -/
def ThreadTable.Holes (table : ThreadTable) : Prop :=
  ∃ i < table.numThreads, table.threads i = none

theorem threadMain_sound : threadMain.Sound where
  strays := rfl
  listed := by
    intro i thread entry
    by_cases first : i = 0
    · simp only [threadMain, first, Function.update_self, Option.some.injEq] at entry
      subst entry
      exact ⟨by simp [threadMain, first], by simp [threadMain, ThreadPhase.Unfinished]⟩
    · simp [threadMain, Function.update_of_ne first] at entry
  entered := by
    intro thread unfinished
    by_cases main : thread = mainThread
    · exact ⟨0, by simp [threadMain, main]⟩
    · simp [threadMain, Function.update_of_ne main, ThreadPhase.Unfinished] at unfinished
  once := by
    intro i j thread first second
    have start (k : Nat) (entry : threadMain.threads k = some thread) : k = 0 := by
      by_contra later
      simp [threadMain, Function.update_of_ne later] at entry
    rw [start i first, start j second]

namespace ThreadTable.Sound

variable {table : ThreadTable}

/-- A phase that changes on one side of the line between the unfinished and the others. -/
theorem setPhase (sound : table.Sound) {thread : Nat} {phase : ThreadPhase}
    (same : phase.Unfinished ↔ (table.phase thread).Unfinished) :
    (table.setPhase thread phase).Sound := by
  have phases (other : Nat) : ((table.setPhase thread phase).phase other).Unfinished ↔
      (table.phase other).Unfinished := by
    by_cases here : other = thread
    · subst here
      simpa [ThreadTable.setPhase] using same
    · simp [ThreadTable.setPhase, Function.update_of_ne here]
  exact
    { strays := sound.strays
      listed := fun i other entry => (sound.listed i other entry).imp_right (phases other).mpr
      entered := fun other unfinished => sound.entered other ((phases other).mp unfinished)
      once := sound.once }

theorem added (sound : table.Sound) {thread : Nat}
    (fresh : table.phase thread = .created ∨ table.phase thread = .ended) :
    ((table.addThread thread).setPhase thread .started).Sound := by
  have finished : ¬ (table.phase thread).Unfinished := by
    cases fresh with
    | inl created => simp [created, ThreadPhase.Unfinished]
    | inr ended => simp [ended, ThreadPhase.Unfinished]
  have absent (i : Nat) : table.threads i ≠ some thread := by
    intro entry
    exact finished (sound.listed i thread entry).2
  have earlier {i other : Nat} (other_ne : i ≠ table.numThreads)
      (entry : Function.update table.threads table.numThreads (some thread) i = some other) :
      table.threads i = some other ∧ other ≠ thread := by
    rw [Function.update_of_ne other_ne] at entry
    refine ⟨entry, ?_⟩
    intro same
    exact absent i (same ▸ entry)
  have last {other : Nat}
      (entry : ((table.addThread thread).setPhase thread .started).threads table.numThreads =
        some other) : other = thread := by
    simp only [ThreadTable.setPhase, ThreadTable.addThread, Function.update_self,
      Option.some.injEq] at entry
    exact entry.symm
  refine ⟨sound.strays, ?_, ?_, ?_⟩
  · intro i other entry
    by_cases here : i = table.numThreads
    · subst here
      rw [last entry]
      exact ⟨Nat.lt_succ_self _, by simp [ThreadTable.setPhase, ThreadPhase.Unfinished]⟩
    · obtain ⟨old, other_ne⟩ := earlier here entry
      have listed := sound.listed i other old
      exact ⟨Nat.lt_succ_of_lt listed.1, by
        simpa [ThreadTable.setPhase, ThreadTable.addThread, Function.update_of_ne other_ne]
          using listed.2⟩
  · intro other unfinished
    by_cases same : other = thread
    · subst same
      exact ⟨table.numThreads, Function.update_self _ _ _⟩
    · simp only [ThreadTable.setPhase, ThreadTable.addThread, Function.update_of_ne same]
        at unfinished
      obtain ⟨i, entry⟩ := sound.entered other unfinished
      have before_last : i ≠ table.numThreads := Nat.ne_of_lt (sound.listed i other entry).1
      exact ⟨i, (Function.update_of_ne before_last _ _).trans entry⟩
  · intro i j other first second
    by_cases firstLast : i = table.numThreads <;> by_cases secondLast : j = table.numThreads
    · rw [firstLast, secondLast]
    · obtain ⟨_, other_ne⟩ := earlier secondLast second
      exact absurd (last (firstLast ▸ first)) other_ne
    · obtain ⟨_, other_ne⟩ := earlier firstLast first
      exact absurd (last (secondLast ▸ second)) other_ne
    · exact sound.once i j other (earlier firstLast first).1 (earlier secondLast second).1

theorem cleared (sound : table.Sound) {thread : Nat} :
    ((table.clear thread).setPhase thread .ended).Sound := by
  have earlier {i other : Nat} (entry : (table.clear thread).threads i = some other) :
      table.threads i = some other ∧ other ≠ thread := by
    simp only [ThreadTable.clear, Option.ite_none_left_eq_some, not_and] at entry
    refine ⟨entry.2, ?_⟩
    intro same
    subst same
    exact entry.1 (sound.listed i other entry.2).1 entry.2
  refine ⟨sound.strays, ?_, ?_, ?_⟩
  · intro i other entry
    obtain ⟨old, other_ne⟩ := earlier entry
    have listed := sound.listed i other old
    exact ⟨listed.1, by
      simpa [ThreadTable.setPhase, ThreadTable.clear, Function.update_of_ne other_ne]
        using listed.2⟩
  · intro other unfinished
    by_cases same : other = thread
    · simp [ThreadTable.setPhase, ThreadTable.clear, same, ThreadPhase.Unfinished] at unfinished
    · simp only [ThreadTable.setPhase, ThreadTable.clear, Function.update_of_ne same] at unfinished
      obtain ⟨i, entry⟩ := sound.entered other unfinished
      refine ⟨i, ?_⟩
      simp only [ThreadTable.setPhase, ThreadTable.clear, Option.ite_none_left_eq_some, not_and]
      refine ⟨?_, entry⟩
      intro _ found
      exact same (Option.some.inj (entry.symm.trans found))
  · intro i j other first second
    exact sound.once i j other (earlier first).1 (earlier second).1

end ThreadTable.Sound

theorem TableEffect.sound {before after : ThreadTable} {call : ThreadCall}
    (effect : TableEffect before call after) (sound : before.Sound) (late : JoinsLate before call) :
    after.Sound := by
  cases effect with
  | added fresh same => exact same ▸ sound.added fresh
  | cleared _ same => exact same ▸ sound.cleared
  | strayed stray _ => simp [sound.strays] at stray
  | moved phase _ _ finished finishes same =>
      exact same ▸ sound.setPhase (by simp [finished, finishes])
  | freedEarly started _ => exact absurd started late
  | kept => exact sound

theorem TableEffect.holes {before after : ThreadTable} {call : ThreadCall}
    (effect : TableEffect before call after) (sound : before.Sound) :
    after.Holes ↔ before.Holes ∨ call.clears = true := by
  cases effect with
  | @added thread _ _ same =>
      simp only [same, ThreadCall.clears, Bool.false_eq_true, or_false]
      constructor
      · intro ⟨i, inside, hole⟩
        have here : i ≠ before.numThreads := by
          intro last
          simp [ThreadTable.setPhase, ThreadTable.addThread, last] at hole
        simp only [ThreadTable.setPhase, ThreadTable.addThread, Function.update_of_ne here]
          at inside hole
        exact ⟨i, by omega, hole⟩
      · intro ⟨i, inside, hole⟩
        have here : i ≠ before.numThreads := Nat.ne_of_lt inside
        refine ⟨i, Nat.lt_succ_of_lt inside, ?_⟩
        exact (Function.update_of_ne here _ _).trans hole
  | @cleared thread _ started same =>
      simp only [same, ThreadCall.clears, or_true, iff_true]
      have unfinished : (before.phase thread).Unfinished := by
        simp [started, ThreadPhase.Unfinished]
      obtain ⟨i, entry⟩ := sound.entered thread unfinished
      have inside := (sound.listed i thread entry).1
      exact ⟨i, inside, if_pos ⟨inside, entry⟩⟩
  | strayed stray _ => simp [sound.strays] at stray
  | moved _ _ noClear _ _ same => simp [same, noClear, ThreadTable.Holes, ThreadTable.setPhase]
  | freedEarly _ same => simp [same, ThreadCall.clears, ThreadTable.Holes, ThreadTable.setPhase]
  | kept _ noClear => simp [noClear]

theorem sound_of_run {start state : ThreadTable} {calls : List ThreadCall}
    (run : Run (Guarded JoinsLate ThreadCallStep) start calls state) (sound : start.Sound) :
    state.Sound := by
  apply run.keeps _ sound
  intro before call after sound step
  exact (threadCall_effect step.2).sound sound step.1

theorem holes_of_run {start state : ThreadTable} {calls : List ThreadCall}
    (run : Run (Guarded JoinsLate ThreadCallStep) start calls state) (sound : start.Sound) :
    state.Holes ↔ start.Holes ∨ calls.any ThreadCall.clears = true := by
  induction run with
  | nil => simp
  | @cons before middle after call calls step _ ih =>
      have effect := threadCall_effect step.2
      rw [ih (effect.sound sound step.1), effect.holes sound, List.any_cons, Bool.or_eq_true,
        or_assoc]

theorem threadMain_full : ¬ threadMain.Holes := by
  intro ⟨i, inside, hole⟩
  have first : i = 0 := Nat.lt_one_iff.mp inside
  simp [threadMain, first] at hole

/-! ## Capacity -/

/-- The entries of the table that are not NULL are the threads that have not finished, each of
them once, and `NewThread` finds the table full only where all of it is in use. -/
structure ThreadTable.GivesBack (table : ThreadTable) : Prop where
  entries : ∀ thread,
    (∃ i < maxThreads, table.threads i = some thread) ↔ (table.phase thread).Unfinished
  once : ∀ i < maxThreads, ∀ j < maxThreads, ∀ thread,
    table.threads i = some thread → table.threads j = some thread → i = j
  inUse : table.Refuses → ∀ i < maxThreads, ∃ thread, table.threads i = some thread

/-- A counter inside the table refuses early exactly where it reached the end of the table and an
entry in front of it was cleared. -/
theorem ThreadTable.Sound.givesBack_iff {table : ThreadTable} (sound : table.Sound)
    (inside : table.numThreads ≤ maxThreads) :
    table.GivesBack ↔ table.numThreads < maxThreads ∨ ¬ table.Holes := by
  constructor
  · intro gives
    by_cases room : table.numThreads < maxThreads
    · exact Or.inl room
    · refine Or.inr ?_
      intro ⟨i, counted, hole⟩
      obtain ⟨thread, entry⟩ := gives.inUse (Nat.le_of_not_lt room) i (by omega)
      simp [hole] at entry
  · intro condition
    refine ⟨?_, fun i _ j _ => sound.once i j, ?_⟩
    · intro thread
      constructor
      · intro ⟨i, _, entry⟩
        exact (sound.listed i thread entry).2
      · intro unfinished
        obtain ⟨i, entry⟩ := sound.entered thread unfinished
        exact ⟨i, Nat.lt_of_lt_of_le (sound.listed i thread entry).1 inside, entry⟩
    · intro refuses i below
      cases condition with
      | inl room => exact absurd refuses (Nat.not_le_of_lt room)
      | inr full =>
          apply Option.ne_none_iff_exists'.mp
          intro hole
          exact full ⟨i, Nat.lt_of_lt_of_le below refuses, hole⟩

/-- As long as fewer than `AIO4C_MAX_THREADS` threads were started and no join freed a thread
that had not ended, the table gives its capacity back exactly where the counter has not
reached its end or no thread has ended. -/
theorem threadTable_givesBack_iff {calls : List ThreadCall} {state : ThreadTable}
    (run : Run (Guarded JoinsLate ThreadCallStep) threadMain calls state)
    (few : calls.countP ThreadCall.starts < maxThreads) :
    state.GivesBack ↔
      calls.countP ThreadCall.starts + 1 < maxThreads ∨ calls.any ThreadCall.clears = false := by
  have total : state.numThreads = 1 + calls.countP ThreadCall.starts :=
    numThreads_of_run run.unguarded
  have sound := sound_of_run run threadMain_sound
  have holes := holes_of_run run threadMain_sound
  rw [sound.givesBack_iff (by omega), holes, total, Nat.add_comm]
  simp only [threadMain_full, false_or, Bool.not_eq_true]

theorem threadTable_givesBack_one :
    ∃ state, Run (Guarded JoinsLate ThreadCallStep) threadMain (lifetime 1) state ∧
      state.GivesBack := by
  obtain ⟨state, _, run⟩ := exists_run_of_execute (Guarded JoinsLate ThreadCallStep)
    (guardedNext JoinsLate threadCall) threadMain (lifetime 1)
    (fun _ _ _ taken => guardedNext_sound taken) (by decide)
  exact ⟨state, run, (threadTable_givesBack_iff run (by decide)).mpr (Or.inl (by decide))⟩

/-- Threads that are started and joined one after the other until the counter is at the end: all
entries but the first are NULL and `NewThread` refuses. -/
theorem threadTable_keeps :
    ¬ ∀ calls state, Run ThreadCallStep threadMain calls state → state.GivesBack := by
  intro gives
  have room : threadMain.numThreads + 4095 ≤ maxThreads := Nat.le_refl _
  obtain ⟨full, lifetimes, numThreads, _⟩ :=
    lifetimes_run room (show threadMain.phase 1 = .unallocated from rfl)
  have sound := sound_of_run lifetimes threadMain_sound
  have holes : full.Holes := by
    rw [holes_of_run lifetimes threadMain_sound, List.replicate_succ, List.flatten_cons,
      List.any_append]
    exact Or.inr rfl
  have total : full.numThreads = maxThreads := numThreads
  cases (sound.givesBack_iff (Nat.le_of_eq total)).mp (gives _ _ lifetimes.unguarded) with
  | inl room => exact absurd room (by omega)
  | inr full => exact full holes

end Aio4c
