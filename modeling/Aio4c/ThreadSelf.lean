import Aio4c.ThreadTable

/-! Who calls. `_ThreadSelf` compares the id of its caller with those of the threads in the table,
and a lock notes the thread that it finds there as its owner. -/

set_option autoImplicit false

namespace Aio4c

open TransitionSystem

/-- The table with `thread->id`. `pthreads` are the threads that exist, from `pthread_create`
to `pthread_join`, each with the structure it was given and its id; `starting` are the
structures between `pthread_create` and `_addThread`; `foreign` are the ids of the threads
that the program has started on its own. -/
structure ThreadIds where
  table : ThreadTable
  id : Nat → Nat
  pthreads : List (Nat × Nat)
  starting : List Nat
  foreign : List Nat

namespace ThreadIds

variable (ids : ThreadIds)

/-- No thread has the id; the system gives only such an id to a new thread. -/
def Unused (id : Nat) : Prop := (∀ pthread ∈ ids.pthreads, pthread.2 ≠ id) ∧ id ∉ ids.foreign

instance (id : Nat) : Decidable (ids.Unused id) := inferInstanceAs (Decidable (_ ∧ _))

def withTable (table : Option ThreadTable) : Option ThreadIds :=
  table.map fun table => { ids with table }

end ThreadIds

/-- Behind `ThreadMain`, called by the thread with this id. -/
def mainThreadIds (id : Nat) : ThreadIds :=
  { table := threadMain, id := fun _ => id, pthreads := [(mainThread, id)], starting := []
    foreign := [] }

/-- `_ThreadSelf`. -/
def threadSelf (ids : ThreadIds) (caller : Nat) : Option Nat :=
  (List.range (min ids.table.numThreads maxThreads)).findSome? fun i =>
    (ids.table.threads i).filter fun thread => ids.id thread = caller

/-- `pthreadCreate` and `addThread` are the two parts of `ThreadStart`; `joined` is the
answer of `ThreadRunning` in `ThreadJoin`. -/
inductive PthreadCall where
  | newThread (thread : Nat) (allocated : Bool)
  | pthreadCreate (thread id : Nat) (created : Bool)
  | addThread (thread : Nat)
  | cleanup (thread : Nat)
  | cleanupStray (thread : Nat)
  | threadJoin (thread : Nat) (joined : Bool)
  | foreignStart (id : Nat)
  | foreignEnd (id : Nat)
  deriving DecidableEq, Repr

/-- One call. What `pthread_create` leaves in `thread->id` where it fails is unspecified.
`ThreadJoin` waits for the end of a thread that it found running; the structure of any other
it frees at once. -/
def pthreadCall (ids : ThreadIds) : PthreadCall → Option ThreadIds
  | .newThread thread allocated =>
      ids.withTable (threadCall ids.table (.newThread thread allocated))
  | .pthreadCreate thread id created =>
      if (ids.table.phase thread = .created ∨ ids.table.phase thread = .ended) ∧
          thread ∉ ids.starting then
        if created then
          if ids.Unused id then
            some { ids with
              id := Function.update ids.id thread id
              pthreads := (thread, id) :: ids.pthreads
              starting := thread :: ids.starting }
          else none
        else some { ids with id := Function.update ids.id thread id }
      else none
  | .addThread thread =>
      if thread ∈ ids.starting then
        ThreadIds.withTable { ids with
          starting := ids.starting.filter fun other => other ≠ thread }
          (threadCall ids.table (.threadStart thread true))
      else none
  | .cleanup thread => ids.withTable (threadCall ids.table (.cleanup thread))
  | .cleanupStray thread => ids.withTable (threadCall ids.table (.cleanupStray thread))
  | .threadJoin thread joined =>
      if thread ∉ ids.starting ∧ (joined → ids.table.phase thread = .ended) then
        ThreadIds.withTable { ids with
          pthreads := if joined then
              ids.pthreads.filter fun pthread => pthread.2 ≠ ids.id thread
            else ids.pthreads }
          (threadCall ids.table (.threadJoin thread))
      else none
  | .foreignStart id =>
      if ids.Unused id then some { ids with foreign := id :: ids.foreign } else none
  | .foreignEnd id => some { ids with foreign := ids.foreign.filter fun other => other ≠ id }

def PthreadCallStep (before : ThreadIds) (call : PthreadCall) (after : ThreadIds) : Prop :=
  pthreadCall before call = some after

/-- `ThreadJoin` does not free the structure of a thread that has not ended, and a
`ThreadStart` that fails is not one of a structure that was started before. -/
def PthreadAllowed (ids : ThreadIds) : PthreadCall → Prop
  | .pthreadCreate thread _ created => created = false → ids.table.phase thread = .created
  | .threadJoin thread _ => ids.table.phase thread ≠ .started
  | _ => True

instance (ids : ThreadIds) : (call : PthreadCall) → Decidable (PthreadAllowed ids call)
  | .pthreadCreate thread _ created =>
      inferInstanceAs (Decidable (created = false → ids.table.phase thread = .created))
  | .threadJoin thread _ => inferInstanceAs (Decidable (ids.table.phase thread ≠ .started))
  | .newThread _ _ | .addThread _ | .cleanup _ | .cleanupStray _ | .foreignStart _
  | .foreignEnd _ => isTrue trivial

/-! ## Ids -/

/-- The table is that of the unfinished threads, a structure that was started has the id of
a thread that exists, and no two threads have one id. -/
structure ThreadIds.Known (ids : ThreadIds) : Prop where
  sound : ids.table.Sound
  begun : ∀ thread ∈ ids.starting,
    (ids.table.phase thread = .created ∨ ids.table.phase thread = .ended) ∧
      (thread, ids.id thread) ∈ ids.pthreads
  exist : ∀ thread, (ids.table.phase thread).Unfinished ∨ ids.table.phase thread = .ended →
    (thread, ids.id thread) ∈ ids.pthreads
  distinct : ∀ first ∈ ids.pthreads, ∀ second ∈ ids.pthreads, first.2 = second.2 →
    first = second
  apart : ∀ pthread ∈ ids.pthreads, pthread.2 ∉ ids.foreign

theorem mainThreadIds_known (id : Nat) : (mainThreadIds id).Known where
  sound := threadMain_sound
  begun _ begun := nomatch begun
  exist := by
    intro thread exists'
    by_cases main : thread = mainThread
    · exact main ▸ List.mem_singleton_self _
    · simp [mainThreadIds, threadMain, Function.update_of_ne main, ThreadPhase.Unfinished]
        at exists'
  distinct := by
    intro first inFirst second inSecond _
    rw [List.mem_singleton.mp inFirst, List.mem_singleton.mp inSecond]
  apart _ _ := List.not_mem_nil

theorem newThread_either {table after : ThreadTable} {thread : Nat} {allocated : Bool}
    (taken : threadCall table (.newThread thread allocated) = some after) :
    after = table ∨ table.phase thread = .unallocated ∧ after = table.setPhase thread .created := by
  simp only [threadCall] at taken
  split_ifs at taken with refuses granted free
  · exact .inl (Option.some.inj taken).symm
  · exact .inr ⟨free, (Option.some.inj taken).symm⟩
  · exact .inl (Option.some.inj taken).symm

theorem threadJoin_frees {table after : ThreadTable} {thread : Nat}
    (late : table.phase thread ≠ .started)
    (taken : threadCall table (.threadJoin thread) = some after) :
    (table.phase thread = .created ∨ table.phase thread = .ended) ∧
      after = table.setPhase thread .unallocated := by
  simp only [threadCall] at taken
  split at taken
  · next created => exact ⟨.inl created, (Option.some.inj taken).symm⟩
  · next ended => exact ⟨.inr ended, (Option.some.inj taken).symm⟩
  · next started => exact absurd started late
  · cases taken
  · cases taken

theorem ThreadPhase.finished {phase : ThreadPhase} (fresh : phase = .created ∨ phase = .ended) :
    ¬ phase.Unfinished := by
  rcases fresh with rfl | rfl <;> exact not_false

namespace ThreadIds.Known

variable {ids after : ThreadIds} {table : ThreadTable} {thread : Nat}

/-- A structure moves to another phase; the others stay where they are. -/
theorem moved (known : ids.Known) {phase : ThreadPhase}
    (moves : table.phase = Function.update ids.table.phase thread phase) (sound : table.Sound)
    (begun : thread ∉ ids.starting)
    (exist : phase.Unfinished ∨ phase = .ended → (thread, ids.id thread) ∈ ids.pthreads) :
    ThreadIds.Known { ids with table } := by
  refine { known with sound, begun := ?_, exist := ?_ }
  · intro other starting
    have differs : other ≠ thread := fun same => begun (same ▸ starting)
    simp only [moves, Function.update_of_ne differs]
    exact known.begun other starting
  · intro other exists'
    by_cases same : other = thread
    · subst same
      simp only [moves, Function.update_self] at exists'
      exact exist exists'
    · simp only [moves, Function.update_of_ne same] at exists'
      exact known.exist other exists'

theorem newThread (known : ids.Known) {allocated : Bool}
    (taken : threadCall ids.table (.newThread thread allocated) = some table) :
    ThreadIds.Known { ids with table } := by
  have sound := (threadCall_effect taken).sound known.sound trivial
  rcases newThread_either taken with rfl | ⟨free, rfl⟩
  · exact known
  · have begun : thread ∉ ids.starting := by
      intro starting
      rcases (known.begun thread starting).1 with created | ended
      · simp [free] at created
      · simp [free] at ended
    exact known.moved rfl sound begun (by simp [ThreadPhase.Unfinished])

/-- A structure gets an id while no thread is known by it. -/
theorem renamed (known : ids.Known) (begun : thread ∉ ids.starting)
    (unused : ¬ ((ids.table.phase thread).Unfinished ∨ ids.table.phase thread = .ended))
    (id : Nat) : ThreadIds.Known { ids with id := Function.update ids.id thread id } := by
  refine { known with begun := ?_, exist := ?_ }
  · intro other starting
    have differs : other ≠ thread := fun same => begun (same ▸ starting)
    simp only [Function.update_of_ne differs]
    exact known.begun other starting
  · intro other exists'
    have differs : other ≠ thread := fun same => unused (same ▸ exists')
    simp only [Function.update_of_ne differs]
    exact known.exist other exists'

theorem pthreadCreate (known : ids.Known) {id : Nat} (begun : thread ∉ ids.starting)
    (fresh : ids.table.phase thread = .created ∨ ids.table.phase thread = .ended)
    (unused : ids.Unused id) :
    ThreadIds.Known { ids with
      id := Function.update ids.id thread id
      pthreads := (thread, id) :: ids.pthreads
      starting := thread :: ids.starting } := by
  refine { sound := known.sound, begun := ?_, exist := ?_, distinct := ?_, apart := ?_ }
  · intro other starting
    by_cases same : other = thread
    · subst same
      simp only [Function.update_self]
      exact ⟨fresh, List.mem_cons_self⟩
    · simp only [Function.update_of_ne same]
      have started := known.begun other ((List.mem_cons.mp starting).resolve_left same)
      exact started.imp_right (List.mem_cons_of_mem _)
  · intro other exists'
    by_cases same : other = thread
    · subst same
      simp only [Function.update_self]
      exact List.mem_cons_self
    · simp only [Function.update_of_ne same]
      exact List.mem_cons_of_mem _ (known.exist other exists')
  · intro first inFirst second inSecond same
    rcases List.mem_cons.mp inFirst with rfl | inFirst <;>
      rcases List.mem_cons.mp inSecond with rfl | inSecond
    · rfl
    · exact absurd same.symm (unused.1 second inSecond)
    · exact absurd same (unused.1 first inFirst)
    · exact known.distinct first inFirst second inSecond same
  · intro pthread member
    rcases List.mem_cons.mp member with rfl | member
    · exact unused.2
    · exact known.apart pthread member

theorem addThread (known : ids.Known) (starting : thread ∈ ids.starting)
    (taken : threadCall ids.table (.threadStart thread true) = some table) :
    ThreadIds.Known { ids with
      table, starting := ids.starting.filter fun other => other ≠ thread } := by
  have sound := (threadCall_effect taken).sound known.sound trivial
  simp only [threadCall, if_true, Option.ite_none_right_eq_some, Option.some.injEq] at taken
  obtain ⟨_, rfl⟩ := taken
  have left : ThreadIds.Known { ids with
      starting := ids.starting.filter fun other => other ≠ thread } :=
    { known with begun := fun other member => known.begun other (List.mem_filter.mp member).1 }
  exact left.moved rfl sound (by simp) fun _ => (known.begun thread starting).2

theorem cleanup (known : ids.Known)
    (taken : threadCall ids.table (.cleanup thread) = some table) :
    ThreadIds.Known { ids with table } := by
  have sound := (threadCall_effect taken).sound known.sound trivial
  simp only [threadCall, Option.ite_none_right_eq_some, Option.some.injEq] at taken
  obtain ⟨started, rfl⟩ := taken
  have begun : thread ∉ ids.starting := by
    intro starting
    rcases (known.begun thread starting).1 with created | ended
    · simp [started] at created
    · simp [started] at ended
  have exist := known.exist thread (.inl (by simp [started, ThreadPhase.Unfinished]))
  exact known.moved rfl sound begun fun _ => exist

theorem cleanupStray (known : ids.Known) :
    threadCall ids.table (.cleanupStray thread) = none := by
  simp [threadCall, known.sound.strays]

theorem threadJoin (known : ids.Known) (begun : thread ∉ ids.starting)
    (late : ids.table.phase thread ≠ .started)
    (taken : threadCall ids.table (.threadJoin thread) = some table) :
    ThreadIds.Known { ids with table } := by
  have sound := (threadCall_effect taken).sound known.sound late
  obtain ⟨_, rfl⟩ := threadJoin_frees late taken
  exact known.moved rfl sound begun (by simp [ThreadPhase.Unfinished])

/-- `pthread_join` takes the id of the thread that ended away, and nobody else has it. -/
theorem joined (known : ids.Known) (begun : thread ∉ ids.starting)
    (ended : ids.table.phase thread = .ended)
    (taken : threadCall ids.table (.threadJoin thread) = some table) :
    ThreadIds.Known { ids with
      table, pthreads := ids.pthreads.filter fun pthread => pthread.2 ≠ ids.id thread } := by
  have freed := known.threadJoin begun (by simp [ended]) taken
  have own := known.exist thread (.inr ended)
  have kept : ∀ {other : Nat}, other ≠ thread → (other, ids.id other) ∈ ids.pthreads →
      (other, ids.id other) ∈
        ids.pthreads.filter fun pthread => pthread.2 ≠ ids.id thread := by
    intro other differs member
    refine List.mem_filter.mpr ⟨member, decide_eq_true fun same => ?_⟩
    exact differs (Prod.mk.inj (known.distinct _ member _ own same)).1
  obtain ⟨_, rfl⟩ := threadJoin_frees (by simp [ended]) taken
  refine { sound := freed.sound, begun := ?_, exist := ?_, distinct := ?_, apart := ?_ }
  · intro other starting
    have differs : other ≠ thread := fun same => begun (same ▸ starting)
    exact (freed.begun other starting).imp_right (kept differs)
  · intro other exists'
    have differs : other ≠ thread := by
      rintro rfl
      simp [ThreadTable.setPhase, ThreadPhase.Unfinished] at exists'
    exact kept differs (freed.exist other exists')
  · intro first inFirst second inSecond
    exact known.distinct first (List.mem_filter.mp inFirst).1 second (List.mem_filter.mp inSecond).1
  · intro pthread member
    exact known.apart pthread (List.mem_filter.mp member).1

theorem step (known : ids.Known) {call : PthreadCall} (allowed : PthreadAllowed ids call)
    (taken : PthreadCallStep ids call after) : after.Known := by
  unfold PthreadCallStep at taken
  cases call with
  | newThread thread allocated =>
      obtain ⟨table, called, rfl⟩ := Option.map_eq_some_iff.mp taken
      exact known.newThread called
  | pthreadCreate thread id created =>
      simp only [pthreadCall] at taken
      split_ifs at taken with fresh granted unused
      · cases taken
        exact known.pthreadCreate fresh.2 fresh.1 unused
      · cases taken
        have first : ids.table.phase thread = .created := allowed (by simpa using granted)
        exact known.renamed fresh.2 (by simp [first, ThreadPhase.Unfinished]) id
  | addThread thread =>
      simp only [pthreadCall, Option.ite_none_right_eq_some] at taken
      obtain ⟨starting, taken⟩ := taken
      obtain ⟨table, called, rfl⟩ := Option.map_eq_some_iff.mp taken
      exact known.addThread starting called
  | cleanup thread =>
      obtain ⟨table, called, rfl⟩ := Option.map_eq_some_iff.mp taken
      exact known.cleanup called
  | cleanupStray thread =>
      obtain ⟨table, called, rfl⟩ := Option.map_eq_some_iff.mp taken
      rw [known.cleanupStray] at called
      cases called
  | threadJoin thread joined =>
      simp only [pthreadCall, Option.ite_none_right_eq_some] at taken
      obtain ⟨⟨begun, ended⟩, taken⟩ := taken
      obtain ⟨table, called, rfl⟩ := Option.map_eq_some_iff.mp taken
      cases joined with
      | true => exact known.joined begun (ended rfl) called
      | false => exact known.threadJoin begun allowed called
  | foreignStart id =>
      simp only [pthreadCall, Option.ite_none_right_eq_some, Option.some.injEq] at taken
      obtain ⟨unused, rfl⟩ := taken
      refine { known with apart := fun pthread member inForeign => ?_ }
      rcases List.mem_cons.mp inForeign with same | inForeign
      · exact unused.1 pthread member same
      · exact known.apart pthread member inForeign
  | foreignEnd id =>
      cases taken
      exact { known with
        apart := fun pthread member inForeign =>
          known.apart pthread member (List.mem_filter.mp inForeign).1 }

theorem threadSelf_some (known : ids.Known) {caller : Nat}
    (result : threadSelf ids caller = some thread) :
    (ids.table.phase thread).Unfinished ∧ ids.id thread = caller := by
  obtain ⟨i, _, entry⟩ := List.exists_of_findSome?_eq_some result
  obtain ⟨entry, same⟩ := Option.filter_eq_some_iff.mp entry
  exact ⟨(known.sound.listed i thread entry).2, of_decide_eq_true same⟩

/-- A caller finds a thread exactly where it is that thread and the thread is in the table. -/
theorem threadSelf_iff (known : ids.Known) (inside : ids.table.numThreads ≤ maxThreads)
    (caller thread : Nat) :
    threadSelf ids caller = some thread ↔
      (ids.table.phase thread).Unfinished ∧ ids.id thread = caller := by
  refine ⟨known.threadSelf_some, fun ⟨unfinished, same⟩ => ?_⟩
  obtain ⟨i, entry⟩ := known.sound.entered thread unfinished
  have counted := (known.sound.listed i thread entry).1
  have member : i ∈ List.range (min ids.table.numThreads maxThreads) :=
    List.mem_range.mpr (Nat.lt_min.mpr ⟨counted, Nat.lt_of_lt_of_le counted inside⟩)
  have here : (ids.table.threads i).filter (fun thread => ids.id thread = caller) = some thread :=
    Option.filter_eq_some_iff.mpr ⟨entry, decide_eq_true same⟩
  have some : (threadSelf ids caller).isSome := by
    rw [threadSelf, List.findSome?_isSome_iff]
    exact ⟨i, member, here ▸ rfl⟩
  obtain ⟨other, result⟩ := Option.isSome_iff_exists.mp some
  obtain ⟨otherUnfinished, otherSame⟩ := known.threadSelf_some result
  have equal := known.distinct _ (known.exist other (.inl otherUnfinished)) _
    (known.exist thread (.inl unfinished)) (otherSame.trans same.symm)
  rw [result, (Prod.mk.inj equal).1]

end ThreadIds.Known

/-! ## Runs -/

section

variable {id : Nat} {ids : ThreadIds} {calls : List PthreadCall}

/-- Whatever threads were started, also again, ended and joined, and whatever ids and addresses
came again: as long as the counter is inside the table and no structure was freed under its
thread, `_ThreadSelf` finds the structure of its caller between `_addThread` and the end of
the cleanup, and NULL for any other caller. -/
theorem threadSelf_caller
    (run : Run (Guarded PthreadAllowed PthreadCallStep) (mainThreadIds id) calls ids)
    (inside : ids.table.numThreads ≤ maxThreads) :
    (∀ caller thread, threadSelf ids caller = some thread ↔
      (ids.table.phase thread).Unfinished ∧ ids.id thread = caller) ∧
    ∀ caller ∈ ids.foreign, threadSelf ids caller = none := by
  have known : ids.Known := by
    apply run.keeps _ (mainThreadIds_known id)
    intro before call after known taken
    exact known.step taken.1 taken.2
  refine ⟨known.threadSelf_iff inside, fun caller foreign => ?_⟩
  cases result : threadSelf ids caller with
  | none => rfl
  | some thread =>
      obtain ⟨unfinished, same⟩ := (known.threadSelf_iff inside caller thread).mp result
      have apart := known.apart _ (known.exist thread (.inl unfinished))
      rw [same] at apart
      exact absurd foreign apart

end

/-- A thread ends, is started again and joined, and another one gets its address and its
second id; the first id is still taken. -/
def startsAgain : List PthreadCall :=
  [.newThread 1 true, .pthreadCreate 1 20 true, .addThread 1, .foreignStart 30, .cleanup 1,
    .pthreadCreate 1 21 true, .addThread 1, .cleanup 1, .threadJoin 1 true, .newThread 1 true,
    .pthreadCreate 1 0 false, .pthreadCreate 1 21 true, .addThread 1]

theorem threadSelf_caller_again :
    ∃ ids, Run (Guarded PthreadAllowed PthreadCallStep) (mainThreadIds 10) startsAgain ids ∧
      threadSelf ids 21 = some 1 ∧ threadSelf ids 30 = none := by
  obtain ⟨ids, runs, run⟩ := exists_run_of_execute (Guarded PthreadAllowed PthreadCallStep)
    (guardedNext PthreadAllowed pthreadCall) (mainThreadIds 10) startsAgain
    (fun _ _ _ taken => guardedNext_sound taken) (by decide)
  have ends : (execute (guardedNext PthreadAllowed pthreadCall) (mainThreadIds 10)
      startsAgain).map (fun ids => (decide (ids.table.numThreads ≤ maxThreads),
        ids.table.phase 1, ids.id 1, ids.foreign)) = some (true, .started, 21, [30]) := by
    decide
  rw [runs, Option.map_some, Option.some.injEq, Prod.mk.injEq, Prod.mk.injEq, Prod.mk.injEq] at ends
  obtain ⟨inside, started, here, foreign⟩ := ends
  obtain ⟨found, outside⟩ := threadSelf_caller run (of_decide_eq_true inside)
  refine ⟨ids, run, (found 21 1).mpr ⟨?_, here⟩, outside 30 ?_⟩
  · simp [started, ThreadPhase.Unfinished]
  · simp [foreign]

end Aio4c
