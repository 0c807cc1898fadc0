import Aio4c.TaskBuffers
import Mathlib.Data.List.Perm.Basic

/-! Each buffer of a worker's pool is in one place, comes back once for each time it was
handed out, and no task is left behind the EXIT item. -/

set_option autoImplicit false

namespace Aio4c

open TransitionSystem

@[simp] theorem taskBuffers_append (front back : List QueueItem) :
    taskBuffers (front ++ back) = taskBuffers front ++ taskBuffers back :=
  List.filterMap_append

@[simp] theorem taskBuffers_task (event : Event) (connection buffer : Nat)
    (rest : List QueueItem) :
    taskBuffers (.task event connection buffer :: rest) = buffer :: taskBuffers rest := rfl

theorem taskBuffers_other {item : QueueItem} (other : taskBuffer item = none)
    (rest : List QueueItem) : taskBuffers (item :: rest) = taskBuffers rest :=
  List.filterMap_cons_none other

@[simp] theorem ReadHandler.buffers_copying (connection buffer : Nat) :
    (copying connection buffer).buffers = [buffer] := rfl

@[simp] theorem WorkerThread.buffers_processing (connection buffer : Nat) :
    (processing connection buffer).buffers = [buffer] := rfl

@[simp] theorem WorkerThread.buffers_removing (connection visited : Nat) :
    (removing connection visited).buffers = [] := rfl

theorem taskBuffers_eraseIdx {items : List QueueItem} {visited connection buffer : Nat}
    {event : Event} (found : items[visited]? = some (.task event connection buffer)) :
    (taskBuffers items).Perm (buffer :: taskBuffers (items.eraseIdx visited)) := by
  obtain ⟨within, same⟩ := List.getElem?_eq_some_iff.mp found
  have moved := (List.getElem_cons_eraseIdx_perm within).symm.filterMap taskBuffer
  rw [same] at moved
  exact moved

/-! ## What a step does to buffers -/

/-- The worker's queue keeps its items, gets one, or loses one: the first, or a task that
`RemoveAll` unlinks. The worker leaves with EXIT only. -/
inductive QueueMoves (before after : TaskSystem) : Prop where
  | kept (items : after.queue.items = before.queue.items)
      (exit : after.queue.exit = before.queue.exit)
      (worker : after.worker = .exiting ↔ before.worker = .exiting)
  | sent (item : QueueItem) (unended : before.queue.exit = false)
      (items : after.queue.items = before.queue.items ++ [item])
      (exit : after.queue.exit = decide (item = .exit)) (worker : after.worker = before.worker)
  | lost (item : QueueItem) (place : Nat) (found : before.queue.items[place]? = some item)
      (items : after.queue.items = before.queue.items.eraseIdx place)
      (exit : after.queue.exit = before.queue.exit) (first : item = .exit → place = 0)
      (worker : after.worker = .exiting ↔ item = .exit) (running : before.worker ≠ .exiting)

/-- The pool hands out the buffers `took`, gets back `gave` and makes `made`. -/
structure Moves (before after : TaskSystem) (took gave made : List Nat) : Prop where
  queue : QueueMoves before after
  pool : (after.pool.items ++ took).Perm (before.pool.items ++ gave ++ made)
  inUse : (after.inUse ++ gave).Perm (before.inUse ++ took)
  taken : after.taken = before.taken ++ took
  released : after.released = before.released ++ gave
  created : List.range after.created = List.range before.created ++ made
  endless : after.pool.exit = before.pool.exit

namespace Moves

variable {before after : TaskSystem}

theorem quiet (queue : QueueMoves before after) (pool : after.pool.items = before.pool.items)
    (endless : after.pool.exit = before.pool.exit) (inUse : after.inUse.Perm before.inUse)
    (taken : after.taken = before.taken) (released : after.released = before.released)
    (created : after.created = before.created) : Moves before after [] [] [] := by
  constructor
  · exact queue
  all_goals simp [pool, endless, inUse, taken, released, created]

end Moves

namespace TaskSystem

variable {state : TaskSystem}

theorem release_pool (endless : state.pool.exit = false) (buffer : Nat) :
    (state.release buffer).pool = { state.pool with items := state.pool.items ++ [buffer] } := by
  rw [release, Fifo.push_open endless]

theorem release_moves (endless : state.pool.exit = false) {buffer : Nat} {after : TaskSystem}
    (queue : QueueMoves state after) (pool : after.pool = (state.release buffer).pool)
    (inUse : (after.inUse ++ [buffer]).Perm state.inUse) (taken : after.taken = state.taken)
    (released : after.released = state.released ++ [buffer])
    (created : after.created = state.created) : Moves state after [] [buffer] [] := by
  rw [release_pool endless] at pool
  constructor
  · exact queue
  all_goals simp [pool, inUse, taken, released, created]

theorem takeBuffer_moves {connection : Nat} {missed : Option ReadHandler} {after : TaskSystem}
    (empty : state.handler.buffers = []) (quiet : ∀ handler ∈ missed, handler.buffers = [])
    (step : state.takeBuffer connection missed = some after) :
    ∃ took, Moves state after took [] [] := by
  have attempted := state.pool.dequeue_attempted false
  unfold takeBuffer at step
  split at step
  · next buffer pool found =>
      rw [found] at attempted
      obtain ⟨items, endless, _⟩ := attempted
      cases step
      refine ⟨[buffer], .kept rfl rfl Iff.rfl, ?_, ?_, rfl, by simp, by simp, endless⟩
      · simp [items]
      · simp only [inUse, ReadHandler.buffers_copying, empty, List.nil_append, List.append_nil,
          List.cons_append]
        exact (List.perm_append_singleton buffer _).symm
  · next attempt pool missed' found =>
      have nothing : ∀ item, attempt ≠ .taken item := by
        intro item same
        exact missed' item (by rw [← same])
      obtain ⟨items, endless, _⟩ := Fifo.dequeue_missed found nothing
      obtain ⟨handler, moved, rfl⟩ := Option.map_eq_some_iff.mp step
      refine ⟨[], Moves.quiet (.kept rfl rfl Iff.rfl) items endless ?_ rfl rfl rfl⟩
      simp [inUse, quiet handler moved, empty]

theorem afterDequeue_moves {attempt : Fifo.Attempt QueueItem} {queue : Fifo QueueItem}
    (empty : state.worker.buffers = []) (running : state.worker ≠ .exiting)
    (attempted : Fifo.Attempted state.queue attempt queue) :
    Moves state (state.afterDequeue (attempt, queue)) [] [] [] := by
  have idle {worker : WorkerThread} (none : worker.buffers = [])
      (same : taskBuffers queue.items = taskBuffers state.queue.items)
      (effect : QueueMoves state { state with queue, worker }) :
      Moves state { state with queue, worker } [] [] [] :=
    Moves.quiet effect rfl rfl (by simp [inUse, none, empty, same]) rfl rfl rfl
  cases attempt with
  | blocked =>
      obtain ⟨rfl, _, _⟩ := attempted
      exact idle rfl rfl (.kept rfl rfl (by simp [running]))
  | nothing =>
      obtain ⟨rfl, _⟩ := attempted
      exact idle rfl rfl (.kept rfl rfl (by simp [running]))
  | drained =>
      obtain ⟨_, rfl⟩ := attempted
      exact idle rfl rfl (.kept rfl rfl (by simp [running]))
  | taken item =>
      obtain ⟨items, exit, _⟩ := attempted
      have lost {worker : WorkerThread} (leaves : worker = .exiting ↔ item = .exit) :
          QueueMoves state { state with queue, worker } :=
        .lost item 0 (by simp [items]) (by simp [items]) exit (fun _ => rfl) leaves running
      cases item with
      | task event connection buffer =>
          refine Moves.quiet (lost (by simp)) rfl rfl ?_ rfl rfl rfl
          simp only [afterDequeue, inUse, items, WorkerThread.buffers_processing, empty,
            taskBuffers_task, List.append_nil, List.append_assoc]
          exact (List.perm_append_singleton buffer _).append_left _
      | undefined | event | data | exit =>
          exact idle rfl (by rw [items, taskBuffers_other rfl]) (lost (by simp))

theorem send_moves {item : QueueItem} {accepted : Bool} {after : TaskSystem}
    (step : state.send item = some (accepted, after)) :
    ∃ queue, after = { state with queue } ∧
      ((accepted = true ∧ state.queue.exit = false ∧
          queue.items = state.queue.items ++ [item] ∧ queue.exit = decide (item = .exit)) ∨
        (accepted = false ∧ state.queue.exit = true ∧ queue = state.queue)) := by
  unfold send at step
  split at step
  · cases step
  · cases exit : state.queue.exit with
    | true =>
        simp only [Fifo.enqueue, exit, if_true, Option.some.injEq, Prod.mk.injEq] at step
        obtain ⟨rfl, rfl⟩ := step
        exact ⟨_, rfl, .inr ⟨rfl, rfl, rfl⟩⟩
    | false =>
        simp only [Fifo.enqueue, exit, Bool.false_eq_true, if_false, Option.some.injEq,
          Prod.mk.injEq] at step
        obtain ⟨rfl, rfl⟩ := step
        exact ⟨_, rfl, .inl ⟨rfl, rfl, rfl, rfl⟩⟩

theorem send_other_moves {item : QueueItem} (other : taskBuffer item = none)
    {accepted : Bool} {after : TaskSystem} (step : state.send item = some (accepted, after)) :
    Moves state after [] [] [] := by
  obtain ⟨queue, rfl, result⟩ := send_moves step
  rcases result with ⟨_, unended, items, exit⟩ | ⟨_, _, rfl⟩
  · refine Moves.quiet (.sent item unended items exit rfl) rfl rfl ?_ rfl rfl rfl
    simp [inUse, items, taskBuffers_other other, show taskBuffers [] = [] from rfl]
  · exact Moves.quiet (.kept rfl rfl Iff.rfl) rfl rfl (List.Perm.refl _) rfl rfl rfl

theorem removeNext_moves (endless : state.pool.exit = false) {connection visited : Nat}
    (removing : state.worker = .removing connection visited) :
    ∃ gave, Moves state (state.removeNext connection visited) [] gave [] := by
  have passed {worker : WorkerThread} (none : worker.buffers = []) (stays : worker ≠ .exiting) :
      Moves state { state with worker } [] [] [] :=
    Moves.quiet (.kept rfl rfl (by simp [removing, stays])) rfl rfl (by simp [inUse, none, removing])
      rfl rfl rfl
  unfold removeNext
  split
  · exact ⟨[], passed rfl (by simp)⟩
  · next event owner buffer found =>
      split
      · have lost : QueueMoves state { state.release buffer with
            queue := { state.queue with items := state.queue.items.eraseIdx visited } } :=
          .lost _ visited found rfl rfl (by simp) (by simp [release, removing]) (by simp [removing])
        refine ⟨[buffer], release_moves endless lost rfl ?_ rfl rfl rfl⟩
        have erased := taskBuffers_eraseIdx found
        simp only [inUse, release, removing, WorkerThread.buffers_removing, List.append_nil,
          List.append_assoc]
        refine List.Perm.append_left _ ?_
        exact (List.perm_append_singleton buffer _).trans erased.symm
      · exact ⟨[], passed rfl (by simp)⟩
  · exact ⟨[], passed rfl (by simp)⟩

end TaskSystem

open TaskSystem in
theorem taskStep_moves {before after : TaskSystem} {action : TaskAction}
    (endless : before.pool.exit = false) (step : TaskStep before action after) :
    ∃ took gave made, Moves before after took gave made := by
  have quiet {handler : ReadHandler} {worker : WorkerThread} {states : Nat → ConnectionState}
      (handled : handler.buffers = before.handler.buffers)
      (worked : worker.buffers = before.worker.buffers)
      (leaves : worker = .exiting ↔ before.worker = .exiting) :
      Moves before { before with handler, worker, states } [] [] [] :=
    Moves.quiet (.kept rfl rfl leaves) rfl rfl (by simp [inUse, handled, worked]) rfl rfl rfl
  unfold TaskStep taskStep at step
  cases action with
  | inbound connection =>
      cases at_ : before.handler <;> simp only [at_, reduceCtorEq] at step
      split at step
      · cases step
        exact ⟨_, _, _, quiet rfl rfl Iff.rfl⟩
      · cases step
        exact ⟨_, _, _, quiet (by rw [at_]; rfl) rfl Iff.rfl⟩
  | allocate =>
      cases at_ : before.handler <;> simp only [at_, reduceCtorEq] at step
      obtain ⟨took, moves⟩ := takeBuffer_moves (by rw [at_]; rfl) (by simp [ReadHandler.buffers]) step
      exact ⟨took, _, _, moves⟩
  | make granted =>
      cases at_ : before.handler with
      | growing connection left =>
          cases left with
          | zero =>
              simp only [at_, Option.some.injEq] at step
              subst step
              exact ⟨_, _, _, quiet (by rw [at_]; rfl) rfl Iff.rfl⟩
          | succ left =>
              simp only [at_] at step
              split at step
              · cases step
                refine ⟨[], [], [before.created], .kept rfl rfl Iff.rfl, ?_, ?_, by simp, by simp, List.range_succ, ?_⟩
                · simp [Fifo.push_open endless]
                · simp [inUse, at_, ReadHandler.buffers]
                · simp [Fifo.push_open endless]
              · cases step
                exact ⟨_, _, _, quiet (by rw [at_]; rfl) rfl Iff.rfl⟩
      | idle | allocating | retrying | copying | refused => simp [at_] at step
  | retry =>
      cases at_ : before.handler <;> simp only [at_, reduceCtorEq] at step
      obtain ⟨took, moves⟩ := takeBuffer_moves (by rw [at_]; rfl) (by simp) step
      exact ⟨took, _, _, moves⟩
  | enqueue =>
      cases at_ : before.handler with
      | copying connection buffer =>
          simp only [at_, Option.bind_eq_bind, Option.bind_eq_some_iff, Prod.exists] at step
          obtain ⟨accepted, middle, sent, step⟩ := step
          obtain ⟨queue, rfl, result⟩ := send_moves sent
          refine ⟨[], [], [], ?_⟩
          rcases result with ⟨rfl, unended, items, exit⟩ | ⟨rfl, _, rfl⟩
          · simp only [Option.pure_def, Option.some.injEq] at step
            subst step
            refine Moves.quiet (.sent _ unended items exit rfl) rfl rfl ?_ rfl rfl rfl
            simp only [inUse, items, at_, ReadHandler.buffers, taskBuffers_append, taskBuffers_task,
              show taskBuffers [] = [] from rfl, List.nil_append]
            exact (List.perm_append_comm).append_right _
          · simp only [Option.pure_def, Option.some.injEq] at step
            subst step
            exact quiet (by rw [at_]; rfl) rfl Iff.rfl
      | idle | allocating | growing | retrying | refused => simp [at_] at step
  | giveBack =>
      cases at_ : before.handler <;> simp only [at_, reduceCtorEq, Option.some.injEq] at step
      subst step
      refine ⟨_, _, _, release_moves endless (.kept rfl rfl Iff.rfl) rfl ?_ rfl rfl rfl⟩
      simp only [inUse, at_, ReadHandler.buffers, release, List.nil_append]
      exact List.perm_append_comm
  | dequeue =>
      cases at_ : before.worker <;> simp only [at_, reduceCtorEq, Option.some.injEq] at step
      subst step
      exact ⟨_, _, _, afterDequeue_moves (by rw [at_]; rfl) (by simp [at_])
        (before.queue.dequeue_attempted true)⟩
  | wake notified =>
      cases at_ : before.worker <;> simp only [at_, reduceCtorEq, Option.some.injEq] at step
      subst step
      exact ⟨_, _, _, afterDequeue_moves (by rw [at_]; rfl) (by simp [at_])
        (before.queue.resume_attempted notified)⟩
  | processed =>
      cases at_ : before.worker <;> simp only [at_, reduceCtorEq, Option.some.injEq] at step
      subst step
      refine ⟨_, _, _, release_moves endless (.kept rfl rfl (by simp [at_])) rfl ?_ rfl rfl rfl⟩
      simp [inUse, at_, WorkerThread.buffers, release]
  | removeAll =>
      cases at_ : before.worker <;> simp only [at_, reduceCtorEq, Option.some.injEq] at step
      subst step
      exact ⟨_, _, _, quiet rfl (by rw [at_]; rfl) (by simp [at_])⟩
  | remove =>
      cases at_ : before.worker <;> simp only [at_, reduceCtorEq, Option.some.injEq] at step
      subst step
      obtain ⟨gave, moves⟩ := removeNext_moves endless at_
      exact ⟨_, gave, _, moves⟩
  | close connection =>
      obtain ⟨⟨accepted, after⟩, sent, rfl⟩ := Option.map_eq_some_iff.mp step
      exact ⟨_, _, _, send_other_moves rfl sent⟩
  | exit =>
      obtain ⟨⟨accepted, after⟩, sent, rfl⟩ := Option.map_eq_some_iff.mp step
      exact ⟨_, _, _, send_other_moves rfl sent⟩
  | change connection new =>
      cases step
      exact ⟨_, _, _, quiet rfl rfl Iff.rfl⟩

/-! ## Whole runs -/

/-- EXIT is the last item, and nothing is left behind it when the worker has taken it. -/
structure TaskSystem.ExitLast (state : TaskSystem) : Prop where
  running : state.queue.exit = false → state.worker ≠ .exiting ∧ .exit ∉ state.queue.items
  requested : state.queue.exit = true → state.worker ≠ .exiting →
    ∃ front, state.queue.items = front ++ [.exit] ∧ .exit ∉ front
  ended : state.worker = .exiting → state.queue.items = []

theorem QueueMoves.exitLast {before after : TaskSystem} (moves : QueueMoves before after)
    (last : before.ExitLast) : after.ExitLast := by
  cases moves with
  | kept items exit worker =>
      constructor
      · rw [items, exit, Ne, worker]
        exact last.running
      · rw [items, exit, Ne, worker]
        exact last.requested
      · rw [items, worker]
        exact last.ended
  | sent item unended items exit worker =>
      obtain ⟨running, absent⟩ := last.running unended
      rw [← worker] at running
      refine ⟨fun open_ => ⟨running, ?_⟩, fun ended _ => ?_, fun exiting => absurd exiting running⟩
      · rw [exit, decide_eq_false_iff_not] at open_
        simp [items, absent, Ne.symm open_]
      · rw [exit, decide_eq_true_eq] at ended
        exact ⟨_, by rw [items, ended], absent⟩
  | lost item place found items exit first worker running =>
      have member : item ∈ before.queue.items := List.mem_of_getElem? found
      cases ended : before.queue.exit with
      | false =>
          obtain ⟨_, absent⟩ := last.running ended
          have other : item ≠ .exit := fun same => absent (same ▸ member)
          refine ⟨fun _ => ⟨by rw [Ne, worker]; exact other, ?_⟩, ?_, ?_⟩
          · rw [items]
            exact fun left => absent (List.mem_of_mem_eraseIdx left)
          · rw [exit, ended]
            simp
          · intro exiting
            exact absurd (worker.mp exiting) other
      | true =>
          obtain ⟨front, split, absent⟩ := last.requested ended running
          refine ⟨by simp [exit, ended], fun _ stays => ?_, fun exiting => ?_⟩
          · -- a task in front of EXIT is gone
            have other : item ≠ .exit := fun same => stays (worker.mpr same)
            rw [split] at found
            have within : place < front.length := by
              by_contra beyond
              rw [List.getElem?_append_right (Nat.le_of_not_lt beyond)] at found
              exact other (List.mem_singleton.mp (List.mem_of_getElem? found))
            refine ⟨front.eraseIdx place, ?_, fun left => absent (List.mem_of_mem_eraseIdx left)⟩
            rw [items, split, List.eraseIdx_append_of_lt_length within]
          · have same := worker.mp exiting
            subst same
            rw [first rfl] at found items
            rw [items, split]
            rw [split] at found
            cases front with
            | nil => rfl
            | cons other rest =>
                have same : other = .exit := by simpa using found
                exact absurd (same ▸ List.mem_cons_self) absent

/-- Each buffer made is in the pool or in use, and was given back once less than handed
out exactly where it is in use. -/
structure TaskSystem.Owned (state : TaskSystem) : Prop where
  endless : state.pool.exit = false
  places : (state.pool.items ++ state.inUse).Perm (List.range state.created)
  balance : state.taken.Perm (state.released ++ state.inUse)
  exitLast : state.ExitLast

theorem TaskSystem.Owned.step {before after : TaskSystem} {action : TaskAction}
    (owned : before.Owned) (step : TaskStep before action after) : after.Owned := by
  obtain ⟨took, gave, made, moves⟩ := taskStep_moves owned.endless step
  refine ⟨moves.endless.trans owned.endless, ?_, ?_, moves.queue.exitLast owned.exitLast⟩
  · rw [List.perm_iff_count]
    intro buffer
    have pool := moves.pool.count_eq buffer
    have inUse := moves.inUse.count_eq buffer
    have places := owned.places.count_eq buffer
    rw [moves.created]
    simp only [List.count_append] at pool inUse places ⊢
    omega
  · rw [List.perm_iff_count]
    intro buffer
    have inUse := moves.inUse.count_eq buffer
    have balance := owned.balance.count_eq buffer
    rw [moves.taken, moves.released]
    simp only [List.count_append] at inUse balance ⊢
    omega

theorem newTaskSystem_sound {made batch : Nat} {states : Nat → ConnectionState}
    {actions : List TaskAction} {state : TaskSystem}
    (run : Run TaskStep (newTaskSystem made batch states) actions state) : state.Owned := by
  apply run.keeps fun _ _ _ owned step => owned.step step
  refine ⟨rfl, ?_, List.Perm.refl _, fun _ => ⟨?_, ?_⟩, ?_, fun _ => rfl⟩
  · simp [newTaskSystem, TaskSystem.inUse, ReadHandler.buffers, WorkerThread.buffers, taskBuffers,
      Fifo.empty]
  · simp [newTaskSystem]
  · simp [newTaskSystem, Fifo.empty]
  · simp [newTaskSystem, Fifo.empty]

/-- Along every run each buffer that was made is in one place, and has come back once for
each time it was handed out, but for the time that it is in use. The worker leaves its
queue empty, and all buffers are back as soon as the handler of the reader has none. -/
theorem newTaskSystem_owned {made batch : Nat} {states : Nat → ConnectionState}
    {actions : List TaskAction} {state : TaskSystem}
    (run : Run TaskStep (newTaskSystem made batch states) actions state) :
    (∀ buffer,
      state.pool.items.count buffer + state.handler.buffers.count buffer +
        (taskBuffers state.queue.items).count buffer + state.worker.buffers.count buffer =
          (if buffer < state.created then 1 else 0) ∧
      state.taken.count buffer = state.released.count buffer +
        (state.handler.buffers.count buffer + (taskBuffers state.queue.items).count buffer +
          state.worker.buffers.count buffer)) ∧
    (state.worker = .exiting → state.queue.items = [] ∧
      (state.handler.buffers = [] → state.pool.items.Perm (List.range state.created) ∧
        state.released.Perm state.taken)) := by
  have owned := newTaskSystem_sound run
  refine ⟨fun buffer => ⟨?_, ?_⟩, fun exiting => ⟨owned.exitLast.ended exiting, fun free => ?_⟩⟩
  · have places := owned.places.count_eq buffer
    rw [List.count_range] at places
    simpa only [TaskSystem.inUse, List.count_append, Nat.add_assoc] using places
  · simpa only [TaskSystem.inUse, List.count_append] using owned.balance.count_eq buffer
  · have none : state.inUse = [] := by
      simp [TaskSystem.inUse, free, owned.exitLast.ended exiting, exiting, WorkerThread.buffers,
        taskBuffers]
    have places := owned.places
    have balance := owned.balance
    rw [none, List.append_nil] at places balance
    exact ⟨places, balance.symm⟩

/-- One buffer is processed, one removed at the close of its connection, and one refused. -/
def threeReturns : List TaskAction :=
  [.inbound 0, .allocate, .enqueue, .close 1, .inbound 1, .allocate, .make true, .make true,
    .retry, .enqueue, .dequeue, .processed, .dequeue, .removeAll, .remove, .remove, .inbound 0,
    .allocate, .make false, .retry, .exit, .enqueue, .giveBack, .dequeue]

theorem newTaskSystem_owned_three_ways :
    ∃ state, Run TaskStep (newTaskSystem 1 1 fun _ => .connected) threeReturns state ∧
      (state.worker = .exiting ∧ state.released = [0, 1, 0]) ∧
      (∀ buffer,
        state.pool.items.count buffer + state.handler.buffers.count buffer +
          (taskBuffers state.queue.items).count buffer + state.worker.buffers.count buffer =
            (if buffer < state.created then 1 else 0) ∧
        state.taken.count buffer = state.released.count buffer +
          (state.handler.buffers.count buffer + (taskBuffers state.queue.items).count buffer +
            state.worker.buffers.count buffer)) ∧
      (state.worker = .exiting → state.queue.items = [] ∧
        (state.handler.buffers = [] → state.pool.items.Perm (List.range state.created) ∧
          state.released.Perm state.taken)) := by
  obtain ⟨state, reached, run⟩ := exists_run_of_execute TaskStep taskStep
    (newTaskSystem 1 1 fun _ => .connected) threeReturns (fun _ _ _ taken => taken) (by decide +kernel)
  have ends : (execute taskStep (newTaskSystem 1 1 fun _ => .connected) threeReturns).map
      (fun state => decide (state.worker = .exiting ∧ state.released = [0, 1, 0])) = some true := by
    decide +kernel
  rw [reached, Option.map_some, Option.some.injEq] at ends
  exact ⟨state, run, of_decide_eq_true ends, newTaskSystem_owned run⟩

end Aio4c
