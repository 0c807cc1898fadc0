import Aio4c.QueueWaiting

/-! The reader's queue and the wake-up pipe of its selector. Producers enqueue an
item and then wake the reader up; the reader drains its queue without waiting and
then blocks in `Select`. A wake-up is split between the poll of the pipe and the
write, so that other steps can come between them. -/

set_option autoImplicit false

namespace Aio4c

open TransitionSystem

/-- Where a producer is: outside, in front of the poll of `SelectorWakeUp`, or behind
one that found the pipe writable. `accepted` says whether the queue took its item. -/
inductive ProducerPoint where
  | idle
  | waking (accepted : Bool)
  | polled (accepted : Bool)
  deriving DecidableEq, Repr

/-- Where the reader is: in the loop over its queue, in `Select`, or ended by EXIT. -/
inductive ReaderPhase where
  | draining
  | selecting
  | exited
  deriving DecidableEq, Repr

/-- How `Select` ends: by an error of `poll`, or with ready descriptors, among which
there may be sockets. -/
inductive SelectOutcome where
  | error
  | ready (sockets : Bool)
  deriving DecidableEq, Repr

/-- `pipe` is the number of bytes in the pipe. -/
structure WakeUps where
  queue : Queue
  pipe : Nat
  reader : ReaderPhase
  producers : Nat → ProducerPoint

def newWakeUps : WakeUps :=
  { queue := newQueue, pipe := 0, reader := .draining, producers := fun _ => .idle }

/-- A producer whose item is refused may call `SelectorWakeUp` all the same, as
`ReaderEnd` does: `insists`. -/
inductive WakeUpAction where
  | enqueue (producer : Nat) (item : QueueItem) (insists : Bool)
  | poll (producer : Nat) (writable : Bool)
  | write (producer : Nat)
  | dequeue (item : QueueItem)
  | select (outcome : SelectOutcome)
  deriving DecidableEq, Repr

def WakeUps.moveProducer (state : WakeUps) (producer : Nat) (point : ProducerPoint) : WakeUps :=
  { state with producers := Function.update state.producers producer point }

/-- The reader behind one `Dequeue` of its loop. -/
def WakeUps.afterDequeue (state : WakeUps) : Dequeued × Queue → Option WakeUps
  | (.waiting, _) => none
  | (.returned true .exit, queue) => some { state with queue, reader := .exited }
  | (.returned true _, queue) => some { state with queue }
  | (.returned false _, queue) => some { state with queue, reader := .selecting }

/-- One step, with a pipe that holds at most `capacity` bytes. A pipe that is not
writable holds a byte. The write does not block: into a full pipe it fails, and the
producer returns without its wake-up. -/
def wakeUpStep (capacity : Nat) (state : WakeUps) : WakeUpAction → Option WakeUps
  | .enqueue producer item insists =>
      match state.producers producer with
      | .idle => do
          let (accepted, queue) ← enqueue state.queue item
          pure ({ state with queue }.moveProducer producer
            (if accepted || insists then .waking accepted else .idle))
      | _ => none
  | .poll producer writable =>
      match state.producers producer with
      | .waking accepted =>
          if writable then
            if state.pipe < capacity then some (state.moveProducer producer (.polled accepted))
            else none
          else if 0 < state.pipe then some (state.moveProducer producer .idle) else none
      | _ => none
  | .write producer =>
      match state.producers producer with
      | .polled _ =>
          if state.pipe < capacity then
            some ({ state with pipe := state.pipe + 1 }.moveProducer producer .idle)
          -- other producers filled the pipe behind the poll
          else some (state.moveProducer producer .idle)
      | _ => none
  | .dequeue item =>
      match state.reader with
      | .draining => (dequeue state.queue item false).bind state.afterDequeue
      | _ => none
  | .select outcome =>
      match state.reader, outcome with
      | .selecting, .error => some { state with reader := .draining }
      | .selecting, .ready sockets =>
          if 0 < state.pipe ∨ sockets then
            some { state with pipe := state.pipe - 1, reader := .draining }
          else none
      | _, _ => none

def WakeUpStep (capacity : Nat) (before : WakeUps) (action : WakeUpAction) (after : WakeUps) :
    Prop :=
  wakeUpStep capacity before action = some after

/-! ## No wake-up is lost -/

/-- The producer has enqueued and not performed its wake-up yet. -/
def ProducerPoint.Owes (point : ProducerPoint) : Prop :=
  point = .waking true ∨ point = .polled true

/-- Items are left only while a byte is in the pipe, a producer owes its wake-up, or
the reader is still to look at its queue. -/
structure WakeUps.Sound (state : WakeUps) (fifo : Fifo QueueItem) : Prop where
  represents : ∃ busy free, state.queue.Represents busy free fifo
  covered : fifo.items ≠ [] → 0 < state.pipe ∨ (∃ producer, (state.producers producer).Owes) ∨
    (state.reader = .draining ∧ fifo.emptied = false) ∨ state.reader = .exited
  unmarked : state.reader = .selecting → fifo.emptied = false

theorem newWakeUps_sound : newWakeUps.Sound Fifo.empty where
  represents := ⟨[], [], newQueue_represents⟩
  covered nonempty := absurd rfl nonempty
  unmarked _ := rfl

attribute [local simp] wakeUpStep WakeUpStep

namespace WakeUps.Sound

variable {capacity : Nat} {state after : WakeUps} {fifo : Fifo QueueItem}

/-- A producer that owes nothing can move without harm. -/
theorem owes_update {producers : Nat → ProducerPoint} {producer : Nat} {point : ProducerPoint}
    (free : (producers producer).Owes → point.Owes) (owes : ∃ other, (producers other).Owes) :
    ∃ other, (Function.update producers producer point other).Owes := by
  obtain ⟨other, owes⟩ := owes
  by_cases same : other = producer
  · cases same
    exact ⟨producer, by simpa only [Function.update_self] using free owes⟩
  · exact ⟨other, by simpa only [Function.update_of_ne same] using owes⟩

theorem enqueue (sound : state.Sound fifo) {producer : Nat} {item : QueueItem} {insists : Bool}
    (step : WakeUpStep capacity state (.enqueue producer item insists) after) :
    ∃ fifo', after.Sound fifo' := by
  obtain ⟨busy, free, represents⟩ := sound.represents
  cases place : state.producers producer with
  | waking accepted => simp [WakeUpStep, wakeUpStep, place] at step
  | polled accepted => simp [WakeUpStep, wakeUpStep, place] at step
  | idle =>
      cases closed : fifo.exit with
      | true =>
          have refused : Aio4c.enqueue state.queue item = some (false, state.queue) := by
            rw [Aio4c.enqueue, represents.exit, closed, if_pos rfl]
          simp only [WakeUpStep, wakeUpStep, place, refused, Option.bind_eq_bind,
            Option.bind_some, Option.pure_def, Option.some.injEq] at step
          subst step
          refine ⟨fifo, sound.represents, fun nonempty => ?_, sound.unmarked⟩
          rcases sound.covered nonempty with byte | owes | rest
          · exact .inl byte
          · right
            left
            apply owes_update _ owes
            intro owed
            rw [place] at owed
            simp [ProducerPoint.Owes] at owed
          · exact .inr (.inr rest)
      | false =>
          obtain ⟨queue, busy', free', result, represents', _⟩ :=
            represents.enqueue_ok closed item
          simp only [WakeUpStep, wakeUpStep, place, result, Option.bind_eq_bind,
            Option.bind_some, Option.pure_def, Option.some.injEq, Bool.true_or, if_true] at step
          subst step
          refine ⟨_, ⟨busy', free', represents'⟩, fun _ => ?_, sound.unmarked⟩
          right
          left
          exact ⟨producer, by simp [moveProducer, ProducerPoint.Owes]⟩

theorem poll (sound : state.Sound fifo) {producer : Nat} {writable : Bool}
    (step : WakeUpStep capacity state (.poll producer writable) after) : after.Sound fifo := by
  cases place : state.producers producer with
  | idle => simp [WakeUpStep, wakeUpStep, place] at step
  | polled accepted => simp [WakeUpStep, wakeUpStep, place] at step
  | waking accepted =>
      simp only [WakeUpStep, wakeUpStep, place] at step
      cases writable with
      | true =>
          simp only [if_true, Option.ite_none_right_eq_some, Option.some.injEq] at step
          obtain ⟨_, rfl⟩ := step
          refine ⟨sound.represents, fun nonempty => ?_, sound.unmarked⟩
          rcases sound.covered nonempty with byte | owes | rest
          · exact .inl byte
          · right
            left
            apply owes_update _ owes
            intro owed
            rw [place] at owed
            simpa [ProducerPoint.Owes] using owed
          · exact .inr (.inr rest)
      | false =>
          simp only [Bool.false_eq_true, if_false, Option.ite_none_right_eq_some,
            Option.some.injEq] at step
          obtain ⟨byte, rfl⟩ := step
          exact ⟨sound.represents, fun _ => .inl byte, sound.unmarked⟩

/-- Behind the write there is a byte in the pipe, also where it failed: a full pipe is not
empty. -/
theorem write (sound : state.Sound fifo) (room : 0 < capacity) {producer : Nat}
    (step : WakeUpStep capacity state (.write producer) after) : after.Sound fifo := by
  cases place : state.producers producer with
  | idle => simp [WakeUpStep, wakeUpStep, place] at step
  | waking accepted => simp [WakeUpStep, wakeUpStep, place] at step
  | polled accepted =>
      simp only [WakeUpStep, wakeUpStep, place] at step
      split at step
      · cases step
        exact ⟨sound.represents, fun _ => .inl (Nat.succ_pos _), sound.unmarked⟩
      · next full =>
        cases step
        have byte : 0 < state.pipe := by omega
        exact ⟨sound.represents, fun _ => .inl byte, sound.unmarked⟩

/-- The reader goes on to `Select` only from an empty queue, or past items whose
wake-ups are still to come. -/
theorem dequeue (sound : state.Sound fifo) {item : QueueItem}
    (step : WakeUpStep capacity state (.dequeue item) after) : ∃ fifo', after.Sound fifo' := by
  obtain ⟨busy, free, represents⟩ := sound.represents
  obtain ⟨queue, busy', free', result, represents', _⟩ := represents.dequeue_ok item false
  cases place : state.reader with
  | selecting => simp [WakeUpStep, wakeUpStep, place] at step
  | exited => simp [WakeUpStep, wakeUpStep, place] at step
  | draining =>
      simp only [WakeUpStep, wakeUpStep, place, result, Option.bind_some] at step
      have attempted := fifo.dequeue_attempted false
      cases attempt : (fifo.dequeue false).1 with
      | blocked => simp [attempt, dequeuedOf, afterDequeue] at step
      | taken taken =>
          rw [attempt] at attempted step
          obtain ⟨items, _, emptied⟩ := attempted
          have rest : (fifo.dequeue false).2.items ≠ [] →
              (fifo.dequeue false).2.emptied = false := by
            intro nonempty
            rw [emptied]
            exact List.isEmpty_eq_false_iff.mpr nonempty
          by_cases ends : taken = .exit
          · cases ends
            simp only [dequeuedOf, afterDequeue, Option.some.injEq] at step
            subst step
            exact ⟨_, ⟨_, _, represents'⟩, fun _ => .inr (.inr (.inr rfl)),
              fun selecting => by cases selecting⟩
          · have stays : after = { state with queue } := by
              cases taken with
              | exit => exact absurd rfl ends
              | undefined => simpa [dequeuedOf, afterDequeue] using step.symm
              | event type source => simpa [dequeuedOf, afterDequeue] using step.symm
              | data data => simpa [dequeuedOf, afterDequeue] using step.symm
              | task event connection buffer =>
                  simpa [dequeuedOf, afterDequeue] using step.symm
            subst stays
            refine ⟨_, ⟨_, _, represents'⟩, ?_, ?_⟩
            · intro nonempty
              exact .inr (.inr (.inl ⟨place, rest nonempty⟩))
            · intro selecting
              rw [place] at selecting
              cases selecting
      | nothing =>
          rw [attempt] at attempted step
          obtain ⟨same, empty⟩ := attempted
          simp only [dequeuedOf, afterDequeue, Option.some.injEq] at step
          subst step
          refine ⟨_, ⟨_, _, represents'⟩, ?_, ?_⟩
          · intro nonempty
            rw [same] at nonempty
            exact absurd empty nonempty
          · intro _
            exact (Fifo.dequeue_missed (Prod.ext attempt rfl) (by intro item; simp)).2.2
      | drained =>
          rw [attempt] at attempted step
          obtain ⟨marked, same⟩ := attempted
          simp only [dequeuedOf, afterDequeue, Option.some.injEq] at step
          subst step
          refine ⟨_, ⟨_, _, represents'⟩, ?_, ?_⟩
          · intro nonempty
            rw [same] at nonempty
            rcases sound.covered nonempty with byte | owes | ⟨_, unmarked⟩ | exited
            · exact .inl byte
            · exact .inr (.inl owes)
            · rw [marked] at unmarked
              cases unmarked
            · rw [place] at exited
              cases exited
          · intro _
            rw [same]

theorem select (sound : state.Sound fifo) {outcome : SelectOutcome}
    (step : WakeUpStep capacity state (.select outcome) after) : after.Sound fifo := by
  cases place : state.reader with
  | draining => simp [WakeUpStep, wakeUpStep, place] at step
  | exited => simp [WakeUpStep, wakeUpStep, place] at step
  | selecting =>
      have unmarked := sound.unmarked place
      cases outcome with
      | error =>
          simp only [WakeUpStep, wakeUpStep, place, Option.some.injEq] at step
          subst step
          exact ⟨sound.represents, fun _ => .inr (.inr (.inl ⟨rfl, unmarked⟩)),
            fun selecting => by cases selecting⟩
      | ready sockets =>
          simp only [WakeUpStep, wakeUpStep, place, Option.ite_none_right_eq_some,
            Option.some.injEq] at step
          obtain ⟨_, rfl⟩ := step
          exact ⟨sound.represents, fun _ => .inr (.inr (.inl ⟨rfl, unmarked⟩)),
            fun selecting => by cases selecting⟩

theorem step (sound : state.Sound fifo) (room : 0 < capacity) {action : WakeUpAction}
    (taken : WakeUpStep capacity state action after) : ∃ fifo', after.Sound fifo' := by
  cases action with
  | enqueue producer item insists => exact sound.enqueue taken
  | poll producer writable => exact ⟨fifo, sound.poll taken⟩
  | write producer => exact ⟨fifo, sound.write room taken⟩
  | dequeue item => exact sound.dequeue taken
  | select outcome => exact ⟨fifo, sound.select taken⟩

end WakeUps.Sound

/-- In every state that any producers and the reader reach from a new queue and an empty
pipe: a reader in `Select` with no byte in the pipe has an empty queue, or a producer has
enqueued and not performed its wake-up yet. -/
theorem newWakeUps_wakes {capacity : Nat} (room : 0 < capacity) {actions : List WakeUpAction}
    {state : WakeUps} (run : Run (WakeUpStep capacity) newWakeUps actions state)
    (selecting : state.reader = .selecting) (silent : state.pipe = 0) :
    busyItems state.queue = [] ∨ ∃ producer, (state.producers producer).Owes := by
  have sound : ∃ fifo, state.Sound fifo := by
    apply run.keeps
    · intro before action after holds taken
      obtain ⟨fifo, sound⟩ := holds
      exact sound.step room taken
    · exact ⟨_, newWakeUps_sound⟩
  obtain ⟨fifo, sound⟩ := sound
  obtain ⟨busy, free, represents⟩ := sound.represents
  rw [represents.busyItems_eq]
  by_cases empty : fifo.items = []
  · exact .inl empty
  · right
    rcases sound.covered empty with byte | owes | ⟨draining, _⟩ | exited
    · omega
    · exact owes
    · rw [selecting] at draining
      cases draining
    · rw [selecting] at exited
      cases exited

/-- The reader passes over an item because of the drained mark. Both producers poll the
pipe before either writes, so that the second write fails; the one byte makes the reader
take the item. -/
theorem newWakeUps_wakes_marked :
    ∃ state, execute (wakeUpStep 1) newWakeUps
        [.enqueue 0 (.data 1) false, .dequeue .undefined, .enqueue 1 (.data 2) false,
          .dequeue .undefined, .poll 0 true, .poll 1 true, .write 0, .write 1,
          .select (.ready false), .dequeue .undefined, .dequeue .undefined] = some state ∧
      (busyItems state.queue = [] ∨ ∃ producer, (state.producers producer).Owes) := by
  obtain ⟨state, runs, run⟩ := exists_run_of_execute (WakeUpStep 1) (wakeUpStep 1) newWakeUps
    [.enqueue 0 (.data 1) false, .dequeue .undefined, .enqueue 1 (.data 2) false,
      .dequeue .undefined, .poll 0 true, .poll 1 true, .write 0, .write 1,
      .select (.ready false), .dequeue .undefined, .dequeue .undefined]
    (fun _ _ _ taken => taken) (by decide)
  have place : (execute (wakeUpStep 1) newWakeUps
      [.enqueue 0 (.data 1) false, .dequeue .undefined, .enqueue 1 (.data 2) false,
        .dequeue .undefined, .poll 0 true, .poll 1 true, .write 0, .write 1,
        .select (.ready false), .dequeue .undefined, .dequeue .undefined]).map
          (fun state => (state.reader, state.pipe)) = some (.selecting, 0) := by decide
  rw [runs, Option.map_some, Option.some.injEq, Prod.mk.injEq] at place
  exact ⟨state, runs, newWakeUps_wakes (by decide) run place.1 place.2⟩

end Aio4c
