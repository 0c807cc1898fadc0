import Aio4c.Logger

/-! Every message is printed once. The logger's queue and what is printed are a ledger of
the threads' messages, and each step is one entry of the ledger or none; the phases of
the logger say when the line of the ledger is empty. -/

set_option autoImplicit false

namespace Aio4c

open TransitionSystem

namespace LogSystem

/-- The message that the logger thread is about to print. -/
def inHand (system : LogSystem) : List LogMessage :=
  match system.logger with
  | .printing _ message => [message]
  | _ => []

def queued (system : LogSystem) : List LogMessage :=
  (system.queue.elim [] Fifo.items).filterMap LogItem.message

def messages (system : LogSystem) : List LogMessage := system.printed.map Prod.fst

/-- The messages of the threads, printed or on their way to the logger thread. -/
def ledger (system : LogSystem) : Ledger Nat :=
  { made := fun thread => (system.callers thread).logged, delivered := system.messages
    line := system.inHand ++ system.queued, lined := system.enqueued }

end LogSystem

/-- The logger thread has not taken the exit item. -/
def LoggerPoint.Working (point : LoggerPoint) : Prop :=
  point = .initializing ∨ point = .dequeuing false ∨ point = .waiting false ∨
    ∃ message, point = .printing false message

/-- It has, and not yet freed the queue. -/
def LoggerPoint.Leaving (point : LoggerPoint) : Prop :=
  point = .stopping ∨ point = .dequeuing true ∨ point = .waiting true ∨ point = .closing ∨
    point = .freeing

/-- The phases of the logger: without a queue, with a queue and no thread yet, serving,
with the exit item behind the last message, behind that, and behind the queue. -/
inductive LogPhase (system : LogSystem) : Prop where
  | unmade (pointer : system.pointer = false) (queue : system.queue = none)
      (logger : system.logger = .absent)
      (place : system.init = .outside ∨ system.init = .handled ∨ system.init = .opened ∨
        system.init = .done)
      (ending : system.logEnd = .outside ∨ system.init = .done ∧ system.logEnd = .done)
  | made (queue : Fifo LogItem) (messages : List LogMessage) (pointer : system.pointer = true)
      (live : system.queue = some queue) (exit : queue.exit = false)
      (items : queue.items = messages.map .data) (logger : system.logger = .absent)
      (place : system.init = .queued ∨ system.init = .created) (ending : system.logEnd = .outside)
  | serving (queue : Fifo LogItem) (messages : List LogMessage) (pointer : system.pointer = true)
      (live : system.queue = some queue) (exit : queue.exit = false)
      (items : queue.items = messages.map .data) (working : system.logger.Working)
      (place : system.init = .starting ∨ system.init = .done)
      (ending : system.logEnd = .outside ∨ system.init = .done ∧ system.logEnd = .enqueuing)
  | ending (queue : Fifo LogItem) (messages : List LogMessage) (pointer : system.pointer = true)
      (live : system.queue = some queue) (exit : queue.exit = true)
      (items : queue.items = messages.map .data ++ [.exit]) (working : system.logger.Working)
      (place : system.init = .done) (ending : system.logEnd = .joining)
  | drained (queue : Fifo LogItem) (pointer : system.pointer = true)
      (live : system.queue = some queue) (exit : queue.exit = true) (items : queue.items = [])
      (leaving : system.logger.Leaving) (place : system.init = .done)
      (ending : system.logEnd = .joining ∨ system.logEnd = .done)
  | freed (queue : system.queue = none)
      (logger : system.logger = .clearing ∨ system.logger = .ended ∧ system.pointer = false)
      (place : system.init = .done) (ending : system.logEnd = .joining ∨ system.logEnd = .done)

/-- What keeps every message: the thread is created and started whenever the queue was
made, a message gets its memory, and no thread comes to `EnqueueDataItem` with a queue
that `_LogExit` freed behind its test, or prints by itself to the stream that it closed. -/
def LogAllowed (system : LogSystem) : LogAction → Prop
  | .newThread made => made = true
  | .threadStart created => created = true
  | .allocate _ granted => granted = true
  | .enqueue _ => system.queue.isSome = true
  | .print thread => system.closed.map .writing ≠ some (system.callers thread).call
  | _ => True

instance (system : LogSystem) : (action : LogAction) → Decidable (LogAllowed system action)
  | .newThread made => inferInstanceAs (Decidable (made = true))
  | .threadStart created => inferInstanceAs (Decidable (created = true))
  | .allocate _ granted => inferInstanceAs (Decidable (granted = true))
  | .enqueue _ => inferInstanceAs (Decidable (system.queue.isSome = true))
  | .print thread =>
      inferInstanceAs (Decidable (system.closed.map .writing ≠ some (system.callers thread).call))
  | .logInit | .openFile _ | .newQueue _ | .initReturns | .started | .dequeue | .wake _
  | .printNext | .stop | .closeFile | .freeQueue | .clearQueue | .logEnd | .enqueueExit
  | .join | .log _ | .test _ | .load _ | .choose _ => isTrue trivial

/-- No freed queue and no closed stream was used; no message was printed twice; behind
`LogEnd`, every message of a call that has returned was printed; and those of one thread
that went through the queue were printed in the order they were logged. -/
structure LogSystem.PrintedOnce (system : LogSystem) : Prop where
  sane : system.faulted = false
  atMostOnce : ∀ message, system.messages.count message ≤ 1
  printed : system.logEnd = .done → ∀ message : LogMessage,
    message.2 < (system.callers message.1).logged → system.messages.count message = 1
  ordered : ∀ thread, (((system.messages.filter fun message =>
    system.enqueued.contains message).filter fun message => message.1 = thread).map
      Prod.snd).Pairwise (· < ·)

/-! ## Steps -/

inductive LedgerStep (before : Ledger Nat) : Ledger Nat → Prop where
  | same : LedgerStep before before
  | deliver (thread : Nat) : LedgerStep before (before.deliver thread)
  | enqueue (thread : Nat) : LedgerStep before (before.enqueue thread)
  | serve : LedgerStep before before.serve

theorem LedgerStep.sound {before after : Ledger Nat} (step : LedgerStep before after)
    (sound : before.Sound) : after.Sound := by
  cases step with
  | same => exact sound
  | deliver thread => exact sound.deliver thread
  | enqueue thread => exact sound.enqueue thread
  | serve => exact sound.serve

section

variable {system after : LogSystem} {action : LogAction}

/-- A step of the logger: it keeps the phases, and is an entry of the ledger or none. -/
structure Logs (before after : LogSystem) : Prop where
  phase : LogPhase after
  entry : LedgerStep before.ledger after.ledger
  faulted : after.faulted = before.faulted

/-- Only `_LogExit` closes a stream, behind the last message that its thread prints. -/
def LogSystem.Unclosed (system : LogSystem) : Prop :=
  system.closed ≠ none →
    system.logger = .freeing ∨ system.logger = .clearing ∨ system.logger = .ended

theorem LogSystem.printMessage_open {log : LogFile} {message : LogMessage}
    (unclosed : system.closed ≠ some log) :
    system.printMessage log message =
      { system with printed := system.printed ++ [(message, log)] } :=
  if_neg unclosed

/-! ### LogInit -/

theorem LogPhase.unmade_of (phase : LogPhase system)
    (early : system.init = .outside ∨ system.init = .handled ∨ system.init = .opened) :
    system.pointer = false ∧ system.queue = none ∧ system.logger = .absent ∧
      system.logEnd = .outside := by
  cases phase with
  | unmade pointer queue logger place ending =>
      refine ⟨pointer, queue, logger, ending.resolve_right fun done => ?_⟩
      rcases early with here | here | here <;> simp [here] at done
  | made queue messages pointer live exit items logger place ending =>
      rcases early with here | here | here <;> simp [here] at place
  | serving queue messages pointer live exit items working place ending =>
      rcases early with here | here | here <;> simp [here] at place
  | ending queue messages pointer live exit items working place ending =>
      rcases early with here | here | here <;> simp [here] at place
  | drained queue pointer live exit items leaving place ending =>
      rcases early with here | here | here <;> simp [here] at place
  | freed queue logger place ending =>
      rcases early with here | here | here <;> simp [here] at place

theorem LogPhase.made_of (phase : LogPhase system)
    (here : system.init = .queued ∨ system.init = .created) :
    ∃ queue messages, system.pointer = true ∧ system.queue = some queue ∧ queue.exit = false ∧
      queue.items = List.map LogItem.data messages ∧ system.logger = .absent ∧
      system.logEnd = .outside := by
  cases phase with
  | made queue messages pointer live exit items logger place ending =>
      exact ⟨queue, messages, pointer, live, exit, items, logger, ending⟩
  | unmade pointer queue logger place ending =>
      rcases here with here | here <;> simp [here] at place
  | serving queue messages pointer live exit items working place ending =>
      rcases here with here | here <;> simp [here] at place
  | ending queue messages pointer live exit items working place ending =>
      rcases here with here | here <;> simp [here] at place
  | drained queue pointer live exit items leaving place ending =>
      rcases here with here | here <;> simp [here] at place
  | freed queue logger place ending =>
      rcases here with here | here <;> simp [here] at place

theorem initStep_logs (phase : LogPhase system) (allowed : LogAllowed system action)
    (step : system.initStep action = some after) : Logs system after := by
  cases action <;> simp only [LogSystem.initStep, reduceCtorEq, Option.ite_none_right_eq_some,
    Option.some.injEq] at step <;> obtain ⟨here, rfl⟩ := step
  case logInit =>
    obtain ⟨pointer, queue, logger, ending⟩ := phase.unmade_of (.inl here)
    exact ⟨.unmade pointer queue logger (.inr (.inl rfl)) (.inl ending), .same, rfl⟩
  case openFile opened =>
    obtain ⟨pointer, queue, logger, ending⟩ := phase.unmade_of (.inr (.inl here))
    exact ⟨.unmade pointer queue logger (.inr (.inr (.inl rfl))) (.inl ending), .same, rfl⟩
  case newQueue made =>
    obtain ⟨pointer, queue, logger, ending⟩ := phase.unmade_of (.inr (.inr here))
    cases made with
    | true =>
        have entry : LogSystem.ledger { system with
            pointer := true, queue := some Fifo.empty, init := .queued } = system.ledger := by
          simp [LogSystem.ledger, LogSystem.queued, queue, Fifo.empty, LogSystem.messages,
            LogSystem.inHand]
        exact ⟨.made Fifo.empty [] rfl rfl rfl rfl logger (.inl rfl) ending, entry ▸ .same, rfl⟩
    | false =>
        exact ⟨.unmade pointer queue logger (.inr (.inr (.inr rfl))) (.inl ending), .same, rfl⟩
  case newThread made =>
    obtain ⟨queue, messages, pointer, live, exit, items, logger, ending⟩ := phase.made_of (.inl here)
    cases show made = true from allowed
    exact ⟨.made queue messages pointer live exit items logger (.inr rfl) ending, .same, rfl⟩
  case threadStart created =>
    obtain ⟨queue, messages, pointer, live, exit, items, logger, ending⟩ := phase.made_of (.inr here)
    cases show created = true from allowed
    have entry : LogSystem.ledger { system with logger := .initializing, init := .starting } =
        system.ledger := by
      simp [LogSystem.ledger, LogSystem.queued, LogSystem.messages, LogSystem.inHand, logger]
    exact ⟨.serving queue messages pointer live exit items (.inl rfl) (.inl rfl) (.inl ending),
      entry ▸ .same, rfl⟩
  case started =>
    cases phase with
    | serving queue messages pointer live exit items working place ending =>
        refine ⟨.serving queue messages pointer live exit items working (.inr rfl)
          (ending.imp_right fun enqueuing => ⟨rfl, enqueuing.2⟩), .same, rfl⟩
    | unmade pointer queue logger place ending => simp [here.1] at place
    | made queue messages pointer live exit items logger place ending => simp [here.1] at place
    | ending queue messages pointer live exit items working place ending => simp [here.1] at place
    | drained queue pointer live exit items leaving place ending => simp [here.1] at place
    | freed queue logger place ending => simp [here.1] at place

/-! ### The logger thread -/

/-- An attempt to take an item moves the front of the line at most into the hand. -/
theorem afterDequeue_ledger {draining : Bool}
    (here : system.logger = .dequeuing draining ∨ system.logger = .waiting draining)
    {queue : Fifo LogItem} (live : system.queue = some queue)
    {attempt : Fifo.Attempt LogItem} {left : Fifo LogItem}
    (attempted : Fifo.Attempted queue attempt left) :
    (system.afterDequeue draining (attempt, left)).ledger = system.ledger := by
  have empty : system.inHand = [] := by
    rcases here with here | here <;> simp [LogSystem.inHand, here]
  have line : (system.afterDequeue draining (attempt, left)).inHand ++
      (system.afterDequeue draining (attempt, left)).queued =
        queue.items.filterMap LogItem.message := by
    cases attempt with
    | blocked =>
        obtain ⟨rfl, _⟩ := attempted
        simp [LogSystem.afterDequeue, LogSystem.inHand, LogSystem.queued]
    | taken item =>
        obtain ⟨items, _⟩ := attempted
        cases item with
        | data message =>
            simp [LogSystem.afterDequeue, LogSystem.inHand, LogSystem.queued, items]
        | exit =>
            cases draining <;> simp [LogSystem.afterDequeue, LogSystem.inHand, LogSystem.queued,
              items, List.filterMap_cons]
    | nothing =>
        obtain ⟨rfl, _⟩ := attempted
        cases draining <;> simp [LogSystem.afterDequeue, LogSystem.inHand, LogSystem.queued]
    | drained =>
        obtain ⟨_, rfl⟩ := attempted
        cases draining <;> simp [LogSystem.afterDequeue, LogSystem.inHand, LogSystem.queued]
  have before : system.inHand ++ system.queued = queue.items.filterMap LogItem.message := by
    simp [empty, LogSystem.queued, live]
  have rest : (system.afterDequeue draining (attempt, left)).callers = system.callers ∧
      (system.afterDequeue draining (attempt, left)).printed = system.printed ∧
      (system.afterDequeue draining (attempt, left)).enqueued = system.enqueued := by
    unfold LogSystem.afterDequeue
    split <;> exact ⟨rfl, rfl, rfl⟩
  simp only [LogSystem.ledger, LogSystem.messages, line, before, rest]

theorem LoggerPoint.Working.undrained {point : LoggerPoint} (working : point.Working)
    {draining : Bool} (here : point = .dequeuing draining ∨ point = .waiting draining) :
    draining = false := by
  rcases working with place | place | place | ⟨_, place⟩ <;> rcases here with here | here <;>
    simp_all

theorem LoggerPoint.Leaving.draining {point : LoggerPoint} (leaving : point.Leaving)
    {draining : Bool} (here : point = .dequeuing draining ∨ point = .waiting draining) :
    draining = true := by
  rcases leaving with place | place | place | place | place <;>
    rcases here with here | here <;> simp_all

/-- The logger thread behind an attempt, by its phase: the exit item is the last one, so
nothing is left when it was taken. -/
theorem afterDequeue_phase (phase : LogPhase system) {draining : Bool}
    (here : system.logger = .dequeuing draining ∨ system.logger = .waiting draining)
    {queue : Fifo LogItem} (live : system.queue = some queue)
    {attempt : Fifo.Attempt LogItem} {left : Fifo LogItem}
    (attempted : Fifo.Attempted queue attempt left) :
    LogPhase (system.afterDequeue draining (attempt, left)) := by
  cases phase with
  | serving own messages pointer live' exit items working place ending =>
      cases live.symm.trans live'
      cases working.undrained here
      cases attempt with
      | blocked =>
          obtain ⟨rfl, _⟩ := attempted
          exact .serving left messages pointer rfl exit items (.inr (.inr (.inl rfl))) place ending
      | taken item =>
          obtain ⟨taken, same, _⟩ := attempted
          obtain ⟨first, rest, rfl, rfl, remaining⟩ := List.map_eq_cons_iff.mp (items.symm.trans taken)
          exact .serving left rest pointer rfl (same.trans exit) remaining.symm
            (.inr (.inr (.inr ⟨first, rfl⟩))) place ending
      | nothing =>
          obtain ⟨rfl, _⟩ := attempted
          exact .serving left messages pointer rfl exit items (.inr (.inl rfl)) place ending
      | drained =>
          obtain ⟨_, rfl⟩ := attempted
          exact .serving _ messages pointer rfl exit items (.inr (.inl rfl)) place ending
  | ending own messages pointer live' exit items working place ending =>
      cases live.symm.trans live'
      cases working.undrained here
      cases attempt with
      | blocked =>
          obtain ⟨_, _, endless⟩ := attempted
          rw [exit] at endless
          cases endless
      | taken item =>
          obtain ⟨taken, same, _⟩ := attempted
          cases messages with
          | nil =>
              obtain ⟨rfl, remaining⟩ := List.cons.inj (taken.symm.trans items)
              exact .drained left pointer rfl (same.trans exit) remaining (.inl rfl) place
                (.inl ending)
          | cons first rest =>
              obtain ⟨rfl, remaining⟩ := List.cons.inj (taken.symm.trans items)
              exact .ending left rest pointer rfl (same.trans exit) remaining
                (.inr (.inr (.inr ⟨first, rfl⟩))) place ending
      | nothing =>
          obtain ⟨_, empty⟩ := attempted
          simp [items] at empty
      | drained =>
          obtain ⟨_, rfl⟩ := attempted
          exact .ending _ messages pointer rfl exit items (.inr (.inl rfl)) place ending
  | drained own pointer live' exit items leaving place ending =>
      cases live.symm.trans live'
      cases leaving.draining here
      cases attempt with
      | blocked =>
          obtain ⟨_, _, endless⟩ := attempted
          rw [exit] at endless
          cases endless
      | taken item =>
          obtain ⟨taken, _⟩ := attempted
          rw [items] at taken
          cases taken
      | nothing =>
          obtain ⟨rfl, _⟩ := attempted
          exact .drained left pointer rfl exit items (.inr (.inr (.inr (.inl rfl)))) place ending
      | drained =>
          obtain ⟨_, rfl⟩ := attempted
          exact .drained _ pointer rfl exit items (.inr (.inr (.inr (.inl rfl)))) place ending
  | unmade pointer queue logger place ending => simp [queue] at live
  | made own messages pointer live' exit items logger place ending => simp [logger] at here
  | freed queue logger place ending => simp [queue] at live

theorem afterDequeue_logs (phase : LogPhase system) {draining : Bool}
    (here : system.logger = .dequeuing draining ∨ system.logger = .waiting draining)
    {queue : Fifo LogItem} (live : system.queue = some queue)
    {attempt : Fifo.Attempt LogItem} {left : Fifo LogItem}
    (attempted : Fifo.Attempted queue attempt left) :
    Logs system (system.afterDequeue draining (attempt, left)) where
  phase := afterDequeue_phase phase here live attempted
  entry := afterDequeue_ledger here live attempted ▸ .same
  faulted := by
    unfold LogSystem.afterDequeue
    split <;> rfl

/-- A step that leaves the queue, `LogInit` and `LogEnd` alone keeps the phase, if the
logger thread stays on its side of the exit item. -/
theorem LogPhase.carry (phase : LogPhase system) (pointer : after.pointer = system.pointer)
    (queue : after.queue = system.queue) (init : after.init = system.init)
    (logEnd : after.logEnd = system.logEnd)
    (working : system.logger.Working → after.logger.Working)
    (leaving : system.logger.Leaving → after.logger.Leaving)
    (same : system.logger = .absent ∨ system.logger = .clearing ∨ system.logger = .ended →
      after.logger = system.logger) : LogPhase after := by
  cases phase with
  | unmade pointer' queue' logger place ending =>
      exact .unmade (pointer ▸ pointer') (queue ▸ queue') ((same (.inl logger)).trans logger)
        (init ▸ place) (init ▸ logEnd ▸ ending)
  | made own messages pointer' live exit items logger place ending =>
      exact .made own messages (pointer ▸ pointer') (queue ▸ live) exit items
        ((same (.inl logger)).trans logger) (init ▸ place) (logEnd ▸ ending)
  | serving own messages pointer' live exit items work place ending =>
      exact .serving own messages (pointer ▸ pointer') (queue ▸ live) exit items (working work)
        (init ▸ place) (init ▸ logEnd ▸ ending)
  | ending own messages pointer' live exit items work place ending =>
      exact .ending own messages (pointer ▸ pointer') (queue ▸ live) exit items (working work)
        (init ▸ place) (logEnd ▸ ending)
  | drained own pointer' live exit items leave place ending =>
      exact .drained own (pointer ▸ pointer') (queue ▸ live) exit items (leaving leave)
        (init ▸ place) (logEnd ▸ ending)
  | freed queue' logger place ending =>
      have kept := same (.inr (logger.imp_right And.left))
      exact .freed (queue ▸ queue') (by rwa [kept, pointer]) (init ▸ place) (logEnd ▸ ending)

theorem LogPhase.leaving_of (phase : LogPhase system) (leaving : system.logger.Leaving) :
    ∃ queue, system.pointer = true ∧ system.queue = some queue ∧ queue.exit = true ∧
      queue.items = [] ∧ system.logger.Leaving ∧ system.init = .done ∧
      (system.logEnd = .joining ∨ system.logEnd = .done) := by
  have place : system.logger = .stopping ∨ system.logger = .dequeuing true ∨
    system.logger = .waiting true ∨ system.logger = .closing ∨ system.logger = .freeing := leaving
  cases phase with
  | drained queue pointer live exit items leaving place ending =>
      exact ⟨queue, pointer, live, exit, items, leaving, place, ending⟩
  | unmade pointer queue logger _ _ => simp [logger] at place
  | made queue messages pointer live exit items logger _ _ => simp [logger] at place
  | serving queue messages pointer live exit items working _ _ =>
      rcases working with here | here | here | ⟨_, here⟩ <;> simp [here] at place
  | ending queue messages pointer live exit items working _ _ =>
      rcases working with here | here | here | ⟨_, here⟩ <;> simp [here] at place
  | freed queue logger _ _ =>
      rcases logger with here | ⟨here, _⟩ <;> simp [here] at place

theorem loggerStep_logs (phase : LogPhase system) (unclosed : system.Unclosed)
    (step : system.loggerStep action = some after) : Logs system after := by
  cases action <;> simp only [LogSystem.loggerStep, reduceCtorEq] at step
  case initReturns =>
    simp only [Option.ite_none_right_eq_some, Option.some.injEq] at step
    obtain ⟨here, rfl⟩ := step
    refine ⟨phase.carry rfl rfl rfl rfl (fun _ => .inr (.inl rfl)) (fun leaving => ?_)
      (by simp [here]), ?_, rfl⟩
    · simp [LoggerPoint.Leaving, here] at leaving
    · have entry : LogSystem.ledger { system with logger := .dequeuing false } =
          system.ledger := by
        simp [LogSystem.ledger, LogSystem.queued, LogSystem.messages, LogSystem.inHand, here]
      exact entry ▸ .same
  case dequeue =>
    split at step
    · next draining here =>
        obtain ⟨queue, live, rfl⟩ := Option.map_eq_some_iff.mp step
        exact afterDequeue_logs phase (.inl here) live (queue.dequeue_attempted true)
    · cases step
  case wake notified =>
    split at step
    · next draining here =>
        obtain ⟨queue, live, rfl⟩ := Option.map_eq_some_iff.mp step
        exact afterDequeue_logs phase (.inr here) live (queue.resume_attempted notified)
    · cases step
  case printNext =>
    split at step
    · next draining message here =>
        have streams : system.closed = none := by
          by_contra closed
          simpa [here] using unclosed closed
        rw [LogSystem.printMessage_open (by simp [streams]), Option.some.injEq] at step
        subst step
        have entry : LogSystem.ledger { system with
            printed := system.printed ++ [(message, system.stream)]
            logger := .dequeuing draining } = system.ledger.serve := by
          simp [LogSystem.ledger, LogSystem.queued, LogSystem.messages, LogSystem.inHand, here,
            Ledger.serve]
        refine ⟨phase.carry rfl rfl rfl rfl (fun working => ?_) (fun leaving => ?_)
          (by simp [here]), entry ▸ .serve, rfl⟩
        · have early : draining = false := by simpa [LoggerPoint.Working, here] using working
          exact .inr (.inl (early ▸ rfl))
        · simp [LoggerPoint.Leaving, here] at leaving
    · cases step
  case stop =>
    simp only [Option.ite_none_right_eq_some, Option.some.injEq] at step
    obtain ⟨here, rfl⟩ := step
    have entry : LogSystem.ledger { system with logger := .dequeuing true } = system.ledger := by
      simp [LogSystem.ledger, LogSystem.queued, LogSystem.messages, LogSystem.inHand, here]
    refine ⟨phase.carry rfl rfl rfl rfl (fun working => ?_) (fun _ => .inr (.inl rfl))
      (by simp [here]), entry ▸ .same, rfl⟩
    simp [LoggerPoint.Working, here] at working
  case closeFile =>
    simp only [Option.ite_none_right_eq_some, Option.some.injEq] at step
    obtain ⟨here, rfl⟩ := step
    have entry : LogSystem.ledger { system with
        closed := system.file, file := none, logger := .freeing } = system.ledger := by
      simp [LogSystem.ledger, LogSystem.queued, LogSystem.messages, LogSystem.inHand, here]
    refine ⟨phase.carry rfl rfl rfl rfl (fun working => ?_)
      (fun _ => .inr (.inr (.inr (.inr rfl)))) (by simp [here]), entry ▸ .same, rfl⟩
    simp [LoggerPoint.Working, here] at working
  case freeQueue =>
    simp only [Option.ite_none_right_eq_some, Option.some.injEq] at step
    obtain ⟨here, rfl⟩ := step
    obtain ⟨queue, pointer, live, exit, items, _, place, ending⟩ := phase.leaving_of
      (.inr (.inr (.inr (.inr here))))
    have entry : LogSystem.ledger { system with queue := none, logger := .clearing } =
        system.ledger := by
      simp [LogSystem.ledger, LogSystem.queued, LogSystem.messages, LogSystem.inHand, here, live,
        items]
    exact ⟨.freed rfl (.inl rfl) place ending, entry ▸ .same, rfl⟩
  case clearQueue =>
    simp only [Option.ite_none_right_eq_some, Option.some.injEq] at step
    obtain ⟨here, rfl⟩ := step
    have entry : LogSystem.ledger { system with pointer := false, logger := .ended } =
        system.ledger := by
      simp [LogSystem.ledger, LogSystem.queued, LogSystem.messages, LogSystem.inHand, here]
    cases phase with
    | freed queue logger place ending =>
        exact ⟨.freed queue (.inr ⟨rfl, rfl⟩) place ending, entry ▸ .same, rfl⟩
    | unmade pointer queue logger place ending => simp [here] at logger
    | made queue messages pointer live exit items logger place ending => simp [here] at logger
    | serving queue messages pointer live exit items working place ending =>
        simp [LoggerPoint.Working, here] at working
    | ending queue messages pointer live exit items working place ending =>
        simp [LoggerPoint.Working, here] at working
    | drained queue pointer live exit items leaving place ending =>
        simp [LoggerPoint.Leaving, here] at leaving

/-! ### LogEnd -/

theorem logEndStep_logs (phase : LogPhase system)
    (step : system.logEndStep action = some after) : Logs system after := by
  cases action <;> simp only [LogSystem.logEndStep, reduceCtorEq] at step
  case logEnd =>
    simp only [Option.ite_none_right_eq_some, Option.some.injEq] at step
    obtain ⟨⟨ready, outside⟩, rfl⟩ := step
    cases phase with
    | unmade pointer queue logger place ending =>
        rw [if_neg (by simp [pointer])]
        exact ⟨.unmade pointer queue logger place (.inr ⟨ready, rfl⟩), .same, rfl⟩
    | serving queue messages pointer live exit items working place ending =>
        rw [if_pos pointer]
        exact ⟨.serving queue messages pointer live exit items working place (.inr ⟨ready, rfl⟩),
          .same, rfl⟩
    | made queue messages pointer live exit items logger place ending => simp [ready] at place
    | ending queue messages pointer live exit items working place ending =>
        simp [outside] at ending
    | drained queue pointer live exit items leaving place ending => simp [outside] at ending
    | freed queue logger place ending => simp [outside] at ending
  case enqueueExit =>
    simp only [Option.ite_none_right_eq_some, Option.map_eq_some_iff] at step
    obtain ⟨here, queue, live, rfl⟩ := step
    cases phase with
    | serving own messages pointer live' exit items working place ending =>
        cases live.symm.trans live'
        have ready : system.init = .done := by simpa [here] using ending
        simp only [Fifo.enqueue, exit, Bool.false_eq_true, if_false, if_true]
        have entry : LogSystem.ledger { system with
            queue := some { queue with items := queue.items ++ [.exit], exit := true }
            logEnd := .joining } = system.ledger := by
          simp [LogSystem.ledger, LogSystem.queued, LogSystem.messages, LogSystem.inHand, live,
            List.filterMap_cons]
        refine ⟨.ending _ messages pointer rfl rfl (by simp [items]) working ready rfl, ?_, rfl⟩
        simpa using entry ▸ LedgerStep.same
    | unmade pointer queue logger place ending => simp [here] at ending
    | made queue messages pointer live exit items logger place ending => simp [here] at ending
    | ending queue messages pointer live exit items working place ending => simp [here] at ending
    | drained queue pointer live exit items leaving place ending => simp [here] at ending
    | freed queue logger place ending => simp [here] at ending
  case join =>
    simp only [Option.ite_none_right_eq_some, Option.some.injEq] at step
    obtain ⟨⟨here, ended⟩, rfl⟩ := step
    cases phase with
    | drained queue pointer live exit items leaving place ending =>
        exact ⟨.drained queue pointer live exit items leaving place (.inr rfl), .same, rfl⟩
    | freed queue logger place ending =>
        exact ⟨.freed queue logger place (.inr rfl), .same, rfl⟩
    | ending queue messages pointer live exit items working place ending =>
        rcases working with point | point | point | ⟨_, point⟩ <;>
          simp [point, LoggerPoint.Stopped] at ended
    | unmade pointer queue logger place ending => simp [here] at ending
    | made queue messages pointer live exit items logger place ending => simp [here] at ending
    | serving queue messages pointer live exit items working place ending =>
        simp [here] at ending

/-! ### The handler -/

theorem complete_made (system : LogSystem) (thread : Nat) :
    (fun other => ((system.complete thread).callers other).logged) =
      system.ledger.count thread := by
  funext other
  by_cases same : other = thread
  · subst same
    simp [LogSystem.complete, LogSystem.ledger, Ledger.count]
  · simp [LogSystem.complete, LogSystem.ledger, Ledger.count, Function.update_of_ne same]

theorem setCall_logs (phase : LogPhase system) (thread : Nat) (call : LogCall) :
    Logs system (system.setCall thread call) := by
  have made : (fun other => ((system.setCall thread call).callers other).logged) =
      fun other => (system.callers other).logged := by
    funext other
    by_cases same : other = thread
    · subst same
      simp [LogSystem.setCall]
    · simp [LogSystem.setCall, Function.update_of_ne same]
  have entry : (system.setCall thread call).ledger = system.ledger := by
    simp only [LogSystem.ledger, made]
    rfl
  exact ⟨phase.carry rfl rfl rfl rfl id id fun _ => rfl, entry ▸ .same, rfl⟩

theorem enqueued_logs (phase : LogPhase system) {queue : Fifo LogItem}
    (live : system.queue = some queue) (exit : queue.exit = false) (thread : Nat) :
    Logs system (LogSystem.complete { system with
      queue := some { queue with
        items := queue.items ++ [.data (system.current thread)], exit := false }
      enqueued := system.enqueued ++ [system.current thread] } thread) := by
  have entry : LogSystem.ledger (LogSystem.complete { system with
      queue := some { queue with
        items := queue.items ++ [.data (system.current thread)], exit := false }
      enqueued := system.enqueued ++ [system.current thread] } thread) =
        system.ledger.enqueue thread := by
    simp only [LogSystem.ledger, Ledger.enqueue, Ledger.mk.injEq]
    refine ⟨complete_made _ thread, rfl, ?_, rfl⟩
    simp [LogSystem.queued, LogSystem.complete, LogSystem.inHand, live, Ledger.next,
      LogSystem.current]
  refine ⟨?_, entry ▸ .enqueue thread, rfl⟩
  cases phase with
  | made own messages pointer live' closed items logger place ending =>
      cases live.symm.trans live'
      exact .made _ (messages ++ [system.current thread]) pointer rfl rfl (by simp [items]) logger
        place ending
  | serving own messages pointer live' closed items working place ending =>
      cases live.symm.trans live'
      exact .serving _ (messages ++ [system.current thread]) pointer rfl rfl (by simp [items])
        working place ending
  | ending own messages pointer live' closed items working place ending =>
      cases live.symm.trans live'
      simp [exit] at closed
  | drained own pointer live' closed items leaving place ending =>
      cases live.symm.trans live'
      simp [exit] at closed
  | unmade pointer queue' logger place ending => simp [queue'] at live
  | freed queue' logger place ending => simp [queue'] at live

theorem callStep_logs (phase : LogPhase system) (allowed : LogAllowed system action)
    (step : system.callStep action = some after) : Logs system after := by
  cases action <;> simp only [LogSystem.callStep, reduceCtorEq, Option.ite_none_right_eq_some,
    Option.some.injEq] at step
  case print thread =>
    split at step
    · next log here =>
        have streams : system.closed ≠ some log := by
          intro closed
          exact allowed (by simp [closed, here])
        rw [LogSystem.printMessage_open streams, Option.some.injEq] at step
        subst step
        have entry : (LogSystem.complete { system with
            printed := system.printed ++ [(system.current thread, log)] } thread).ledger =
              system.ledger.deliver thread := by
          simp only [LogSystem.ledger, Ledger.deliver, Ledger.mk.injEq]
          exact ⟨complete_made { system with
            printed := system.printed ++ [(system.current thread, log)] } thread,
              List.map_append, rfl, rfl⟩
        exact ⟨phase.carry rfl rfl rfl rfl id id fun _ => rfl, entry ▸ .deliver thread, rfl⟩
    · cases step
  all_goals obtain ⟨here, rfl⟩ := step
  case log thread => exact setCall_logs phase thread .entered
  case allocate thread granted =>
    cases show granted = true from allowed
    exact setCall_logs phase thread .allocated
  case test thread => exact setCall_logs phase thread _
  case load thread => exact setCall_logs phase thread _
  case choose thread => exact setCall_logs phase thread _
  case enqueue thread =>
    obtain ⟨queue, live⟩ := Option.isSome_iff_exists.mp
      (show system.queue.isSome = true from allowed)
    cases exit : queue.exit with
    | true =>
        simp only [live, Fifo.enqueue, exit, if_true]
        exact setCall_logs phase thread .refused
    | false =>
        simp only [live, Fifo.enqueue, exit, Bool.false_eq_true, if_false]
        exact enqueued_logs phase live exit thread

/-! ### The streams -/

theorem LogSystem.Unclosed.carry (unclosed : system.Unclosed)
    (closed : after.closed = system.closed) (logger : after.logger = system.logger) :
    after.Unclosed := by
  unfold LogSystem.Unclosed
  rw [closed, logger]
  exact unclosed

theorem initStep_unclosed (phase : LogPhase system) (unclosed : system.Unclosed)
    (step : system.initStep action = some after) : after.Unclosed := by
  cases action <;> simp only [LogSystem.initStep, reduceCtorEq, Option.ite_none_right_eq_some,
    Option.some.injEq] at step <;> obtain ⟨here, rfl⟩ := step
  case newQueue made => cases made <;> exact unclosed.carry rfl rfl
  case threadStart created =>
    obtain ⟨_, _, _, _, _, _, absent, _⟩ := phase.made_of (.inr here)
    cases created with
    | true =>
        intro closed
        simpa [absent] using unclosed closed
    | false => exact unclosed.carry rfl rfl
  all_goals exact unclosed.carry rfl rfl

/-- Until the logger thread closes its stream, none is closed. -/
theorem LogSystem.Unclosed.early (unclosed : system.Unclosed)
    (early : system.logger ≠ .freeing ∧ system.logger ≠ .clearing ∧ system.logger ≠ .ended)
    (closed : after.closed = system.closed) : after.Unclosed := by
  intro streams
  rcases unclosed (closed ▸ streams) with here | here | here
  · exact absurd here early.1
  · exact absurd here early.2.1
  · exact absurd here early.2.2

theorem printMessage_closed (system : LogSystem) (log : LogFile) (message : LogMessage) :
    (system.printMessage log message).closed = system.closed ∧
      (system.printMessage log message).logger = system.logger := by
  unfold LogSystem.printMessage
  split <;> exact ⟨rfl, rfl⟩

theorem afterDequeue_closed (system : LogSystem) (draining : Bool)
    (attempted : Fifo.Attempt LogItem × Fifo LogItem) :
    (system.afterDequeue draining attempted).closed = system.closed := by
  unfold LogSystem.afterDequeue
  split <;> rfl

theorem loggerStep_unclosed (unclosed : system.Unclosed)
    (step : system.loggerStep action = some after) : after.Unclosed := by
  cases action <;> simp only [LogSystem.loggerStep, reduceCtorEq] at step
  case dequeue =>
    split at step
    · next draining here =>
        obtain ⟨queue, _, rfl⟩ := Option.map_eq_some_iff.mp step
        exact unclosed.early (by simp [here]) (afterDequeue_closed system draining _)
    · cases step
  case wake notified =>
    split at step
    · next draining here =>
        obtain ⟨queue, _, rfl⟩ := Option.map_eq_some_iff.mp step
        exact unclosed.early (by simp [here]) (afterDequeue_closed system draining _)
    · cases step
  case printNext =>
    split at step
    · next draining message here =>
        cases step
        exact unclosed.early (by simp [here]) (printMessage_closed system system.stream message).1
    · cases step
  all_goals
    simp only [Option.ite_none_right_eq_some, Option.some.injEq] at step
    obtain ⟨here, rfl⟩ := step
  case initReturns => exact unclosed.early (by simp [here]) rfl
  case stop => exact unclosed.early (by simp [here]) rfl
  case closeFile => exact fun _ => .inl rfl
  case freeQueue => exact fun _ => .inr (.inl rfl)
  case clearQueue => exact fun _ => .inr (.inr rfl)

theorem logEndStep_unclosed (unclosed : system.Unclosed)
    (step : system.logEndStep action = some after) : after.Unclosed := by
  cases action <;> simp only [LogSystem.logEndStep, reduceCtorEq] at step
  case enqueueExit =>
    simp only [Option.ite_none_right_eq_some, Option.map_eq_some_iff] at step
    obtain ⟨_, _, _, rfl⟩ := step
    exact unclosed.carry rfl rfl
  all_goals
    simp only [Option.ite_none_right_eq_some, Option.some.injEq] at step
    obtain ⟨_, rfl⟩ := step
  case logEnd => cases system.pointer <;> exact unclosed.carry rfl rfl
  case join => exact unclosed.carry rfl rfl

theorem callStep_unclosed (unclosed : system.Unclosed)
    (step : system.callStep action = some after) : after.Unclosed := by
  cases action <;> simp only [LogSystem.callStep, reduceCtorEq] at step
  case print thread =>
    split at step
    · next log _ =>
        cases step
        obtain ⟨closed, logger⟩ := printMessage_closed system log (system.current thread)
        exact unclosed.carry closed logger
    · cases step
  all_goals
    simp only [Option.ite_none_right_eq_some, Option.some.injEq] at step
    obtain ⟨here, rfl⟩ := step
  case allocate thread granted => cases granted <;> exact unclosed.carry rfl rfl
  case enqueue thread =>
    split
    · exact unclosed.carry rfl rfl
    · split <;> exact unclosed.carry rfl rfl
  all_goals exact unclosed.carry rfl rfl

end

/-! ## Runs -/

theorem logStep_logs {before after : LogSystem} {action : LogAction} (phase : LogPhase before)
    (unclosed : before.Unclosed) (allowed : LogAllowed before action)
    (step : LogStep before action after) : Logs before after := by
  unfold LogStep logStep at step
  cases init : before.initStep action with
  | some reached =>
      rw [init] at step
      cases step
      exact initStep_logs phase allowed init
  | none =>
      rw [init] at step
      cases logger : before.loggerStep action with
      | some reached =>
          simp only [Option.orElse_none, logger, Option.orElse_some, Option.some.injEq] at step
          exact step ▸ loggerStep_logs phase unclosed logger
      | none =>
          cases logEnd : before.logEndStep action with
          | some reached =>
              simp only [Option.orElse_none, logger, logEnd, Option.orElse_some,
                Option.some.injEq] at step
              exact step ▸ logEndStep_logs phase logEnd
          | none =>
              simp only [Option.orElse_none, logger, logEnd] at step
              exact callStep_logs phase allowed step

theorem logStep_unclosed {before after : LogSystem} {action : LogAction} (phase : LogPhase before)
    (unclosed : before.Unclosed) (step : LogStep before action after) : after.Unclosed := by
  unfold LogStep logStep at step
  cases init : before.initStep action with
  | some reached =>
      rw [init] at step
      cases step
      exact initStep_unclosed phase unclosed init
  | none =>
      rw [init] at step
      cases logger : before.loggerStep action with
      | some reached =>
          simp only [Option.orElse_none, logger, Option.orElse_some, Option.some.injEq] at step
          exact step ▸ loggerStep_unclosed unclosed logger
      | none =>
          cases logEnd : before.logEndStep action with
          | some reached =>
              simp only [Option.orElse_none, logger, logEnd, Option.orElse_some,
                Option.some.injEq] at step
              exact step ▸ logEndStep_unclosed unclosed logEnd
          | none =>
              simp only [Option.orElse_none, logger, logEnd] at step
              exact callStep_unclosed unclosed step

/-- Nothing is on its way to the logger thread when `LogEnd` returns. -/
theorem LogPhase.ended {system : LogSystem} (phase : LogPhase system)
    (done : system.logEnd = .done) : system.ledger.line = [] := by
  cases phase with
  | unmade pointer queue logger place ending =>
      simp [LogSystem.ledger, LogSystem.inHand, LogSystem.queued, queue, logger]
  | drained queue pointer live exit items leaving place ending =>
      rcases leaving with here | here | here | here | here <;>
        simp [LogSystem.ledger, LogSystem.inHand, LogSystem.queued, live, items, here]
  | freed queue logger place ending =>
      rcases logger with here | ⟨here, _⟩ <;>
        simp [LogSystem.ledger, LogSystem.inHand, LogSystem.queued, queue, here]
  | made queue messages pointer live exit items logger place ending => simp [done] at ending
  | serving queue messages pointer live exit items working place ending =>
      simp [done] at ending
  | ending queue messages pointer live exit items working place ending => simp [done] at ending

/-- In every run in which the thread is there whenever the queue is, every message gets
its memory, and no thread comes to the queue with a pointer to it behind `FreeQueue` or
prints to a stream behind `fclose`, every message is printed once and behind `LogEnd` none
is missing. -/
theorem newLogSystem_prints_once {actions : List LogAction} {system : LogSystem}
    (run : Run (Guarded LogAllowed LogStep) newLogSystem actions system) :
    system.PrintedOnce := by
  have reached : (LogPhase system ∧ system.Unclosed) ∧ system.ledger.Sound ∧
      system.faulted = false := by
    apply run.keeps
    · intro before action after holds taken
      have logs := logStep_logs holds.1.1 holds.1.2 taken.1 taken.2
      exact ⟨⟨logs.phase, logStep_unclosed holds.1.1 holds.1.2 taken.2⟩,
        logs.entry.sound holds.2.1, logs.faulted.trans holds.2.2⟩
    · exact ⟨⟨.unmade rfl rfl rfl (.inl rfl) (.inl rfl), fun closed => absurd rfl closed⟩,
        Ledger.empty_sound, rfl⟩
  obtain ⟨⟨phase, _⟩, sound, sane⟩ := reached
  exact ⟨sane, sound.delivered_le,
    fun done _ returned => sound.delivered_once (phase.ended done) returned,
    sound.served_increasing⟩

/-- `LogInit` with a file and a queue, and a thread if it can be created. -/
def loggerStart (created : Bool) : List LogAction :=
  if created then
    [.logInit, .openFile true, .newQueue true, .newThread true, .threadStart true, .initReturns,
      .started]
  else [.logInit, .openFile true, .newQueue true, .newThread false]

/-- A call of the handler that leaves its message in the queue. -/
def enqueuedCall (thread : Nat) : List LogAction :=
  [.log thread, .allocate thread true, .test thread, .load thread, .enqueue thread]

/-- Thread 0 leaves its message to the logger thread; thread 1 tests the queue, is refused
behind the exit item and prints by itself. -/
def refusedCall : List LogAction :=
  loggerStart true ++ enqueuedCall 0 ++ [.log 1, .allocate 1 true, .test 1, .load 1, .dequeue,
    .logEnd, .enqueueExit, .enqueue 1, .choose 1, .print 1, .printNext, .dequeue, .dequeue, .stop,
    .dequeue, .closeFile, .freeQueue, .clearQueue, .join]

theorem newLogSystem_prints_once_refused :
    ∃ system, execute (guardedNext LogAllowed logStep) newLogSystem refusedCall = some system ∧
      system.logEnd = .done ∧ system.messages = [(1, 0), (0, 0)] ∧ system.PrintedOnce := by
  obtain ⟨system, runs, run⟩ := exists_run_of_execute (Guarded LogAllowed LogStep)
    (guardedNext LogAllowed logStep) newLogSystem refusedCall
    (fun _ _ _ taken => guardedNext_sound taken) (by decide)
  have final : (execute (guardedNext LogAllowed logStep) newLogSystem refusedCall).map
      (fun system => (system.logEnd, system.messages)) = some (.done, [(1, 0), (0, 0)]) := by
    decide
  rw [runs, Option.map_some, Option.some.injEq, Prod.mk.injEq] at final
  exact ⟨system, runs, final.1, final.2, newLogSystem_prints_once run⟩

/-- The thread cannot be created; the message stays in the queue and `LogEnd` returns. -/
def unservedCall : List LogAction :=
  loggerStart false ++ enqueuedCall 0 ++ [.logEnd, .enqueueExit, .join]

/-- Thread 0 has loaded the queue when `_LogExit` frees it. -/
def danglingCall : List LogAction :=
  loggerStart true ++ [.log 0, .allocate 0 true, .test 0, .load 0, .logEnd, .enqueueExit, .dequeue,
    .stop, .dequeue, .closeFile, .freeQueue, .enqueue 0]

/-- Without a log file the logger prints to stderr, which `_LogExit` closes while thread 0,
refused by the queue, is about to print there. -/
def closedCall : List LogAction :=
  [.logInit, .openFile false, .newQueue true, .newThread true, .threadStart true, .initReturns,
    .started, .log 0, .allocate 0 true, .test 0, .load 0, .logEnd, .enqueueExit, .enqueue 0,
    .choose 0, .dequeue, .stop, .dequeue, .closeFile, .print 0, .join]

/-- Without its thread the queue keeps a message for good, the queue may be used behind
`FreeQueue`, and a message may be printed to a closed stream. -/
theorem newLogSystem_loses :
    (¬ ∀ (actions : List LogAction) (system : LogSystem),
      Run LogStep newLogSystem actions system → system.logEnd = .done →
        ∀ message : LogMessage, message.2 < (system.callers message.1).logged →
          system.messages.count message = 1) ∧
    (¬ ∀ (actions : List LogAction) (system : LogSystem),
      Run LogStep newLogSystem actions system → system.faulted = false) ∧
    ∃ system, Run LogStep newLogSystem closedCall system ∧ system.logEnd = .done ∧
      (system.callers 0).logged = 1 ∧ system.messages = [] := by
  refine ⟨?_, ?_, ?_⟩
  · intro always
    obtain ⟨system, runs, run⟩ := exists_run_of_execute LogStep logStep newLogSystem unservedCall
      (fun _ _ _ taken => taken) (by decide)
    have final : (execute logStep newLogSystem unservedCall).map
        (fun system => (system.logEnd, (system.callers 0).logged, system.messages)) =
          some (.done, 1, []) := by decide
    rw [runs, Option.map_some, Option.some.injEq, Prod.mk.injEq, Prod.mk.injEq] at final
    have printed := always _ system run final.1 (0, 0) (by simp [final.2.1])
    simp [final.2.2] at printed
  · intro always
    obtain ⟨system, runs, run⟩ := exists_run_of_execute LogStep logStep newLogSystem danglingCall
      (fun _ _ _ taken => taken) (by decide)
    have final : (execute logStep newLogSystem danglingCall).map LogSystem.faulted =
        some true := by decide
    rw [runs, Option.map_some, always _ system run] at final
    cases final
  · obtain ⟨system, runs, run⟩ := exists_run_of_execute LogStep logStep newLogSystem closedCall
      (fun _ _ _ taken => taken) (by decide)
    have final : (execute logStep newLogSystem closedCall).map
        (fun system => (system.logEnd, (system.callers 0).logged, system.messages)) =
          some (.done, 1, []) := by decide
    rw [runs, Option.map_some, Option.some.injEq, Prod.mk.injEq, Prod.mk.injEq] at final
    exact ⟨system, run, final⟩

end Aio4c
