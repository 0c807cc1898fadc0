import Aio4c.Library.Fifo
import Aio4c.Library.Ledger
import Aio4c.Library.TransitionSystem

/-! The logger: a thread that prints the messages of all others, which print theirs
themselves where there is no queue or where it takes no more. A step is one access to a
field of the logger, one critical section of its queue, or one half of a call of
`_LogPrintMessage`, which chooses its stream and then writes to it. A message is known by
its thread and its number among the messages of that thread; the logger thread and the one
in `LogInit` log like any other. -/

set_option autoImplicit false

namespace Aio4c

inductive LogFile where
  | stderr
  | file
  deriving DecidableEq, Repr

abbrev LogMessage := Nat × Nat

/-- `QueueItem`, as far as the logger's queue has it. -/
inductive LogItem where
  | data (message : LogMessage)
  | exit
  deriving DecidableEq, Repr

@[simp] def LogItem.message : LogItem → Option LogMessage
  | .data message => some message
  | .exit => none

/-- Where `LogInit` is: behind the handler, the file, the queue and the thread. -/
inductive LogInitPoint where
  | outside
  | handled
  | opened
  | queued
  | created
  | starting
  | done
  deriving DecidableEq, Repr

/-- Where the logger thread is. `draining` is the call of `_LogRun` in `_LogExit`;
`stopping` has the result of the last call of `_LogRun` by the thread still to store. -/
inductive LoggerPoint where
  | absent
  | initializing
  | dequeuing (draining : Bool)
  | waiting (draining : Bool)
  | printing (draining : Bool) (message : LogMessage)
  | stopping
  | closing
  | freeing
  | clearing
  | ended
  deriving DecidableEq, Repr

inductive LogEndPoint where
  | outside
  | enqueuing
  | joining
  | done
  deriving DecidableEq, Repr

/-- Where a thread is in `_LogDefaultHandler`. It has tested `logger->queue`, loaded it
as the argument of `EnqueueDataItem`, or was refused and prints by itself, to the stream
that it has chosen. -/
inductive LogCall where
  | idle
  | entered
  | allocated
  | tested
  | loaded
  | refused
  | writing (log : LogFile)
  deriving DecidableEq, Repr

structure LogCaller where
  logged : Nat
  call : LogCall
  deriving DecidableEq, Repr

/-- `Logger`, the threads around it and what was printed where. `pointer` is whether
`logger->queue` is not NULL, `queue` the block it points to, `closed` the stream that
`_LogExit` closed; `enqueued` records the messages that the queue accepted, `faulted` a use
of the queue behind `FreeQueue` or of a stream behind `fclose`. -/
structure LogSystem where
  file : Option LogFile
  closed : Option LogFile
  exiting : Bool
  pointer : Bool
  queue : Option (Fifo LogItem)
  init : LogInitPoint
  logger : LoggerPoint
  logEnd : LogEndPoint
  callers : Nat → LogCaller
  printed : List (LogMessage × LogFile)
  enqueued : List LogMessage
  faulted : Bool

/-- The logger as it is initialized, in front of `LogInit`. -/
def newLogSystem : LogSystem :=
  { file := none, closed := none, exiting := false, pointer := false, queue := none
    init := .outside, logger := .absent, logEnd := .outside
    callers := fun _ => { logged := 0, call := .idle }, printed := [], enqueued := []
    faulted := false }

/-- The steps of `LogInit`, of the logger thread, of `LogEnd` and of a call of the
handler by some thread, with the outcomes of what they ask of the system. -/
inductive LogAction where
  | logInit
  | openFile (opened : Bool)
  | newQueue (made : Bool)
  | newThread (made : Bool)
  | threadStart (created : Bool)
  | initReturns
  | started
  | dequeue
  | wake (notified : Bool)
  | printNext
  | stop
  | closeFile
  | freeQueue
  | clearQueue
  | logEnd
  | enqueueExit
  | join
  | log (thread : Nat)
  | allocate (thread : Nat) (granted : Bool)
  | test (thread : Nat)
  | load (thread : Nat)
  | enqueue (thread : Nat)
  | choose (thread : Nat)
  | print (thread : Nat)
  deriving DecidableEq, Repr

/-- The thread has stored that it is no longer running: `ThreadJoin` may have found that,
and else it returns behind the end of the thread. -/
def LoggerPoint.Stopped (point : LoggerPoint) : Prop :=
  point = .dequeuing true ∨ point = .waiting true ∨ (∃ message, point = .printing true message) ∨
    point = .closing ∨ point = .freeing ∨ point = .clearing ∨ point = .ended

namespace LogSystem

/-- The stream that `_LogPrintMessage` chooses. -/
def stream (system : LogSystem) : LogFile :=
  if system.exiting then .stderr else system.file.getD .stderr

/-- Nothing is printed to a closed stream. -/
def printMessage (system : LogSystem) (log : LogFile) (message : LogMessage) : LogSystem :=
  if system.closed = some log then { system with faulted := true }
  else { system with printed := system.printed ++ [(message, log)] }

def setCall (system : LogSystem) (thread : Nat) (call : LogCall) : LogSystem :=
  let caller := { system.callers thread with call }
  { system with callers := Function.update system.callers thread caller }

/-- The message that a thread is logging, or would log next. -/
def current (system : LogSystem) (thread : Nat) : LogMessage :=
  (thread, (system.callers thread).logged)

def complete (system : LogSystem) (thread : Nat) : LogSystem :=
  let caller := { logged := (system.callers thread).logged + 1, call := .idle }
  { system with callers := Function.update system.callers thread caller }

/-- `_LogRun` behind an attempt to take an item. The thread calls it again when it has
returned true; in `_LogExit` its result is not looked at. -/
def afterDequeue (system : LogSystem) (draining : Bool) :
    Fifo.Attempt LogItem × Fifo LogItem → LogSystem
  | (.blocked, queue) => { system with queue := some queue, logger := .waiting draining }
  | (.taken (.data message), queue) =>
      { system with queue := some queue, logger := .printing draining message }
  | (.taken .exit, queue) =>
      { system with queue := some queue, logger := if draining then .closing else .stopping }
  | (_, queue) =>
      { system with
        queue := some queue, logger := if draining then .closing else .dequeuing false }

def initStep (system : LogSystem) : LogAction → Option LogSystem
  | .logInit =>
      if system.init = .outside then some { system with init := .handled } else none
  | .openFile opened =>
      if system.init = .handled then
        some { system with file := some (if opened then .file else .stderr), init := .opened }
      else none
  | .newQueue made =>
      if system.init = .opened then
        some (if made then
            { system with pointer := true, queue := some Fifo.empty, init := .queued }
          else { system with init := .done })
      else none
  | .newThread made =>
      if system.init = .queued then
        some { system with init := if made then .created else .done }
      else none
  | .threadStart created =>
      if system.init = .created then
        some (if created then { system with logger := .initializing, init := .starting }
          else { system with init := .done })
      else none
  | .started =>
      if system.init = .starting ∧ system.logger ≠ .initializing then
        some { system with init := .done }
      else none
  | _ => none

def loggerStep (system : LogSystem) : LogAction → Option LogSystem
  | .initReturns =>
      if system.logger = .initializing then some { system with logger := .dequeuing false }
      else none
  | .dequeue =>
      match system.logger with
      | .dequeuing draining => system.queue.map fun queue =>
          system.afterDequeue draining (queue.dequeue true)
      | _ => none
  | .wake notified =>
      match system.logger with
      | .waiting draining => system.queue.map fun queue =>
          system.afterDequeue draining (queue.resume notified)
      | _ => none
  | .printNext =>
      match system.logger with
      | .printing draining message =>
          some { system.printMessage system.stream message with logger := .dequeuing draining }
      | _ => none
  | .stop =>
      if system.logger = .stopping then some { system with logger := .dequeuing true } else none
  | .closeFile =>
      -- without a log file the stream of the logger is stderr
      if system.logger = .closing then
        some { system with closed := system.file, file := none, logger := .freeing }
      else none
  | .freeQueue =>
      if system.logger = .freeing then some { system with queue := none, logger := .clearing }
      else none
  | .clearQueue =>
      if system.logger = .clearing then some { system with pointer := false, logger := .ended }
      else none
  | _ => none

instance (point : LoggerPoint) : Decidable point.Stopped :=
  match point with
  | .absent | .initializing | .dequeuing false | .waiting false | .printing false _
  | .stopping => isFalse (by simp [LoggerPoint.Stopped])
  | .dequeuing true | .waiting true | .printing true _ | .closing | .freeing | .clearing
  | .ended => isTrue (by simp [LoggerPoint.Stopped])

/-- The steps of `LogEnd`, behind the return of `LogInit`. There is nothing to join where
there is no thread. -/
def logEndStep (system : LogSystem) : LogAction → Option LogSystem
  | .logEnd =>
      if system.init = .done ∧ system.logEnd = .outside then
        some (if system.pointer then { system with exiting := true, logEnd := .enqueuing }
          else { system with logEnd := .done })
      else none
  | .enqueueExit =>
      if system.logEnd = .enqueuing then
        system.queue.map fun queue =>
          let (accepted, queue) := queue.enqueue (fun item => item = .exit) .exit
          { system with queue := some queue, logEnd := if accepted then .joining else .done }
      else none
  | .join =>
      if system.logEnd = .joining ∧ (system.logger = .absent ∨ system.logger.Stopped) then
        some { system with logEnd := .done }
      else none
  | _ => none

/-- The steps of a thread in `_LogDefaultHandler`. `EnqueueDataItem` of NULL returns
false; of a freed queue it is undefined. -/
def callStep (system : LogSystem) : LogAction → Option LogSystem
  | .log thread =>
      if system.init ≠ .outside ∧ (system.callers thread).call = .idle then
        some (system.setCall thread .entered)
      else none
  | .allocate thread granted =>
      if (system.callers thread).call = .entered then
        some (if granted then system.setCall thread .allocated else system.complete thread)
      else none
  | .test thread =>
      if (system.callers thread).call = .allocated then
        some (system.setCall thread (if system.pointer then .tested else .refused))
      else none
  | .load thread =>
      if (system.callers thread).call = .tested then
        some (system.setCall thread (if system.pointer then .loaded else .refused))
      else none
  | .enqueue thread =>
      if (system.callers thread).call = .loaded then
        some (match system.queue with
          | none => { system with faulted := true }
          | some queue =>
              match queue.enqueue (fun item => item = .exit) (.data (system.current thread)) with
              | (true, queue) => { system with
                  queue := some queue
                  enqueued := system.enqueued ++ [system.current thread] }.complete thread
              | (false, _) => system.setCall thread .refused)
      else none
  | .choose thread =>
      if (system.callers thread).call = .refused then
        some (system.setCall thread (.writing system.stream))
      else none
  | .print thread =>
      match (system.callers thread).call with
      | .writing log =>
          some ((system.printMessage log (system.current thread)).complete thread)
      | _ => none
  | _ => none

end LogSystem

def logStep (system : LogSystem) (action : LogAction) : Option LogSystem :=
  (system.initStep action).orElse fun _ => (system.loggerStep action).orElse fun _ =>
    (system.logEndStep action).orElse fun _ => system.callStep action

def LogStep (before : LogSystem) (action : LogAction) (after : LogSystem) : Prop :=
  logStep before action = some after

end Aio4c
