import Aio4c.LockFootprints

/-! The mutexes of the library have an order: every thread takes them in this order, and where it
waits for the network, for an item or for another thread, it holds at most a lock that no other
thread takes. So whoever waits for a lock can get it. -/

set_option autoImplicit false

namespace Aio4c

open LockOrder TransitionSystem
open LockOrder.Code (all maybe)

def LibraryLock.rank : LibraryLock → Nat
  | .life _ => 0
  | .state _ => 1
  | .closedBy _ | .managedBy _ | .selector _ => 2
  | .queue _ => 3
  | .pool _ => 4
  | .logger => 5
  | .threads => 6
  | .timeProbes => 7
  | .sizeProbes => 8

/-- A selector is used by the thread that polls it; behind the start of a thread only the thread
itself takes its lock. -/
def LibraryLock.owner : LibraryLock → Option LibraryThread
  | .life thread | .selector thread => some thread
  | _ => none

namespace Footprint

section Ascends

variable {thread : LibraryThread} {floor : Nat} {alone : Bool}

variable {other : LibraryThread}

variable {user : UserCode} {connection pipe : Nat}

end Ascends

section Threads

variable {user : UserCode} {thread : LibraryThread}

end Threads

end Footprint

open Code.Does in
/-- `Log` that comes to the queue of the logger, by what it does under the lock of that queue. -/
theorem logOn_does {refused : Footprint} {ops : List (Op LibraryLock)}
    (under : (maybe (all [maybe (all [Footprint.malloc, maybe refused, Footprint.malloc,
      maybe refused]), Footprint.threadSelf])).Does ops) :
    (Footprint.logOn refused).Does (.take .logger :: (ops ++ [.release .logger])) := by
  have enqueued : (Footprint.enqueueOn refused .logger).Does
      (.take .logger :: (ops ++ [.release .logger])) :=
    maybe_body (all_skip maybe_skip (all_first
      (.within (all_skip maybe_skip (all_first under (all_skip maybe_skip all_nil)))) all_nil))
  exact maybe_body (all_skip maybe_skip (all_skip maybe_skip (all_first
    (maybe_body (all_skip maybe_skip (all_first enqueued (all_skip maybe_skip all_nil)))) all_nil)))

/-- `Log` at its shortest, with a refusal of memory that it logs. -/
def refusedOps : List (Op LibraryLock) :=
  [.take .logger, .take .logger, .release .logger, .release .logger]

open Code.Does in
theorem refusedOps_called : Footprint.refusedLog.Does refusedOps := by
  have again : Footprint.log.Does [.take .logger, .release .logger] := logOn_does maybe_skip
  have refused : (maybe (maybe Footprint.log)).Does [.take .logger, .release .logger] :=
    maybe_body (maybe_body again)
  exact logOn_does (maybe_body (all_first (maybe_body (all_skip maybe_skip
    (all_first refused (all_skip maybe_skip (all_skip maybe_skip all_nil)))))
      (all_skip maybe_skip all_nil)))

/-- A thread that logs where the queue of the logger is refused memory can come to wait for
ever for the lock that it holds. -/
theorem refusedLog_waits :
    ∃ actions state, Run (Step fun _ => Footprint.refusedLog.Does) idle actions state ∧
      ∀ later final, Run (Step fun _ => Footprint.refusedLog.Does) state later final →
        final LibraryThread.logger = state .logger ∧ (final .logger).Stuck := by
  have run : Run (Step fun _ => Footprint.refusedLog.Does) idle
      [.call LibraryThread.logger refusedOps, .lock .logger] _ :=
    .cons (.call rfl refusedOps_called) (.cons (.take rfl fun other => by
      rw [Function.update_apply]
      split <;> exact List.not_mem_nil) (.nil _))
  refine ⟨_, _, run, fun later final goes => ?_⟩
  have stuck : ((Function.update (Function.update idle LibraryThread.logger
      { held := [], todo := refusedOps }) .logger { held := [.logger], todo := refusedOps.tail } :
        State LibraryLock LibraryThread) .logger).Stuck :=
    ⟨.logger, [.release .logger, .release .logger], rfl, List.mem_singleton_self _⟩
  have stays := stays_of_run goes stuck
  exact ⟨stays, stays ▸ stuck⟩

end Aio4c
