import Aio4c.PipelineSteps

/-! The order of the user's handlers. A read is admitted by `canRead`, which is set in
front of the dispatch of CONNECTED: the user's CONNECTED handler comes before the READ
handler while no read is admitted in between. -/

set_option autoImplicit false

namespace Aio4c

open TransitionSystem

/-- The calls between a passed test of `canRead` and the user's READ handler. -/
def Frame.admitted : Frame → Bool
  | .dispatch .inboundData | .inboundTest | .inboundEnqueue => true
  | .dispatch .read | .userDispatch .read => true
  | _ => false

/-- A `ConnectionRead` that finds `canRead` set comes after the call of the user's
CONNECTED handler. -/
def AdmittedAfterConnected (pipeline : Pipeline) (action : Party × Choice) : Prop :=
  (pipeline.calls (pipeline.place action.1)).head? = some .readTest →
    pipeline.shared.connection.canRead = true → Event.connected ∈ pipeline.shared.called

instance (pipeline : Pipeline) (action : Party × Choice) :
    Decidable (AdmittedAfterConnected pipeline action) :=
  inferInstanceAs (Decidable (_ → _ → _))

def Shared.Taskless (shared : Shared) : Prop := WorkerItem.task ∉ shared.workerQueue.items

/-- Nothing that was read is on its way to the user. -/
structure Pipeline.Unread (pipeline : Pipeline) : Prop where
  taskless : pipeline.shared.Taskless
  calls : ∀ place, ∀ frame ∈ pipeline.calls place, frame.admitted = false

/-- In front of every READ there is a CONNECTED. -/
def ConnectedFirst (called : List Event) : Prop :=
  ∀ earlier later, called = earlier ++ .read :: later → Event.connected ∈ earlier

theorem ConnectedFirst.snoc {called : List Event} (first : ConnectedFirst called) {event : Event}
    (known : event = .read → Event.connected ∈ called) : ConnectedFirst (called ++ [event]) := by
  intro earlier later same
  rcases List.eq_nil_or_concat later with rfl | ⟨later, last, rfl⟩
  · obtain ⟨rfl, read⟩ := List.append_inj' same rfl
    exact known (List.head_eq_of_cons_eq read)
  · rw [List.concat_eq_append, ← List.cons_append, ← List.append_assoc] at same
    exact first earlier later (List.append_inj' same rfl).1

theorem UserCall.frame_unread (call : UserCall) : call.frame.admitted = false := by
  cases call with
  | close force => cases force <;> rfl
  | enableWriteInterest => rfl

/-- A call that is no part of a read makes none, unless it is a test that admits one. -/
theorem Follows.unread {shared : Shared} {frame next : Frame} (follows : Follows shared frame next)
    (unadmitted : frame.admitted = false)
    (refused : frame = .readTest → shared.connection.canRead = false) :
    next.admitted = false := by
  cases follows with
  | inboundData readable =>
      rw [refused rfl] at readable
      cases readable
  | userCall call => exact call.frame_unread
  | inboundTest | inboundEnqueue => cases unadmitted
  | dispatch => exact unadmitted
  | userDispatch event => cases event <;> first | rfl | cases unadmitted
  | stateLock | retire | userHandlers | userCalls | outboundData | recvClosing | readTest | fill
  | writeRefused | write | send | sendClosing | reenqueue | noMoreUsed | free | managed | connected
  | initialized | connect | connectRefused | connects | finishRefused | handOver
  | clientNoMoreUsed | unconnected => rfl

theorem Shared.Taskless.work_close {shared : Shared} (taskless : shared.Taskless) :
    (shared.work .close).Taskless := by
  unfold Shared.Taskless at taskless ⊢
  unfold Shared.work Fifo.push Fifo.enqueue
  split
  · exact taskless
  · simpa using taskless

theorem Shared.Taskless.systemHandler {shared : Shared} (taskless : shared.Taskless)
    {event : Event} (owner : ConnectionOwner) : (systemHandler shared event owner).2.Taskless := by
  cases owner with
  | acceptor | client | reader | writer => exact taskless
  | worker =>
      simp only [Aio4c.systemHandler]
      split
      · exact taskless
      · exact taskless.work_close

theorem SharedEffect.taskless {shared after : Shared} {frame : Frame}
    (effect : SharedEffect shared frame after) (unadmitted : frame.admitted = false)
    (taskless : shared.Taskless) : after.Taskless := by
  cases effect with
  | task => cases unadmitted
  | stays => exact taskless.systemHandler _
  | @once event _ owner =>
      have same : Shared.Taskless { shared with
          systemHandlers := shared.systemHandlers.erase (event, owner) } := taskless
      exact same.systemHandler owner
  | retired owner =>
      cases owner with
      | acceptor | reader | writer | client => exact taskless
      | worker => simp [Shared.Taskless, retireStep]
  | quiet | assigned | walked | userCalled | reenqueued | registered | acknowledged | freed
  | dataItem | installed | managed | refused | handed | connected => exact taskless

theorem SharedEffect.called {shared after : Shared} {frame : Frame}
    (effect : SharedEffect shared frame after) : after.called = shared.called ∨
      ∃ event, frame = .userDispatch event ∧ after.called = shared.called ++ [event] := by
  cases effect with
  | userCalled event => exact .inr ⟨event, rfl, rfl⟩
  | @stays event _ owner =>
      left
      obtain ⟨_, _, _, _, same⟩ := systemHandler_queues shared event owner
      rw [same]
  | @once event _ owner =>
      left
      obtain ⟨_, _, _, _, same⟩ := systemHandler_queues { shared with
        systemHandlers := shared.systemHandlers.erase (event, owner) } event owner
      rw [same]
  | retired owner => exact .inl (by cases owner <;> rfl)
  | quiet | assigned | walked | task | reenqueued | registered | acknowledged | freed | dataItem
  | installed | managed | refused | handed | connected => exact .inl rfl

theorem IdleCase.unread {shared after : Shared} {party : Party} {frames : List Frame}
    (idle : IdleCase shared party frames after) (taskless : shared.Taskless) :
    (∀ frame ∈ frames, frame.admitted = false) ∧ after.Taskless := by
  cases idle with
  | task taken =>
      have task : WorkerItem.task ∈ shared.workerQueue.items := by
        rw [(Fifo.dequeue_taken taken).1]
        exact List.mem_cons_self
      exact absurd task taskless
  | workerClose taken =>
      refine ⟨by simp [Frame.admitted], ?_⟩
      intro task
      apply taskless
      rw [(Fifo.dequeue_taken taken).1]
      exact List.mem_cons_of_mem _ task
  | workerDrained missed =>
      refine ⟨by simp, ?_⟩
      intro task
      apply taskless
      rw [← (Fifo.dequeue_missed missed (by simp)).1]
      exact task
  | user alive call => exact ⟨by simpa using call.frame_unread, taskless⟩
  | @clientEvent _ event =>
      refine ⟨?_, taskless⟩
      cases event <;> simp [clientRun, Frame.admitted]
  | clientDrained | data | readerClose | readerEvent | readerDrained | ready | outbound
  | writerClose | writerEvent | writerDrained => exact ⟨by simp [Frame.admitted], taskless⟩

/-- In front of CONNECTED a test of `canRead` fails. -/
theorem AdmittedAfterConnected.refused {pipeline : Pipeline} {action : Party × Choice}
    (allowed : AdmittedAfterConnected pipeline action)
    (early : Event.connected ∉ pipeline.shared.called)
    (tests : (pipeline.calls (pipeline.place action.1)).head? = some .readTest) :
    pipeline.shared.connection.canRead = false := by
  by_contra readable
  exact early (allowed tests (by simpa using readable))

namespace Pipeline.Unread

variable {before after : Pipeline} {action : Party × Choice}

theorem step (unread : before.Unread) (allowed : AdmittedAfterConnected before action)
    (early : Event.connected ∉ before.shared.called) (taken : PipelineStep before action after) :
    after.Unread := by
  have cases := taken.cases
  have calls := cases.frames unread.calls
    (fun frames shared step => ((idleStep_cases step).unread unread.taskless).1)
    (fun target => ⟨rfl, fun event announced => by
      cases target <;> cases announced <;> rfl⟩)
    (fun place frame rest frames shared here top unadmitted step => by
      intro next member
      apply (frameStep_follows step member).unread unadmitted
      intro equal
      subst equal
      exact allowed.refused early (by rw [here, top]; rfl))
  refine ⟨?_, calls⟩
  cases cases with
  | released => exact unread.taskless
  | begun unlocked idle step => exact ((idleStep_cases step).unread unread.taskless).2
  | entered => exact unread.taskless
  | @called place frame rest frames shared here top step =>
      apply (frameStep_effect step).taskless _ unread.taskless
      apply unread.calls place frame
      rw [top]
      exact List.mem_cons_self

end Pipeline.Unread

theorem PipelineStep.called {before after : Pipeline} {action : Party × Choice}
    (taken : PipelineStep before action after) :
    after.shared.called = before.shared.called ∨ ∃ place event,
      .userDispatch event ∈ before.calls place ∧
        after.shared.called = before.shared.called ++ [event] := by
  cases taken.cases with
  | released => exact .inl rfl
  | entered => exact .inl rfl
  | begun unlocked idle step =>
      left
      obtain ⟨_, _, _, _, same⟩ := (idleStep_cases step).queues
      rw [same]
  | @called place frame rest frames shared here top step =>
      rcases (frameStep_effect step).called with same | ⟨event, rfl, same⟩
      · exact .inl same
      · refine .inr ⟨place, event, ?_, same⟩
        rw [top]
        exact List.mem_cons_self

/-- In every run over an accepted or a client's connection in which every admitted read
comes after the call of the user's CONNECTED handler, that handler is called before the
first call of the READ handler. -/
theorem pipeline_connected_first {connection : Connection} {start pipeline : Pipeline}
    (begins : start = acceptedPipeline connection ∨ start = clientPipeline connection)
    {actions : List (Party × Choice)}
    (run : Run (Guarded AdmittedAfterConnected PipelineStep) start actions pipeline) :
    ConnectedFirst pipeline.shared.called := by
  have kept : ConnectedFirst pipeline.shared.called ∧
      (Event.connected ∉ pipeline.shared.called → pipeline.Unread) := by
    apply run.keeps
    · intro before action after holds taken
      obtain ⟨first, unread⟩ := holds
      obtain ⟨allowed, step⟩ := taken
      rcases step.called with same | ⟨place, event, member, same⟩
      · rw [same]
        exact ⟨first, fun early => (unread early).step allowed early step⟩
      · rw [same]
        constructor
        · apply first.snoc
          intro equal
          subst equal
          by_contra early
          have unadmitted := (unread early).calls place _ member
          cases unadmitted
        · intro early
          have early' : Event.connected ∉ before.shared.called :=
            fun known => early (List.mem_append_left _ known)
          exact (unread early').step allowed early' step
    · rcases begins with rfl | rfl
      · refine ⟨?_, fun _ => ⟨by simp [Shared.Taskless, acceptedPipeline, idleShared, Fifo.empty], ?_⟩⟩
        · intro earlier later same
          simp [acceptedPipeline, idleShared] at same
        · intro place frame member
          simp only [acceptedPipeline] at member
          split at member
          · obtain ⟨step, _, rfl⟩ := List.mem_map.mp member
            rfl
          · cases member
      · refine ⟨?_, fun _ => ⟨by simp [Shared.Taskless, clientPipeline, idleShared, Fifo.empty], ?_⟩⟩
        · intro earlier later same
          simp [clientPipeline, idleShared] at same
        · intro place frame member
          simp only [clientPipeline] at member
          split at member
          · cases List.mem_singleton.mp member
            rfl
          · cases member
  exact kept.1

/-- The accepting thread hands a connection over, completes the owners, takes the state
lock and sets the flags. -/
def handedOver : List (Party × Choice) :=
  [(.accepting, .proceed), (.reader, .proceed), (.reader, .proceed), (.reader, .proceed)] ++
    List.replicate 12 (.accepting, .proceed)

def announced : List (Party × Choice) := List.replicate 2 (.accepting, .proceed)

def readAndProcessed : List (Party × Choice) :=
  [(.reader, .ready), (.reader, .recv false), (.reader, .proceed), (.reader, .proceed),
    (.reader, .proceed), (.reader, .proceed), (.worker, .proceed), (.worker, .proceed),
    (.worker, .proceed)]

theorem pipeline_connected_first_accepted :
    let buffer : Buffer := { size := 1, data := [0, 0, 0], position := 0, limit := 1 }
    let connection := newConnection buffer buffer
    ∃ pipeline, Run (Guarded AdmittedAfterConnected PipelineStep) (acceptedPipeline connection)
        (handedOver ++ announced ++ readAndProcessed) pipeline ∧
      pipeline.shared.called = [.connected, .read] ∧ ConnectedFirst pipeline.shared.called := by
  intro buffer connection
  obtain ⟨pipeline, runs, run⟩ := exists_run_of_execute
    (Guarded AdmittedAfterConnected PipelineStep)
    (guardedNext AdmittedAfterConnected fun pipeline action =>
      pipelineStep pipeline action.1 action.2)
    (acceptedPipeline connection) (handedOver ++ announced ++ readAndProcessed)
    (fun _ _ _ taken => guardedNext_sound taken) (by decide +kernel)
  have called : (execute (guardedNext AdmittedAfterConnected fun pipeline action =>
      pipelineStep pipeline action.1 action.2) (acceptedPipeline connection)
        (handedOver ++ announced ++ readAndProcessed)).map (·.shared.called) =
      some [.connected, .read] := by decide +kernel
  rw [runs, Option.map_some, Option.some.injEq] at called
  exact ⟨pipeline, run, called, pipeline_connected_first (.inl rfl) run⟩

/-- A read between the flags and the dispatch of CONNECTED. -/
theorem pipeline_read_first :
    ¬ ∀ (connection : Connection) (actions : List (Party × Choice)) (pipeline : Pipeline),
      Run PipelineStep (acceptedPipeline connection) actions pipeline →
        ConnectedFirst pipeline.shared.called := by
  intro first
  let buffer : Buffer := { size := 1, data := [0, 0, 0], position := 0, limit := 1 }
  let connection := newConnection buffer buffer
  obtain ⟨pipeline, runs, run⟩ := exists_run_of_execute PipelineStep
    (fun pipeline action => pipelineStep pipeline action.1 action.2)
    (acceptedPipeline connection) (handedOver ++ readAndProcessed)
    (fun _ _ _ taken => taken) (by decide +kernel)
  have called : (execute (fun pipeline (action : Party × Choice) =>
      pipelineStep pipeline action.1 action.2) (acceptedPipeline connection)
        (handedOver ++ readAndProcessed)).map (·.shared.called) = some [.read] := by
    decide +kernel
  rw [runs, Option.map_some, Option.some.injEq] at called
  have before := first connection _ pipeline run [] [] called
  cases before

end Aio4c
