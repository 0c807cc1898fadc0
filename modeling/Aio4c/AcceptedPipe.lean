import Aio4c.PipelineSteps

/-! The pipe of an accepted connection. Every call has places at which it may stand,
the handlers are the ones that the hand-over installs, no queue was ended, the client's
parts are not used, and the section under the state lock is empty while the lock is free. -/

set_option autoImplicit false

namespace Aio4c

open TransitionSystem

/-- The system handlers of an accepted connection. -/
def acceptedHandlers : List (Event × ConnectionOwner) :=
  [(.close, .acceptor), (.pendingClose, .reader), (.close, .reader), (.inboundData, .worker),
    (.close, .worker), (.outboundData, .writer), (.close, .writer)]

theorem client_notMem_acceptedHandlers (event : Event) :
    (event, .client) ∉ acceptedHandlers := by
  simp [acceptedHandlers]

theorem acceptor_mem_acceptedHandlers {event : Event}
    (listed : (event, .acceptor) ∈ acceptedHandlers) : event = .close := by
  simpa [acceptedHandlers] using listed

/-- Where an owner answers to CLOSE: the acceptor inside the walk over the handlers, all
others in their own threads. -/
def ConnectionOwner.place : ConnectionOwner → Option Party
  | .acceptor => none
  | .reader => some .reader
  | .worker => some .worker
  | .writer => some .writer
  | .client => some .accepting

/-- The places of the calls of an accepted connection. -/
def Frame.At (place : Option Party) : Frame → Prop
  | .assign _ | .dispatch .close => place = none
  | .dispatch .inboundData | .inboundTest | .inboundEnqueue | .recv | .readTest | .register =>
      place = some .reader
  | .writeTest | .fill | .send | .reenqueue => place = some .writer
  | .taskEnd => place = some .worker
  | .retire owner | .noMoreUsed owner | .free (.noMoreUsed owner) =>
      owner ≠ .client ∧ place = owner.place
  | .handOver .enqueueDataItem => place = some .accepting
  | .handOver (.addSystemHandler event owner) =>
      place = some .accepting ∧ (event, owner) ∈ acceptedHandlers
  | .handOver (.managedBy _) | .handOver .connected =>
      place = some .accepting ∨ place = some .reader
  | .free .unconnected | .connectionInit | .connectTest | .connect | .finishConnect | .closedTest
  | .setConnected | .connectedTest => False
  | _ => True

structure Shared.Accepted (shared : Shared) : Prop where
  handlers : ∀ handler ∈ shared.systemHandlers, handler ∈ acceptedHandlers
  readerQueue : shared.readerQueue.exit = false
  workerQueue : shared.workerQueue.exit = false
  writerQueue : shared.writerQueue.exit = false
  clientQueue : shared.clientQueue.items = []

structure Pipeline.Accepted (pipeline : Pipeline) : Prop where
  shared : pipeline.shared.Accepted
  places : ∀ place, ∀ frame ∈ pipeline.calls place, frame.At place
  unlocked : pipeline.locked = none → pipeline.calls none = []

theorem UserCall.frame_at (call : UserCall) (place : Option Party) : call.frame.At place := by
  cases call with
  | close force => cases force <;> trivial
  | enableWriteInterest => trivial

theorem UserCall.frame_ne {call : UserCall} {frame : Frame} (same : frame = call.frame) :
    (∃ target, frame = .stateTest target) ∨ frame = .interestTest := by
  cases call with
  | close force => cases force <;> exact .inl ⟨_, same⟩
  | enableWriteInterest => exact .inr same

/-- Only the acceptor answers inside a walk. -/
theorem Follows.to_retire {shared : Shared} {frame : Frame} {owner : ConnectionOwner}
    (follows : Follows shared frame (.retire owner)) : owner = .acceptor := by
  generalize same : Frame.retire owner = next at follows
  cases follows with
  | retire =>
      cases same
      rfl
  | userCall call => rcases UserCall.frame_ne same with ⟨_, same⟩ | same <;> cases same
  | _ => cases same

theorem Follows.to_noMoreUsed {shared : Shared} {frame : Frame} {owner : ConnectionOwner}
    (follows : Follows shared frame (.noMoreUsed owner)) :
    frame = .retire owner ∨ owner = .client := by
  generalize same : Frame.noMoreUsed owner = next at follows
  cases follows with
  | noMoreUsed =>
      cases same
      exact .inl rfl
  | clientNoMoreUsed =>
      cases same
      exact .inr rfl
  | userCall call => rcases UserCall.frame_ne same with ⟨_, same⟩ | same <;> cases same
  | _ => cases same

/-- The reader alone registers, and the assignments come with the lock. -/
theorem Follows.unmade {shared : Shared} {frame next : Frame} (follows : Follows shared frame next) :
    next ≠ .register ∧ ∀ target, next ≠ .assign target := by
  cases follows with
  | userCall call =>
      rcases @UserCall.frame_ne call _ rfl with ⟨_, same⟩ | same <;> rw [same] <;> simp
  | _ => simp

/-- The calls that leave something open. -/
def Frame.choosing : Frame → Bool
  | .userHandlers | .recv | .fill | .send | .connectionInit | .connect | .finishConnect => true
  | _ => false

theorem frameStep_fixed {shared : Shared} {frame : Frame} {choice : Choice}
    {result : List Frame × Shared} (fixed : frame.choosing = false)
    (step : frameStep shared frame choice = some result) : proceedStep shared frame = some result := by
  cases choice with
  | proceed => exact step
  | ready => cases step
  | call | recv | fill | opened | connect | finishConnect =>
      simp only [frameStep, Option.ite_none_right_eq_some] at step
      obtain ⟨same, _⟩ := step
      subst same
      cases fixed
  | send unfinished =>
      cases unfinished with
      | none | some =>
          simp only [frameStep, Option.ite_none_right_eq_some] at step
          obtain ⟨same, _⟩ := step
          subst same
          cases fixed

theorem frameStep_dispatch {shared after : Shared} {event : Event} {choice : Choice}
    {frames : List Frame} (step : frameStep shared (.dispatch event) choice = some (frames, after)) :
    dispatchStep shared event = (frames, after) :=
  Option.some.inj (frameStep_fixed rfl step)

theorem find_handler {handlers : List (Event × ConnectionOwner)} {event announced : Event}
    {owner : ConnectionOwner}
    (found : handlers.find? (fun handler => handler.1 = event) = some (announced, owner)) :
    (event, owner) ∈ handlers := by
  have same : announced = event := by simpa using List.find?_some found
  subst same
  exact List.mem_of_find?_eq_some found

theorem systemHandler_at {shared : Shared} {event : Event} {owner : ConnectionOwner}
    {place : Option Party} (listed : (event, owner) ∈ acceptedHandlers)
    (here : (Frame.dispatch event).At place) :
    ∀ frame ∈ (systemHandler shared event owner).1, frame.At place := by
  intro frame member
  cases owner with
  | acceptor =>
      cases List.mem_singleton.mp member
      have closing := acceptor_mem_acceptedHandlers listed
      subst closing
      exact ⟨by simp, here⟩
  | client | reader | writer => cases member
  | worker =>
      simp only [systemHandler] at member
      split at member
      · next inbound =>
          subst inbound
          cases List.mem_singleton.mp member
          exact here
      · cases member

theorem dispatchStep_at {shared : Shared} {event : Event} {place : Option Party}
    (accepted : shared.Accepted) (here : (Frame.dispatch event).At place) :
    ∀ frame ∈ (dispatchStep shared event).1, frame.At place := by
  intro frame member
  unfold dispatchStep at member
  split at member
  · next found =>
      have listed := accepted.handlers _ (find_handler found)
      split at member
      · rcases List.mem_append.mp member with handled | last
        · exact systemHandler_at listed here frame handled
        · cases List.mem_singleton.mp last
          trivial
      · rcases List.mem_append.mp member with handled | last
        · exact systemHandler_at listed here frame handled
        · cases List.mem_singleton.mp last
          exact here
  · cases List.mem_singleton.mp member
    trivial

theorem frameStep_at {shared after : Shared} {frame : Frame} {choice : Choice}
    {frames : List Frame} {place : Option Party} (accepted : shared.Accepted)
    (here : frame.At place) (step : frameStep shared frame choice = some (frames, after)) :
    ∀ next ∈ frames, next.At place := by
  intro next member
  cases frameStep_follows step member with
  | retire | inboundTest | dispatch | userDispatch =>
      have result := frameStep_dispatch step
      apply dispatchStep_at accepted here
      rw [result]
      exact member
  | stateLock | userHandlers | userCalls | outboundData | recvClosing | writeRefused | write
  | sendClosing | connected => trivial
  | userCall call => exact call.frame_at place
  | inboundEnqueue | readTest | inboundData | fill | send | reenqueue | noMoreUsed | free
  | managed => exact here
  | initialized | connect | connectRefused | connects | finishRefused | handOver
  | clientNoMoreUsed | unconnected => cases here

theorem idleStep_at {shared after : Shared} {party : Party} {frames : List Frame}
    (accepted : shared.Accepted) (idle : IdleCase shared party frames after) :
    ∀ frame ∈ frames, frame.At (some party) := by
  intro frame member
  cases idle with
  | clientEvent taken =>
      have items := (Fifo.dequeue_taken taken).1
      rw [accepted.clientQueue] at items
      cases items
  | clientDrained | readerEvent | readerDrained | workerDrained | writerEvent | writerDrained =>
      cases member
  | data =>
      rcases List.mem_cons.mp member with same | last
      · cases same
        rfl
      · cases List.mem_singleton.mp last
        exact .inr rfl
  | readerClose | workerClose | writerClose =>
      cases List.mem_singleton.mp member
      exact ⟨by simp, rfl⟩
  | ready =>
      cases List.mem_singleton.mp member
      rfl
  | task =>
      rcases List.mem_cons.mp member with same | last
      · cases same
        trivial
      · cases List.mem_singleton.mp last
        rfl
  | outbound =>
      cases List.mem_singleton.mp member
      rfl
  | user alive call =>
      cases List.mem_singleton.mp member
      exact call.frame_at _

/-! ## The shared state -/

theorem Shared.Accepted.systemHandler {shared : Shared} (accepted : shared.Accepted) {event : Event}
    {owner : ConnectionOwner} (listed : (event, owner) ∈ acceptedHandlers) :
    (systemHandler shared event owner).2.Accepted := by
  cases owner with
  | acceptor => exact accepted
  | client => exact absurd listed (client_notMem_acceptedHandlers event)
  | reader =>
      exact { accepted with readerQueue := Fifo.push_exit accepted.readerQueue _ }
  | writer =>
      exact { accepted with writerQueue := Fifo.push_exit accepted.writerQueue _ }
  | worker =>
      simp only [Aio4c.systemHandler]
      split
      · exact accepted
      · exact { accepted with workerQueue := Fifo.push_exit accepted.workerQueue _ }

theorem Shared.Accepted.effect {shared after : Shared} (accepted : shared.Accepted) {frame : Frame}
    {place : Option Party} (here : frame.At place) (effect : SharedEffect shared frame after) :
    after.Accepted := by
  cases effect with
  | quiet | refused => exact accepted
  | assigned | walked | userCalled | registered | acknowledged | freed | managed | handed
  | connected => exact { accepted with }
  | stays found => exact accepted.systemHandler (accepted.handlers _ (find_handler found))
  | @once event _ owner found =>
      have fewer : Shared.Accepted { shared with
          systemHandlers := shared.systemHandlers.erase (event, owner) } :=
        { accepted with
          handlers := fun handler member => accepted.handlers handler (List.mem_of_mem_erase member) }
      exact fewer.systemHandler (accepted.handlers _ (find_handler found))
  | task => exact { accepted with workerQueue := Fifo.push_exit accepted.workerQueue _ }
  | reenqueued => exact { accepted with writerQueue := Fifo.push_exit accepted.writerQueue _ }
  | dataItem => exact { accepted with readerQueue := Fifo.push_exit accepted.readerQueue _ }
  | retired owner =>
      cases owner with
      | acceptor | reader | client => exact { accepted with }
      | worker => exact { accepted with workerQueue := accepted.workerQueue }
      | writer => exact { accepted with writerQueue := accepted.writerQueue }
  | installed event owner =>
      refine { accepted with handlers := ?_ }
      intro handler member
      rcases List.mem_append.mp member with earlier | last
      · exact accepted.handlers handler earlier
      · cases List.mem_singleton.mp last
        exact here.2

theorem Shared.Accepted.idle {shared after : Shared} (accepted : shared.Accepted) {party : Party}
    {frames : List Frame} (idle : IdleCase shared party frames after) : after.Accepted := by
  cases idle with
  | ready | user => exact accepted
  | clientEvent taken =>
      have items := (Fifo.dequeue_taken taken).1
      rw [accepted.clientQueue] at items
      cases items
  | clientDrained missed =>
      obtain ⟨items, _⟩ := Fifo.dequeue_missed missed (by simp)
      exact { accepted with clientQueue := items.trans accepted.clientQueue }
  | data taken | readerClose taken | readerEvent _ taken =>
      have exit := (Fifo.dequeue_taken taken).2
      exact { accepted with readerQueue := exit.trans accepted.readerQueue }
  | readerDrained missed =>
      obtain ⟨_, exit, _⟩ := Fifo.dequeue_missed missed (by simp)
      exact { accepted with readerQueue := exit.trans accepted.readerQueue }
  | task taken | workerClose taken =>
      have exit := (Fifo.dequeue_taken taken).2
      exact { accepted with workerQueue := exit.trans accepted.workerQueue }
  | workerDrained missed =>
      obtain ⟨_, exit, _⟩ := Fifo.dequeue_missed missed (by simp)
      exact { accepted with workerQueue := exit.trans accepted.workerQueue }
  | outbound taken | writerClose taken | writerEvent _ taken =>
      have exit := (Fifo.dequeue_taken taken).2
      exact { accepted with writerQueue := exit.trans accepted.writerQueue }
  | writerDrained missed =>
      obtain ⟨_, exit, _⟩ := Fifo.dequeue_missed missed (by simp)
      exact { accepted with writerQueue := exit.trans accepted.writerQueue }

theorem Pipeline.Accepted.step {before after : Pipeline} {action : Party × Choice}
    (accepted : before.Accepted) (taken : PipelineStep before action after) :
    after.Accepted := by
  have places : ∀ place, ∀ frame ∈ after.calls place, frame.At place := by
    apply taken.cases.frames accepted.places
    · intro frames shared step
      exact idleStep_at accepted.shared (idleStep_cases step)
    · intro target
      refine ⟨rfl, fun event announced => ?_⟩
      cases target <;> cases announced <;> trivial
    · intro place frame rest frames shared _ _ here step
      exact frameStep_at accepted.shared here step
  refine ⟨?_, places, ?_⟩
  · cases taken.cases with
    | released => exact accepted.shared
    | begun unlocked idle step => exact accepted.shared.idle (idleStep_cases step)
    | entered unlocked waits => exact { accepted.shared with }
    | @called place frame rest frames shared here top step =>
        apply accepted.shared.effect _ (frameStep_effect step)
        · exact place
        · exact accepted.places place frame (by rw [top]; exact List.mem_cons_self)
  · intro free
    cases taken.cases with
    | released locked done => exact done
    | begun unlocked idle step =>
        have other : none ≠ some action.1 := by simp
        simpa only [Function.update_of_ne other] using accepted.unlocked free
    | entered unlocked waits => cases free
    | @called place frame rest frames shared here top step =>
        have other : none ≠ place := by
          intro same
          subst same
          rw [accepted.unlocked free] at top
          cases top
        simpa only [Function.update_of_ne other] using accepted.unlocked free

theorem acceptedPipeline_accepted (connection : Connection) :
    (acceptedPipeline connection).Accepted := by
  constructor
  · constructor
    · intro handler member
      cases List.mem_singleton.mp member
      decide
    · rfl
    · rfl
    · rfl
    · rfl
  · intro place frame member
    simp only [acceptedPipeline] at member
    split at member
    · next accepting =>
        subst accepting
        obtain ⟨step, listed, rfl⟩ := List.mem_map.mp member
        revert step
        simp [readerManageConnection, workerManageConnection, writerManageConnection, Frame.At,
          acceptedHandlers]
    · cases member
  · intro _
    rfl

end Aio4c
