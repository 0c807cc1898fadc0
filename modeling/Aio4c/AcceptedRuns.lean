import Aio4c.AcceptedRelease
import Aio4c.ClientRelease
import Aio4c.ConnectedFirst

/-! The runs of an accepted connection in which no walk of CLOSE comes to its end too
early: once closed and quiet, the connection is released. -/

set_option autoImplicit false

namespace Aio4c

open TransitionSystem

/-- A walk over the handlers of CLOSE comes to its end with all of them installed. -/
def ClosedInstalled (pipeline : Pipeline) (action : Party × Choice) : Prop :=
  (pipeline.calls (pipeline.place action.1)).head? = some (.dispatch .close) →
    pipeline.shared.systemHandlers.find? (fun handler => handler.1 = .close) = none →
    pipeline.shared.installed = true

instance (pipeline : Pipeline) (action : Party × Choice) :
    Decidable (ClosedInstalled pipeline action) :=
  inferInstanceAs (Decidable (_ → _ → _))

/-- A connection that the acceptor hands over: nobody but the client, which it has none
of, acknowledged, and nobody closed it. -/
structure Connection.Fresh (connection : Connection) : Prop where
  closedBy : ∀ owner, connection.closedBy owner = decide (owner = .client)
  opened : .close ∉ connection.events

theorem connectionFactoryCreate_fresh {readBuffer writeBuffer : Buffer} {socket : Int}
    {nonblocking : Bool} {connection : Connection}
    (created : connectionFactoryCreate readBuffer writeBuffer socket nonblocking =
      some connection) : (setState connection .initialized).Fresh := by
  simp only [connectionFactoryCreate, Option.ite_none_right_eq_some, Option.some.injEq] at created
  obtain ⟨_, rfl⟩ := created
  refine ⟨fun owner => rfl, ?_⟩
  simp [setState, newConnection, stateEvent]

/-- A connection that was closed has a walk of CLOSE in front of it or behind it. -/
structure Pipeline.Announces (pipeline : Pipeline) : Prop where
  entered : ∀ target, .assign target ∈ pipeline.calls none →
    pipeline.calls none = .assign target :: (stateEvent target).toList.map .dispatch
  closed : .close ∈ pipeline.shared.connection.events →
    .dispatch .close ∈ pipeline.calls none ∨ pipeline.shared.covered = true

theorem SharedEffect.events {shared after : Shared} {frame : Frame}
    (effect : SharedEffect shared frame after) :
    after.connection.events = shared.connection.events ∨ ∃ target, frame = .assign target ∧
      after.connection.events = shared.connection.events ++ (stateEvent target).toList := by
  cases effect with
  | assigned target => exact .inr ⟨target, rfl, rfl⟩
  | @stays event _ owner =>
      obtain ⟨_, _, _, _, same⟩ := systemHandler_queues shared event owner
      rw [same]
      exact .inl rfl
  | @once event _ owner =>
      obtain ⟨_, _, _, _, same⟩ := systemHandler_queues { shared with
        systemHandlers := shared.systemHandlers.erase (event, owner) } event owner
      rw [same]
      exact .inl rfl
  | retired owner => cases owner <;> exact .inl rfl
  | acknowledged owner =>
      left
      simp only [connectionNoMoreUsed]
      split <;> rfl
  | managed owner =>
      left
      simp only [connectionManage]
  | quiet | walked | userCalled | task | reenqueued | registered | freed | dataItem | installed
  | refused | handed | connected => exact .inl rfl

theorem SharedEffect.covered {shared after : Shared} {frame : Frame}
    (effect : SharedEffect shared frame after) (covered : shared.covered = true) :
    after.covered = true := by
  cases effect with
  | @stays event _ owner =>
      obtain ⟨_, _, _, _, same⟩ := systemHandler_queues shared event owner
      rw [same]
      exact covered
  | @once event _ owner =>
      obtain ⟨_, _, _, _, same⟩ := systemHandler_queues { shared with
        systemHandlers := shared.systemHandlers.erase (event, owner) } event owner
      rw [same]
      exact covered
  | walked => simp [covered]
  | retired owner => cases owner <;> exact covered
  | quiet | assigned | userCalled | task | reenqueued | registered | acknowledged | freed
  | dataItem | installed | managed | refused | handed | connected => exact covered

theorem stateEvent_close {target : ConnectionState} (closes : stateEvent target = some .close) :
    target = .closed := by
  cases target <;> cases closes
  rfl

theorem Pipeline.Announces.called {before : Pipeline} (announces : before.Announces)
    (accepted : before.Accepted) {place : Option Party} {frame : Frame} {rest frames : List Frame}
    {shared : Shared} {choice : Choice} (top : before.calls place = frame :: rest)
    (installed : frame = .dispatch .close →
      before.shared.systemHandlers.find? (fun handler => handler.1 = .close) = none →
      before.shared.installed = true)
    (step : frameStep before.shared frame choice = some (frames, shared)) :
    Pipeline.Announces { before with
      shared, calls := Function.update before.calls place (frames ++ rest) } := by
  have effect := frameStep_effect step
  have here := accepted.places place frame (by rw [top]; exact List.mem_cons_self)
  have walks (walk : .dispatch .close ∈ before.calls none ∨ before.shared.covered = true) :
      .dispatch .close ∈ Function.update before.calls place (frames ++ rest) none ∨
        shared.covered = true := by
    rcases walk with walk | covered
    · by_cases closes : frame = .dispatch .close
      · subst closes
        have locked : place = none := here
        subst locked
        have made := frameStep_dispatch step
        cases found : before.shared.systemHandlers.find? (fun handler => handler.1 = .close) with
        | none =>
            right
            simp only [dispatchStep, found, Prod.mk.injEq] at made
            rw [← made.2, installed rfl found]
            simp
        | some handler =>
            left
            simp only [dispatchStep, found, Prod.mk.injEq, reduceCtorEq, or_self,
              if_false] at made
            rw [Function.update_self, ← made.1]
            simp
      · exact .inl (mem_kept top walk (Ne.symm closes))
    · exact .inr (effect.covered covered)
  constructor
  · intro target member
    rcases mem_called top member with ⟨_, made⟩ | kept
    · exact absurd rfl ((frameStep_follows step made).unmade.2 target)
    · by_cases locked : none = place
      · subst locked
        have whole := announces.entered target kept
        rw [top] at whole
        obtain ⟨rfl, rfl⟩ := List.cons.inj whole
        simp only [Function.update_self] at member
        rcases List.mem_append.mp member with made | listed
        · exact absurd rfl ((frameStep_follows step made).unmade.2 target)
        · simp at listed
      · simp only [Function.update_of_ne locked]
        exact announces.entered target kept
  · intro closed
    rcases effect.events with same | ⟨target, rfl, more⟩
    · exact walks (announces.closed (same ▸ closed))
    · simp only [more] at closed
      rcases List.mem_append.mp closed with earlier | now
      · exact walks (announces.closed earlier)
      · have target_closed := stateEvent_close (Option.mem_toList.mp now)
        subst target_closed
        have locked : place = none := here
        subst locked
        apply walks
        left
        rw [announces.entered .closed (by rw [top]; exact List.mem_cons_self)]
        simp [stateEvent]

theorem Pipeline.Announces.step {before after : Pipeline} (announces : before.Announces)
    (accepted : before.Accepted) {action : Party × Choice}
    (allowed : ClosedInstalled before action) (taken : PipelineStep before action after) :
    after.Announces := by
  cases taken.cases with
  | released => exact ⟨announces.entered, announces.closed⟩
  | @begun frames shared unlocked idle step =>
      have other : none ≠ some action.1 := by simp
      obtain ⟨_, _, _, _, rfl⟩ := (idleStep_cases step).queues
      constructor
      · simp only [Function.update_of_ne other]
        exact announces.entered
      · simp only [Function.update_of_ne other]
        exact announces.closed
  | @entered target rest unlocked waits =>
      constructor
      · intro assigned member
        simp only [Function.update_self] at member ⊢
        rcases List.mem_cons.mp member with same | listed
        · rw [Frame.assign.inj same]
        · simp at listed
      · intro closed
        right
        rcases announces.closed closed with walk | covered
        · rw [accepted.unlocked unlocked] at walk
          cases walk
        · exact covered
  | @called place frame rest frames shared here top step =>
      apply announces.called accepted top _ step
      intro equal
      subst equal
      apply allowed
      rw [here, top]
      rfl

theorem acceptedPipeline_announces {connection : Connection} (fresh : connection.Fresh) :
    (acceptedPipeline connection).Announces where
  entered target member := by cases member
  closed closed := absurd closed fresh.opened

/-- In every run over an accepted connection in which each walk of CLOSE comes to its end
with all handlers of CLOSE installed, a connection that was closed is released exactly once,
and has no key of the reader left, when everything has come to rest. -/
theorem acceptedPipeline_freed_once {connection : Connection} (fresh : connection.Fresh)
    {actions : List (Party × Choice)} {pipeline : Pipeline}
    (run : Run (Guarded ClosedInstalled PipelineStep) (acceptedPipeline connection) actions pipeline)
    (quiescent : pipeline.Quiescent) (closed : .close ∈ pipeline.shared.connection.events) :
    pipeline.shared.freed.length = 1 ∧ pipeline.shared.readKey = false := by
  have kept : pipeline.Releases ∧ pipeline.Announces := by
    apply run.keeps
    · intro before action after holds taken
      obtain ⟨releases, announces⟩ := holds
      exact ⟨releases.step taken.2,
        announces.step releases.accounted.accepted taken.1 taken.2⟩
    · exact ⟨⟨acceptedPipeline_accounted fresh.closedBy, acceptedPipeline_handsOver connection,
        acceptedPipeline_registers connection⟩, acceptedPipeline_announces fresh⟩
  obtain ⟨releases, announces⟩ := kept
  apply (releases.freed_iff quiescent).mpr
  rcases announces.closed closed with walk | covered
  · rw [quiescent.idle] at walk
    cases walk
  · exact covered

/-! ## Runs of the threads -/

/-- A party only makes calls of its own and of the section under the lock. -/
theorem PipelineStep.calls_of_ne {before after : Pipeline} {action : Party × Choice}
    (taken : PipelineStep before action after) {party : Party} (other : action.1 ≠ party) :
    after.calls (some party) = before.calls (some party) := by
  have differs : some party ≠ some action.1 := fun same => other (Option.some.inj same).symm
  cases taken.cases with
  | released => rfl
  | begun => exact Function.update_of_ne differs _ _
  | entered =>
      simp only [Function.update_of_ne (Option.some_ne_none party), Function.update_of_ne differs]
  | called here =>
      apply Function.update_of_ne
      intro equal
      subst equal
      unfold Pipeline.place at here
      split at here
      · cases here
      · exact differs here.symm

/-- The threads have nothing to do. -/
def Pipeline.Drained (pipeline : Pipeline) : Prop :=
  (∀ place ∈ ownedPlaces, pipeline.calls place = []) ∧ pipeline.locked = none ∧
    pipeline.shared.acceptorQueue.items = [] ∧ pipeline.shared.readerQueue.items = [] ∧
    pipeline.shared.workerQueue.items = [] ∧ pipeline.shared.writerQueue.items = []

instance (pipeline : Pipeline) : Decidable pipeline.Drained :=
  inferInstanceAs (Decidable (_ ∧ _))

/-- Where nobody but the threads took a step, all is quiet when they are. -/
theorem Pipeline.Drained.quiescent {step : Pipeline → Party × Choice → Pipeline → Prop}
    (steps : ∀ before action after, step before action after → PipelineStep before action after)
    {connection : Connection} {actions : List (Party × Choice)} {pipeline : Pipeline}
    (run : Run step (acceptedPipeline connection) actions pipeline)
    (threads : ∀ action ∈ actions, some action.1 ∈ ownedPlaces) (drained : pipeline.Drained) :
    pipeline.Quiescent := by
  obtain ⟨idle, unlocked, acceptorQueue, readerQueue, workerQueue, writerQueue⟩ := drained
  have users : ∀ id, pipeline.calls (some (.user id)) = [] := by
    intro id
    apply run.keeps_allowed threads
    · intro before action after thread idle taken
      have other : action.1 ≠ .user id := by
        intro same
        rw [same] at thread
        simp [ownedPlaces] at thread
      rw [(steps before action after taken).calls_of_ne other, idle]
    · rfl
  refine ⟨fun place => ?_, unlocked, acceptorQueue, readerQueue, workerQueue, writerQueue⟩
  cases place with
  | none => exact idle none (by decide)
  | some party =>
      cases party with
      | user id => exact users id
      | accepting | reader | worker | writer => exact idle _ (by decide)

/-- Hand-over and close of an accepted connection: CONNECTED is announced, the reader finds
the end of the stream, and the three other owners answer to CLOSE behind the acceptor. -/
def acceptedAndClosed : List (Party × Choice) :=
  handedOver ++ proceeds .accepting 4 ++ readerCloses 6 ++ proceeds .reader 4 ++
    proceeds .worker 4 ++ proceeds .writer 5

theorem acceptedPipeline_freed_once_by_writer :
    let buffer : Buffer := { size := 1, data := [0, 0, 0], position := 0, limit := 1 }
    ∃ connection, connectionFactoryCreate buffer buffer 3 true = some connection ∧
      ∃ pipeline, Run (Guarded ClosedInstalled PipelineStep)
          (acceptedPipeline (setState connection .initialized)) acceptedAndClosed pipeline ∧
        pipeline.Quiescent ∧ .close ∈ pipeline.shared.connection.events ∧
        pipeline.shared.freed.length = 1 ∧ pipeline.shared.readKey = false := by
  intro buffer
  let created : Connection := { newConnection buffer buffer with
    socket := 3, closedBy := fun owner => decide (owner = .client) }
  have made : connectionFactoryCreate buffer buffer 3 true = some created := rfl
  let connection := setState created .initialized
  obtain ⟨pipeline, runs, run⟩ := exists_run_of_execute (Guarded ClosedInstalled PipelineStep)
    (guardedNext ClosedInstalled fun pipeline action => pipelineStep pipeline action.1 action.2)
    (acceptedPipeline connection) acceptedAndClosed (fun _ _ _ taken => guardedNext_sound taken)
    (by decide +kernel)
  have final : (execute (guardedNext ClosedInstalled fun pipeline action =>
      pipelineStep pipeline action.1 action.2) (acceptedPipeline connection)
        acceptedAndClosed).map (fun pipeline => (decide pipeline.Drained,
          decide (.close ∈ pipeline.shared.connection.events))) = some (true, true) := by
    decide +kernel
  rw [runs, Option.map_some, Option.some.injEq, Prod.mk.injEq, decide_eq_true_iff,
    decide_eq_true_iff] at final
  have quiescent := final.1.quiescent (fun _ _ _ taken => taken.2) run (by decide)
  exact ⟨created, made, pipeline, run, quiescent, final.2,
    acceptedPipeline_freed_once (connectionFactoryCreate_fresh made) run quiescent final.2⟩

/-- The reader finds the end of the stream when only its own handlers are installed; the
worker and the writer are never told. -/
theorem acceptedPipeline_never_freed :
    ¬ ∀ (connection : Connection) (actions : List (Party × Choice)) (pipeline : Pipeline),
      connection.Fresh → Run PipelineStep (acceptedPipeline connection) actions pipeline →
      pipeline.Quiescent → .close ∈ pipeline.shared.connection.events →
      pipeline.shared.freed.length = 1 ∧ pipeline.shared.readKey = false := by
  intro released
  let buffer : Buffer := { size := 1, data := [0, 0, 0], position := 0, limit := 1 }
  let created : Connection := { newConnection buffer buffer with
    socket := 3, closedBy := fun owner => decide (owner = .client) }
  have made : connectionFactoryCreate buffer buffer 3 true = some created := rfl
  let connection := setState created .initialized
  have fresh : connection.Fresh := connectionFactoryCreate_fresh made
  let actions := proceeds .accepting 1 ++ proceeds .reader 3 ++ proceeds .accepting 2 ++
    readerCloses 4 ++ proceeds .reader 4 ++ proceeds .accepting 14
  obtain ⟨pipeline, runs, run⟩ := exists_run_of_execute PipelineStep
    (fun pipeline action => pipelineStep pipeline action.1 action.2)
    (acceptedPipeline connection) actions (fun _ _ _ taken => taken) (by decide +kernel)
  have final : (execute (fun pipeline (action : Party × Choice) =>
      pipelineStep pipeline action.1 action.2) (acceptedPipeline connection) actions).map
        (fun pipeline => (decide pipeline.Drained,
          decide (.close ∈ pipeline.shared.connection.events), pipeline.shared.freed)) =
      some (true, true, []) := by decide +kernel
  rw [runs, Option.map_some, Option.some.injEq, Prod.mk.injEq, Prod.mk.injEq, decide_eq_true_iff,
    decide_eq_true_iff] at final
  obtain ⟨drained, closed, unfreed⟩ := final
  have quiescent := drained.quiescent (fun _ _ _ taken => taken) run (by decide)
  have once := (released connection actions pipeline fresh run quiescent closed).1
  rw [unfreed] at once
  cases once

end Aio4c
