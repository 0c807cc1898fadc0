import Aio4c.Pipeline

/-! What one step of the pipe can do: it releases or takes the state lock, begins the
calls of an idle party, or makes the innermost call of one place. -/

set_option autoImplicit false

namespace Aio4c

open TransitionSystem

inductive PipelineCase (before : Pipeline) (party : Party) (choice : Choice) : Pipeline → Prop where
  | released (locked : before.locked = some party) (done : before.calls none = []) :
      PipelineCase before party choice { before with locked := none }
  | begun {frames : List Frame} {shared : Shared} (unlocked : before.locked ≠ some party)
      (idle : before.calls (some party) = [])
      (step : idleStep before.shared party choice = some (frames, shared)) :
      PipelineCase before party choice
        { before with shared, calls := Function.update before.calls (some party) frames }
  | entered {target : ConnectionState} {rest : List Frame} (unlocked : before.locked = none)
      (waits : before.calls (some party) = .stateLock target :: rest) :
      PipelineCase before party choice
        { shared := { before.shared with
            connection := { before.shared.connection with state := target } }
          locked := some party
          calls := Function.update (Function.update before.calls (some party) rest) none
            (.assign target :: (stateEvent target).toList.map .dispatch) }
  | called {place : Option Party} {frame : Frame} {rest frames : List Frame} {shared : Shared}
      (here : before.place party = place) (top : before.calls place = frame :: rest)
      (step : frameStep before.shared frame choice = some (frames, shared)) :
      PipelineCase before party choice
        { before with shared, calls := Function.update before.calls place (frames ++ rest) }

theorem Pipeline.place_of_unlocked {pipeline : Pipeline} {party : Party}
    (unlocked : pipeline.locked ≠ some party) : pipeline.place party = some party :=
  if_neg unlocked

theorem Pipeline.place_of_locked {pipeline : Pipeline} {party : Party}
    (locked : pipeline.locked = some party) : pipeline.place party = none :=
  if_pos locked

theorem PipelineStep.cases {before after : Pipeline} {action : Party × Choice}
    (step : PipelineStep before action after) :
    PipelineCase before action.1 action.2 after := by
  obtain ⟨party, choice⟩ := action
  simp only [PipelineStep, pipelineStep] at step
  cases top : before.calls (before.place party) with
  | nil =>
      simp only [top] at step
      by_cases locked : before.locked = some party
      · rw [if_pos locked, Option.some.injEq] at step
        subst step
        rw [Pipeline.place_of_locked locked] at top
        exact .released locked top
      · rw [if_neg locked, Option.map_eq_some_iff] at step
        obtain ⟨⟨frames, shared⟩, result, rfl⟩ := step
        rw [Pipeline.place_of_unlocked locked] at top
        exact .begun locked top result
  | cons frame rest =>
      by_cases waits : ∃ target, frame = .stateLock target
      · obtain ⟨target, rfl⟩ := waits
        simp only [top] at step
        split at step
        · next ready =>
            cases step
            rw [Pipeline.place_of_unlocked (by rw [ready.1]; simp)] at top
            exact .entered ready.1 top
        · cases step
      · have result : (frameStep before.shared frame choice).map (fun made =>
            ({ before with
              shared := made.2
              calls := Function.update before.calls (before.place party) (made.1 ++ rest) } :
                Pipeline)) = some after := by
          cases frame with
          | stateLock target => exact absurd ⟨target, rfl⟩ waits
          | stateTest | assign | dispatch | userDispatch | userHandlers | inboundTest
          | inboundEnqueue | interestTest | recv | readTest | writeTest | fill | send | reenqueue
          | taskEnd | register | retire | noMoreUsed | free | handOver | connectionInit
          | connectTest | connect | finishConnect | closedTest | setConnected | connectedTest =>
              simpa only [top] using step
        rw [Option.map_eq_some_iff] at result
        obtain ⟨⟨frames, shared⟩, result, rfl⟩ := result
        exact .called rfl top result

/-! ## Which calls there are behind a step -/

theorem mem_begun {calls : Option Party → List Frame} {place other : Option Party}
    {frames : List Frame} {next : Frame}
    (member : next ∈ Function.update calls place frames other) :
    other = place ∧ next ∈ frames ∨ next ∈ calls other := by
  by_cases same : other = place
  · subst same
    rw [Function.update_self] at member
    exact .inl ⟨rfl, member⟩
  · rw [Function.update_of_ne same] at member
    exact .inr member

theorem mem_called {calls : Option Party → List Frame} {place other : Option Party}
    {frame next : Frame} {rest frames : List Frame} (top : calls place = frame :: rest)
    (member : next ∈ Function.update calls place (frames ++ rest) other) :
    other = place ∧ next ∈ frames ∨ next ∈ calls other := by
  rcases mem_begun member with ⟨rfl, begun⟩ | kept
  · rcases List.mem_append.mp begun with made | left
    · exact .inl ⟨rfl, made⟩
    · right
      rw [top]
      exact List.mem_cons_of_mem _ left
  · exact .inr kept

/-- A call other than the innermost one of its place stays. -/
theorem mem_kept {calls : Option Party → List Frame} {place other : Option Party}
    {frame next : Frame} {rest frames : List Frame} (top : calls place = frame :: rest)
    (member : next ∈ calls other) (differs : next ≠ frame) :
    next ∈ Function.update calls place (frames ++ rest) other := by
  by_cases same : other = place
  · subst same
    rw [top] at member
    rw [Function.update_self]
    exact List.mem_append_right _ ((List.mem_cons.mp member).resolve_left differs)
  · rw [Function.update_of_ne same]
    exact member

theorem mem_entered {calls : Option Party → List Frame} {party : Party} {other : Option Party}
    {target : ConnectionState} {rest : List Frame} {next : Frame}
    (waits : calls (some party) = .stateLock target :: rest)
    (member : next ∈ Function.update (Function.update calls (some party) rest) none
      (.assign target :: (stateEvent target).toList.map .dispatch) other) :
    other = none ∧ (next = .assign target ∨
        ∃ event, stateEvent target = some event ∧ next = .dispatch event) ∨
      next ∈ calls other := by
  rcases mem_begun member with ⟨rfl, begun⟩ | kept
  · left
    refine ⟨rfl, ?_⟩
    rcases List.mem_cons.mp begun with rfl | listed
    · exact .inl rfl
    · obtain ⟨event, announced, rfl⟩ := List.mem_map.mp listed
      exact .inr ⟨event, Option.mem_toList.mp announced, rfl⟩
  · right
    rcases mem_begun kept with ⟨rfl, left⟩ | kept
    · rw [waits]
      exact List.mem_cons_of_mem _ left
    · exact kept

/-- What holds of every call at its place, when a step keeps it for the calls it makes. -/
theorem PipelineCase.frames {before after : Pipeline} {party : Party} {choice : Choice}
    (step : PipelineCase before party choice after) {allowed : Option Party → Frame → Prop}
    (holds : ∀ place, ∀ frame ∈ before.calls place, allowed place frame)
    (begins : ∀ frames shared, idleStep before.shared party choice = some (frames, shared) →
      ∀ frame ∈ frames, allowed (some party) frame)
    (enters : ∀ target, allowed none (.assign target) ∧
      ∀ event, stateEvent target = some event → allowed none (.dispatch event))
    (calls : ∀ place frame rest frames shared, before.place party = place →
      before.calls place = frame :: rest → allowed place frame →
      frameStep before.shared frame choice = some (frames, shared) →
      ∀ frame ∈ frames, allowed place frame) :
    ∀ place, ∀ frame ∈ after.calls place, allowed place frame := by
  cases step with
  | released => exact holds
  | begun unlocked idle step =>
      intro place frame member
      rcases mem_begun member with ⟨rfl, begun⟩ | kept
      · exact begins _ _ step frame begun
      · exact holds place frame kept
  | @entered target rest unlocked waits =>
      intro place frame member
      rcases mem_entered waits member with ⟨rfl, rfl | ⟨event, announced, rfl⟩⟩ | kept
      · exact (enters target).1
      · exact (enters target).2 event announced
      · exact holds place frame kept
  | @called place' top rest frames shared here waits step =>
      intro place frame member
      rcases mem_called waits member with ⟨rfl, made⟩ | kept
      · apply calls place top rest frames shared here waits _ step frame made
        apply holds place top
        rw [waits]
        exact List.mem_cons_self
      · exact holds place frame kept

/-! ## What one call does to the shared state -/

/-- The calls that change nothing but the calls behind them. -/
def Frame.quiet : Frame → Bool
  | .stateTest _ | .stateLock _ | .userHandlers | .inboundTest | .interestTest | .recv | .readTest
  | .writeTest | .fill | .send | .taskEnd | .handOver .connected | .connectionInit | .connectTest
  | .connect | .finishConnect | .connectedTest => true
  | _ => false

/-- The shared state behind one step of a call. -/
inductive SharedEffect (shared : Shared) : Frame → Shared → Prop where
  | quiet {frame : Frame} (quiet : frame.quiet = true) : SharedEffect shared frame shared
  | assigned (target : ConnectionState) :
      SharedEffect shared (.assign target)
        { shared with connection := setState shared.connection target }
  | stays {event announced : Event} {owner : ConnectionOwner}
      (found : shared.systemHandlers.find? (fun handler => handler.1 = event) =
        some (announced, owner))
      (data : event = .inboundData ∨ event = .outboundData) :
      SharedEffect shared (.dispatch event) (systemHandler shared event owner).2
  | once {event announced : Event} {owner : ConnectionOwner}
      (found : shared.systemHandlers.find? (fun handler => handler.1 = event) =
        some (announced, owner))
      (other : ¬ (event = .inboundData ∨ event = .outboundData)) :
      SharedEffect shared (.dispatch event) (systemHandler { shared with
        systemHandlers := shared.systemHandlers.erase (event, owner) } event owner).2
  | walked {event : Event}
      (found : shared.systemHandlers.find? (fun handler => handler.1 = event) = none) :
      SharedEffect shared (.dispatch event) { shared with
        covered := shared.covered || (decide (event = .close) && shared.installed) }
  | userCalled (event : Event) :
      SharedEffect shared (.userDispatch event) { shared with called := shared.called ++ [event] }
  | task : SharedEffect shared .inboundEnqueue (shared.work .task)
  | reenqueued : SharedEffect shared .reenqueue (shared.write .outboundData)
  | registered : SharedEffect shared .register { shared with readKey := true }
  | retired (owner : ConnectionOwner) :
      SharedEffect shared (.retire owner) (retireStep shared owner)
  | acknowledged (owner : ConnectionOwner) :
      SharedEffect shared (.noMoreUsed owner) { shared with
        connection := (connectionNoMoreUsed shared.connection owner).2
        acknowledged := shared.acknowledged ++
          [(owner, (connectionNoMoreUsed shared.connection owner).1)] }
  | freed (cause : FreeCause) :
      SharedEffect shared (.free cause) { shared with freed := shared.freed ++ [cause] }
  | dataItem : SharedEffect shared (.handOver .enqueueDataItem) (shared.read .data)
  | installed (event : Event) (owner : ConnectionOwner) :
      SharedEffect shared (.handOver (.addSystemHandler event owner)) { shared with
        systemHandlers := shared.systemHandlers ++ [(event, owner)]
        installed := shared.installed || decide ((event, owner) = (.close, .writer)) }
  | managed (owner : ConnectionOwner) :
      SharedEffect shared (.handOver (.managedBy owner)) { shared with
        connection := (connectionManage shared.connection owner).2 }
  | refused (closed : shared.connection.state = .closed) : SharedEffect shared .closedTest shared
  | handed (opened : shared.connection.state ≠ .closed) :
      SharedEffect shared .closedTest { shared with handed := true }
  | connected : SharedEffect shared .setConnected { shared with connected := true }

theorem dispatchStep_effect (shared : Shared) (event : Event) :
    SharedEffect shared (.dispatch event) (dispatchStep shared event).2 := by
  unfold dispatchStep
  split
  · next found =>
      split
      · next data => exact .stays found data
      · next other => exact .once found other
  · next found => exact .walked found

theorem proceedStep_effect {shared after : Shared} {frame : Frame} {frames : List Frame}
    (step : proceedStep shared frame = some (frames, after)) : SharedEffect shared frame after := by
  cases frame with
  | dispatch event =>
      have effect := dispatchStep_effect shared event
      rw [Option.some.inj step] at effect
      exact effect
  | stateLock | recv | fill | send | connectionInit | connect | finishConnect => cases step
  | stateTest | userHandlers | inboundTest | interestTest | readTest | writeTest | taskEnd
  | connectTest | connectedTest =>
      cases step
      exact .quiet rfl
  | assign target =>
      cases step
      exact .assigned target
  | userDispatch event =>
      cases step
      exact .userCalled event
  | inboundEnqueue =>
      cases step
      exact .task
  | reenqueue =>
      cases step
      exact .reenqueued
  | register =>
      cases step
      exact .registered
  | retire owner =>
      cases step
      exact .retired owner
  | noMoreUsed owner =>
      cases step
      exact .acknowledged owner
  | free cause =>
      cases step
      exact .freed cause
  | setConnected =>
      cases step
      exact .connected
  | closedTest =>
      simp only [proceedStep] at step
      split at step
      · next closed =>
          cases step
          exact .refused closed
      · next opened =>
          cases step
          exact .handed opened
  | handOver handOver =>
      cases handOver with
      | enqueueDataItem =>
          cases step
          exact .dataItem
      | addSystemHandler event owner =>
          cases step
          exact .installed event owner
      | managedBy owner =>
          cases step
          exact .managed owner
      | connected =>
          cases step
          exact .quiet rfl

theorem frameStep_effect {shared after : Shared} {frame : Frame} {choice : Choice}
    {frames : List Frame} (step : frameStep shared frame choice = some (frames, after)) :
    SharedEffect shared frame after := by
  cases choice with
  | proceed => exact proceedStep_effect step
  | ready => cases step
  | call | recv | fill | opened | connect | finishConnect =>
      simp only [frameStep, Option.ite_none_right_eq_some, Option.some.injEq, Prod.mk.injEq] at step
      obtain ⟨rfl, _, rfl⟩ := step
      exact .quiet rfl
  | send unfinished =>
      cases unfinished with
      | none | some =>
          simp only [frameStep, Option.ite_none_right_eq_some, Option.some.injEq,
            Prod.mk.injEq] at step
          obtain ⟨rfl, _, rfl⟩ := step
          exact .quiet rfl

theorem systemHandler_queues (shared : Shared) (event : Event) (owner : ConnectionOwner) :
    ∃ clientQueue readerQueue workerQueue writerQueue, (systemHandler shared event owner).2 =
      { shared with clientQueue, readerQueue, workerQueue, writerQueue } := by
  cases owner with
  | acceptor => exact ⟨_, _, _, _, rfl⟩
  | client => exact ⟨_, _, _, _, rfl⟩
  | reader => exact ⟨_, _, _, _, rfl⟩
  | writer => exact ⟨_, _, _, _, rfl⟩
  | worker =>
      simp only [systemHandler]
      split
      · exact ⟨_, _, _, _, rfl⟩
      · exact ⟨_, _, _, _, rfl⟩

theorem SharedEffect.frees {before after : Shared} {frame : Frame}
    (effect : SharedEffect before frame after) : after.freed = before.freed ∨
      ∃ cause, frame = .free cause ∧ after.freed = before.freed ++ [cause] := by
  cases effect with
  | freed cause => exact .inr ⟨cause, rfl, rfl⟩
  | @stays event _ owner =>
      left
      obtain ⟨_, _, _, _, same⟩ := systemHandler_queues before event owner
      rw [same]
  | @once event _ owner =>
      left
      obtain ⟨_, _, _, _, same⟩ := systemHandler_queues { before with
        systemHandlers := before.systemHandlers.erase (event, owner) } event owner
      rw [same]
  | retired owner => exact .inl (by cases owner <;> rfl)
  | quiet | assigned | walked | userCalled | task | reenqueued | registered | acknowledged
  | dataItem | installed | managed | refused | handed | connected => exact .inl rfl

/-! ## Which calls one call makes -/

/-- The calls that may take the place of a call. -/
inductive Follows (shared : Shared) : Frame → Frame → Prop where
  | stateLock {target : ConnectionState} (differs : shared.connection.state ≠ target) :
      Follows shared (.stateTest target) (.stateLock target)
  | retire (event : Event) : Follows shared (.dispatch event) (.retire .acceptor)
  | inboundTest : Follows shared (.dispatch .inboundData) .inboundTest
  | dispatch {event : Event} (other : ¬ (event = .inboundData ∨ event = .outboundData)) :
      Follows shared (.dispatch event) (.dispatch event)
  | userDispatch (event : Event) : Follows shared (.dispatch event) (.userDispatch event)
  | userHandlers (event : Event) : Follows shared (.userDispatch event) .userHandlers
  | userCall (call : UserCall) : Follows shared .userHandlers call.frame
  | userCalls : Follows shared .userHandlers .userHandlers
  | inboundEnqueue (opened : shared.connection.state ≠ .closed) :
      Follows shared .inboundTest .inboundEnqueue
  | outboundData (writable : shared.connection.canWrite = true) :
      Follows shared .interestTest (.dispatch .outboundData)
  | recvClosing : Follows shared .recv (.stateTest .closed)
  | readTest : Follows shared .recv .readTest
  | inboundData (readable : shared.connection.canRead = true) :
      Follows shared .readTest (.dispatch .inboundData)
  | fill (writable : shared.connection.canWrite = true) : Follows shared .writeTest .fill
  | writeRefused : Follows shared .writeTest (.stateTest .closed)
  | write : Follows shared .fill (.dispatch .write)
  | send : Follows shared .fill .send
  | sendClosing : Follows shared .send (.stateTest .closed)
  | reenqueue : Follows shared .send .reenqueue
  | noMoreUsed (owner : ConnectionOwner) : Follows shared (.retire owner) (.noMoreUsed owner)
  | free {owner : ConnectionOwner}
      (last : (connectionNoMoreUsed shared.connection owner).1 = true) :
      Follows shared (.noMoreUsed owner) (.free (.noMoreUsed owner))
  | managed {owner : ConnectionOwner}
      (last : (connectionManage shared.connection owner).1 = true) :
      Follows shared (.handOver (.managedBy owner)) (.handOver .connected)
  | connected : Follows shared (.handOver .connected) (.stateTest .connected)
  | initialized (opened : Bool) :
      Follows shared .connectionInit (.stateTest (if opened then .initialized else .closed))
  | connect (initialized : shared.connection.state = .initialized) :
      Follows shared .connectTest .connect
  | connectRefused : Follows shared .connectTest (.stateTest .closed)
  | connects (outcome : ConnectOutcome) : Follows shared .connect (.stateTest outcome.target)
  | finishRefused : Follows shared .finishConnect (.stateTest .closed)
  | handOver {step : HandOverStep} (member : step ∈ readerManageConnection)
      (opened : shared.connection.state ≠ .closed) : Follows shared .closedTest (.handOver step)
  | clientNoMoreUsed (connected : shared.connected = true) :
      Follows shared .connectedTest (.noMoreUsed .client)
  | unconnected (unconnected : shared.connected = false) :
      Follows shared .connectedTest (.free .unconnected)

theorem systemHandler_follows {shared : Shared} {event : Event} {owner : ConnectionOwner}
    {handled : Shared} {frame : Frame} (member : frame ∈ (systemHandler handled event owner).1) :
    Follows shared (.dispatch event) frame := by
  cases owner with
  | acceptor =>
      cases List.mem_singleton.mp member
      exact .retire event
  | client | reader | writer => cases member
  | worker =>
      simp only [systemHandler] at member
      split at member
      · next inbound =>
          subst inbound
          cases List.mem_singleton.mp member
          exact .inboundTest
      · cases member

theorem dispatchStep_follows {shared : Shared} {event : Event} {frame : Frame}
    (member : frame ∈ (dispatchStep shared event).1) : Follows shared (.dispatch event) frame := by
  unfold dispatchStep at member
  split at member
  · split at member
    · rcases List.mem_append.mp member with member | member
      · exact systemHandler_follows member
      · cases List.mem_singleton.mp member
        exact .userDispatch event
    · next other =>
        rcases List.mem_append.mp member with member | member
        · exact systemHandler_follows member
        · cases List.mem_singleton.mp member
          exact .dispatch other
  · cases List.mem_singleton.mp member
    exact .userDispatch event

theorem proceedStep_follows {shared after : Shared} {frame next : Frame} {frames : List Frame}
    (step : proceedStep shared frame = some (frames, after)) (member : next ∈ frames) :
    Follows shared frame next := by
  cases frame with
  | dispatch event =>
      have result : dispatchStep shared event = (frames, after) := Option.some.inj step
      apply dispatchStep_follows
      rw [result]
      exact member
  | stateLock | recv | fill | send | connectionInit | connect | finishConnect => cases step
  | assign | inboundEnqueue | reenqueue | taskEnd | register | free | setConnected =>
      cases step
      cases member
  | stateTest target =>
      cases step
      split at member
      · cases member
      · next differs =>
          cases List.mem_singleton.mp member
          exact .stateLock differs
  | userDispatch event =>
      cases step
      cases List.mem_singleton.mp member
      exact .userHandlers event
  | userHandlers =>
      cases step
      cases member
  | inboundTest =>
      cases step
      split at member
      · cases member
      · next opened =>
          cases List.mem_singleton.mp member
          exact .inboundEnqueue opened
  | interestTest =>
      cases step
      split at member
      · next writable =>
          cases List.mem_singleton.mp member
          exact .outboundData writable
      · cases member
  | readTest =>
      cases step
      split at member
      · next readable =>
          cases List.mem_singleton.mp member
          exact .inboundData readable
      · cases member
  | writeTest =>
      cases step
      split at member
      · next writable =>
          cases List.mem_singleton.mp member
          exact .fill writable
      · cases List.mem_singleton.mp member
        exact .writeRefused
  | retire owner =>
      cases step
      cases List.mem_singleton.mp member
      exact .noMoreUsed owner
  | noMoreUsed owner =>
      cases step
      split at member
      · next last =>
          cases List.mem_singleton.mp member
          exact .free last
      · cases member
  | connectTest =>
      cases step
      rw [List.mem_singleton] at member
      split at member
      · next initialized =>
          cases member
          exact .connect initialized
      · cases member
        exact .connectRefused
  | connectedTest =>
      cases step
      rw [List.mem_singleton] at member
      split at member
      · next connected =>
          cases member
          exact .clientNoMoreUsed connected
      · next unconnected =>
          cases member
          exact .unconnected (by simpa using unconnected)
  | closedTest =>
      simp only [proceedStep] at step
      split at step
      · cases step
        cases member
      · next opened =>
          cases step
          obtain ⟨handOver, listed, rfl⟩ := List.mem_map.mp member
          exact .handOver listed opened
  | handOver handOver =>
      cases handOver with
      | enqueueDataItem | addSystemHandler =>
          cases step
          cases member
      | managedBy owner =>
          cases step
          split at member
          · next last =>
              cases List.mem_singleton.mp member
              exact .managed last
          · cases member
      | connected =>
          cases step
          cases List.mem_singleton.mp member
          exact .connected

theorem frameStep_follows {shared after : Shared} {frame next : Frame} {choice : Choice}
    {frames : List Frame} (step : frameStep shared frame choice = some (frames, after))
    (member : next ∈ frames) : Follows shared frame next := by
  cases choice with
  | proceed => exact proceedStep_follows step member
  | ready => cases step
  | call call =>
      simp only [frameStep, Option.ite_none_right_eq_some, Option.some.injEq, Prod.mk.injEq] at step
      obtain ⟨rfl, rfl, _⟩ := step
      rcases List.mem_cons.mp member with rfl | member
      · exact .userCall call
      · cases List.mem_singleton.mp member
        exact .userCalls
  | recv closing =>
      simp only [frameStep, Option.ite_none_right_eq_some, Option.some.injEq, Prod.mk.injEq] at step
      obtain ⟨rfl, rfl, _⟩ := step
      cases List.mem_singleton.mp member
      cases closing with
      | true => exact .recvClosing
      | false => exact .readTest
  | opened opened =>
      simp only [frameStep, Option.ite_none_right_eq_some, Option.some.injEq, Prod.mk.injEq] at step
      obtain ⟨rfl, rfl, _⟩ := step
      cases List.mem_singleton.mp member
      exact .initialized opened
  | connect outcome =>
      simp only [frameStep, Option.ite_none_right_eq_some, Option.some.injEq, Prod.mk.injEq] at step
      obtain ⟨rfl, rfl, _⟩ := step
      cases List.mem_singleton.mp member
      exact .connects outcome
  | fill drained =>
      simp only [frameStep, Option.ite_none_right_eq_some, Option.some.injEq, Prod.mk.injEq] at step
      obtain ⟨rfl, rfl, _⟩ := step
      cases drained with
      | true =>
          rcases List.mem_cons.mp member with rfl | member
          · exact .write
          · cases List.mem_singleton.mp member
            exact .send
      | false =>
          cases List.mem_singleton.mp member
          exact .send
  | finishConnect outcome =>
      simp only [frameStep, Option.ite_none_right_eq_some, Option.some.injEq, Prod.mk.injEq] at step
      obtain ⟨rfl, rfl, _⟩ := step
      split at member
      · cases member
      · cases List.mem_singleton.mp member
        exact .finishRefused
  | send unfinished =>
      cases unfinished with
      | none =>
          simp only [frameStep, Option.ite_none_right_eq_some, Option.some.injEq,
            Prod.mk.injEq] at step
          obtain ⟨rfl, rfl, _⟩ := step
          cases List.mem_singleton.mp member
          exact .sendClosing
      | some unfinished =>
          simp only [frameStep, Option.ite_none_right_eq_some, Option.some.injEq,
            Prod.mk.injEq] at step
          obtain ⟨rfl, rfl, _⟩ := step
          split at member
          · cases List.mem_singleton.mp member
            exact .reenqueue
          · cases member

/-- `FreeConnection` is called by a client that is not connected, and behind an
acknowledgement that returned true. -/
theorem Follows.to_free {shared : Shared} {frame : Frame} {cause : FreeCause}
    (follows : Follows shared frame (.free cause)) : cause = .unconnected ∨
      ∃ owner, cause = .noMoreUsed owner ∧ frame = .noMoreUsed owner ∧
        (connectionNoMoreUsed shared.connection owner).1 = true := by
  generalize same : Frame.free cause = next at follows
  cases follows with
  | @free owner last =>
      cases same
      exact .inr ⟨owner, rfl, rfl, last⟩
  | unconnected =>
      cases same
      exact .inl rfl
  | userCall call =>
      cases call with
      | close force => cases force <;> cases same
      | enableWriteInterest => cases same
  | stateLock | retire | inboundTest | dispatch | userDispatch | userHandlers | userCalls
  | inboundEnqueue | outboundData | recvClosing | readTest | inboundData | fill | writeRefused
  | write | send | sendClosing | reenqueue | noMoreUsed | managed | connected | initialized
  | connect | connectRefused | connects | finishRefused | handOver | clientNoMoreUsed => cases same

/-! ## What idle parties begin -/

/-- What idle parties begin, with the item they took. -/
inductive IdleCase (shared : Shared) : Party → List Frame → Shared → Prop where
  | clientEvent {queue : Fifo Event} {event : Event}
      (taken : shared.clientQueue.dequeue true = (.taken event, queue)) :
      IdleCase shared .accepting (clientRun event) { shared with clientQueue := queue }
  | clientDrained {queue : Fifo Event}
      (missed : shared.clientQueue.dequeue true = (.drained, queue)) :
      IdleCase shared .accepting [] { shared with clientQueue := queue }
  | data {queue : Fifo ReaderItem}
      (taken : shared.readerQueue.dequeue false = (.taken .data, queue)) :
      IdleCase shared .reader [.register, .handOver (.managedBy .reader)]
        { shared with readerQueue := queue }
  | readerClose {queue : Fifo ReaderItem}
      (taken : shared.readerQueue.dequeue false = (.taken (.event .close), queue)) :
      IdleCase shared .reader [.retire .reader] { shared with readerQueue := queue }
  | readerEvent {queue : Fifo ReaderItem} {event : Event} (other : event ≠ .close)
      (taken : shared.readerQueue.dequeue false = (.taken (.event event), queue)) :
      IdleCase shared .reader [] { shared with readerQueue := queue }
  | readerDrained {queue : Fifo ReaderItem}
      (missed : shared.readerQueue.dequeue false = (.drained, queue)) :
      IdleCase shared .reader [] { shared with readerQueue := queue }
  | ready (key : shared.readKey = true) : IdleCase shared .reader [.recv] shared
  | task {queue : Fifo WorkerItem}
      (taken : shared.workerQueue.dequeue true = (.taken .task, queue)) :
      IdleCase shared .worker [.dispatch .read, .taskEnd] { shared with workerQueue := queue }
  | workerClose {queue : Fifo WorkerItem}
      (taken : shared.workerQueue.dequeue true = (.taken .close, queue)) :
      IdleCase shared .worker [.retire .worker] { shared with workerQueue := queue }
  | workerDrained {queue : Fifo WorkerItem}
      (missed : shared.workerQueue.dequeue true = (.drained, queue)) :
      IdleCase shared .worker [] { shared with workerQueue := queue }
  | outbound {queue : Fifo Event}
      (taken : shared.writerQueue.dequeue true = (.taken .outboundData, queue)) :
      IdleCase shared .writer [.writeTest] { shared with writerQueue := queue }
  | writerClose {queue : Fifo Event}
      (taken : shared.writerQueue.dequeue true = (.taken .close, queue)) :
      IdleCase shared .writer [.retire .writer] { shared with writerQueue := queue }
  | writerEvent {queue : Fifo Event} {event : Event} (other : event ≠ .close)
      (taken : shared.writerQueue.dequeue true = (.taken event, queue)) :
      IdleCase shared .writer [] { shared with writerQueue := queue }
  | writerDrained {queue : Fifo Event}
      (missed : shared.writerQueue.dequeue true = (.drained, queue)) :
      IdleCase shared .writer [] { shared with writerQueue := queue }
  | user {id : Nat} (alive : shared.freed = []) (call : UserCall) :
      IdleCase shared (.user id) [call.frame] shared

theorem idleStep_cases {shared after : Shared} {party : Party} {choice : Choice}
    {frames : List Frame} (step : idleStep shared party choice = some (frames, after)) :
    IdleCase shared party frames after := by
  cases party with
  | accepting =>
      cases choice with
      | proceed =>
          simp only [idleStep] at step
          split at step
          · next taken => cases step; exact .clientEvent taken
          · next missed => cases step; exact .clientDrained missed
          · cases step
      | call | ready | recv | fill | send | opened | connect | finishConnect => cases step
  | reader =>
      cases choice with
      | proceed =>
          simp only [idleStep] at step
          split at step
          · next taken => cases step; exact .data taken
          · next taken => cases step; exact .readerClose taken
          · next event _ other taken => cases step; exact .readerEvent other taken
          · next missed => cases step; exact .readerDrained missed
          · cases step
      | ready =>
          simp only [idleStep] at step
          split at step
          · next key => cases step; exact .ready key
          · cases step
      | call | recv | fill | send | opened | connect | finishConnect => cases step
  | worker =>
      cases choice with
      | proceed =>
          simp only [idleStep] at step
          split at step
          · next taken => cases step; exact .task taken
          · next taken => cases step; exact .workerClose taken
          · next missed => cases step; exact .workerDrained missed
          · cases step
      | call | ready | recv | fill | send | opened | connect | finishConnect => cases step
  | writer =>
      cases choice with
      | proceed =>
          simp only [idleStep] at step
          split at step
          · next taken => cases step; exact .outbound taken
          · next taken => cases step; exact .writerClose taken
          · next _ other taken => cases step; exact .writerEvent other taken
          · next missed => cases step; exact .writerDrained missed
          · cases step
      | call | ready | recv | fill | send | opened | connect | finishConnect => cases step
  | user id =>
      cases choice with
      | call call =>
          simp only [idleStep] at step
          split at step
          · next alive => cases step; exact .user alive call
          · cases step
      | proceed | ready | recv | fill | send | opened | connect | finishConnect => cases step

theorem IdleCase.queues {shared after : Shared} {party : Party} {frames : List Frame}
    (idle : IdleCase shared party frames after) :
    ∃ clientQueue readerQueue workerQueue writerQueue, after =
      { shared with clientQueue, readerQueue, workerQueue, writerQueue } := by
  cases idle with
  | ready | user => exact ⟨_, _, _, _, rfl⟩
  | clientEvent | clientDrained => exact ⟨_, _, _, _, rfl⟩
  | data | readerClose | readerEvent | readerDrained => exact ⟨_, _, _, _, rfl⟩
  | task | workerClose | workerDrained => exact ⟨_, _, _, _, rfl⟩
  | outbound | writerClose | writerEvent | writerDrained => exact ⟨_, _, _, _, rfl⟩

theorem IdleCase.free_not_mem {shared after : Shared} {party : Party} {frames : List Frame}
    (idle : IdleCase shared party frames after) (cause : FreeCause) : .free cause ∉ frames := by
  cases idle with
  | @clientEvent _ event => cases event <;> simp [clientRun]
  | user alive call =>
      cases call with
      | close force => cases force <;> simp [UserCall.frame]
      | enableWriteInterest => simp [UserCall.frame]
  | clientDrained | data | readerClose | readerEvent | readerDrained | ready | task | workerClose
  | workerDrained | outbound | writerClose | writerEvent | writerDrained => simp

end Aio4c
