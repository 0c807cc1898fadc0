import Aio4c.CloseAccount
import Mathlib.Data.List.Infix

/-! The release of an accepted connection. What is left of its hand-over is a tail of the
hand-over's steps; the reader registers the connection in front of its answer to CLOSE;
and once a walk of CLOSE came to the end with the last handler installed, all owners were
told, so that a quiet pipe has released the connection exactly once. -/

set_option autoImplicit false

namespace Aio4c

open PlaceCount TransitionSystem

def Frame.install : Frame → Option HandOverStep
  | .handOver .enqueueDataItem => some .enqueueDataItem
  | .handOver (.addSystemHandler event owner) => some (.addSystemHandler event owner)
  | _ => none

def installs : List HandOverStep :=
  (readerManageConnection.map Frame.handOver).filterMap Frame.install

/-- What is left to install. -/
def Pipeline.pending (pipeline : Pipeline) : List HandOverStep :=
  (pipeline.calls (some .accepting)).filterMap Frame.install

/-- The handler of CLOSE that the writer installs is the last one of all. -/
theorem installs_tails (steps : List HandOverStep) (tail : steps <:+ installs) :
    (.enqueueDataItem ∈ steps → .addSystemHandler .close .reader ∈ steps) ∧
      (steps.head? = some (.addSystemHandler .close .writer) → steps.tail = []) ∧
      (steps ≠ [] → .addSystemHandler .close .writer ∈ steps) := by
  have checked : ∀ steps ∈ installs.tails,
      (.enqueueDataItem ∈ steps → .addSystemHandler .close .reader ∈ steps) ∧
        (steps.head? = some (.addSystemHandler .close .writer) → steps.tail = []) ∧
        (steps ≠ [] → .addSystemHandler .close .writer ∈ steps) := by
    decide
  exact checked steps (List.mem_tails steps installs |>.mpr tail)

theorem Follows.install {shared : Shared} {frame next : Frame} {place : Option Party}
    (follows : Follows shared frame next) (here : frame.At place) : next.install = none := by
  cases follows with
  | userCall call =>
      cases call with
      | close force => cases force <;> rfl
      | enableWriteInterest => rfl
  | handOver => cases here
  | stateLock | retire | inboundTest | dispatch | userDispatch | userHandlers | userCalls
  | inboundEnqueue | outboundData | recvClosing | readTest | inboundData | fill | writeRefused
  | write | send | sendClosing | reenqueue | noMoreUsed | free | managed | connected | initialized
  | connect | connectRefused | connects | finishRefused | clientNoMoreUsed | unconnected => rfl

theorem IdleCase.install {shared after : Shared} {party : Party} {frames : List Frame}
    (accepted : shared.Accepted) (idle : IdleCase shared party frames after) :
    frames.filterMap Frame.install = [] := by
  cases idle with
  | clientEvent taken =>
      have items := (Fifo.dequeue_taken taken).1
      rw [accepted.clientQueue] at items
      cases items
  | user alive call =>
      cases call with
      | close force => cases force <;> rfl
      | enableWriteInterest => rfl
  | clientDrained | data | readerClose | readerEvent | readerDrained | ready | task | workerClose
  | workerDrained | outbound | writerClose | writerEvent | writerDrained => rfl

theorem Pipeline.Accepted.pending_begun {pipeline : Pipeline} (accepted : pipeline.Accepted)
    {party : Party} {frames : List Frame} {shared : Shared}
    (idle : pipeline.calls (some party) = [])
    (step : IdleCase pipeline.shared party frames shared) :
    Pipeline.pending { pipeline with
      shared, calls := Function.update pipeline.calls (some party) frames } = pipeline.pending := by
  unfold Pipeline.pending
  by_cases here : some Party.accepting = some party
  · simp only [here, Function.update_self, idle]
    exact step.install accepted.shared
  · simp only [Function.update_of_ne here]

theorem Pipeline.pending_entered {pipeline : Pipeline} {party : Party} {target : ConnectionState}
    {rest frames : List Frame} {shared : Shared} {locked : Option Party}
    (waits : pipeline.calls (some party) = .stateLock target :: rest) :
    Pipeline.pending {
      shared, locked
      calls := Function.update (Function.update pipeline.calls (some party) rest) none frames } =
        pipeline.pending := by
  unfold Pipeline.pending
  have other : some Party.accepting ≠ none := by simp
  simp only [Function.update_of_ne other]
  by_cases here : some Party.accepting = some party
  · simp only [here, Function.update_self, waits]
    rfl
  · simp only [Function.update_of_ne here]

theorem Pipeline.Accepted.pending_called {pipeline : Pipeline} (accepted : pipeline.Accepted)
    {place : Option Party} {frame : Frame} {rest frames : List Frame} {shared : Shared}
    {choice : Choice} (top : pipeline.calls place = frame :: rest)
    (step : frameStep pipeline.shared frame choice = some (frames, shared)) :
    pipeline.pending = frame.install.toList ++ Pipeline.pending { pipeline with
      shared, calls := Function.update pipeline.calls place (frames ++ rest) } := by
  unfold Pipeline.pending
  have here := accepted.places place frame (by rw [top]; exact List.mem_cons_self)
  by_cases accepting : some Party.accepting = place
  · subst accepting
    have made : frames.filterMap Frame.install = [] := by
      rw [List.filterMap_eq_nil_iff]
      intro next member
      exact (frameStep_follows step member).install here
    simp only [Function.update_self, List.filterMap_append, made, List.nil_append, top]
    cases kind : frame.install with
    | none =>
        rw [List.filterMap_cons_none kind]
        rfl
    | some step =>
        rw [List.filterMap_cons_some kind]
        rfl
  · simp only [Function.update_of_ne accepting]
    have kind : frame.install = none := by
      cases frame with
      | handOver handOver =>
          cases handOver with
          | enqueueDataItem => exact absurd here.symm accepting
          | addSystemHandler => exact absurd here.1.symm accepting
          | managedBy | connected => rfl
      | stateTest | stateLock | assign | dispatch | userDispatch | userHandlers | inboundTest
      | inboundEnqueue | interestTest | recv | readTest | writeTest | fill | send | reenqueue
      | taskEnd | register | retire | noMoreUsed | free | connectionInit | connectTest | connect
      | finishConnect | closedTest | setConnected | connectedTest => rfl
    rw [kind]
    rfl

/-! ## The end of the hand-over -/

/-- The writer's handler of CLOSE is the last one installed; a walk that ended behind it
has told all owners. -/
structure Pipeline.HandsOver (pipeline : Pipeline) : Prop where
  tail : pipeline.pending <:+ installs
  installed : pipeline.shared.installed = true ↔ pipeline.pending = []
  covered : pipeline.shared.covered = true →
    pipeline.pending = [] ∧ ∀ owner, (.close, owner) ∉ pipeline.shared.systemHandlers
  told : pipeline.pending = [] → (.close, .writer) ∉ pipeline.shared.systemHandlers →
    .dispatch .close ∈ pipeline.calls none ∨ pipeline.shared.covered = true

theorem Pipeline.HandsOver.last {pipeline : Pipeline} (hands : pipeline.HandsOver)
    {step : HandOverStep} {rest : List HandOverStep} (first : pipeline.pending = step :: rest) :
    rest = [] ↔ step = .addSystemHandler .close .writer := by
  have tails := installs_tails pipeline.pending hands.tail
  rw [first] at tails
  constructor
  · intro nothing
    subst nothing
    exact (List.mem_singleton.mp (tails.2.2 (by simp))).symm
  · intro same
    subst same
    exact tails.2.1 rfl

/-- A step that installs nothing and ends no walk of CLOSE. -/
theorem Pipeline.HandsOver.keep {before after : Pipeline} (hands : before.HandsOver)
    (pending : after.pending = before.pending)
    (handlers : ∀ owner, (.close, owner) ∈ after.shared.systemHandlers ↔
      (.close, owner) ∈ before.shared.systemHandlers)
    (installed : after.shared.installed = before.shared.installed)
    (covered : after.shared.covered = before.shared.covered)
    (walks : .dispatch .close ∈ before.calls none →
      .dispatch .close ∈ after.calls none ∨ before.shared.covered = true) :
    after.HandsOver := by
  constructor
  · rw [pending]
    exact hands.tail
  · rw [pending, installed]
    exact hands.installed
  · intro done
    obtain ⟨nothing, gone⟩ := hands.covered (covered ▸ done)
    refine ⟨pending.trans nothing, fun owner present => gone owner ?_⟩
    exact (handlers owner).mp present
  · intro nothing gone
    rw [covered]
    have told := hands.told (pending.symm.trans nothing) fun present =>
      gone ((handlers .writer).mpr present)
    rcases told with walk | done
    · exact walks walk
    · exact .inr done

theorem mem_erase_of_other {handlers : List (Event × ConnectionOwner)} {event : Event}
    {called owner : ConnectionOwner} (other : event ≠ .close) :
    (.close, owner) ∈ handlers.erase (event, called) ↔ (.close, owner) ∈ handlers :=
  List.mem_erase_of_ne (by simp [Ne.symm other])

theorem Pipeline.HandsOver.calls {before after : Pipeline} (hands : before.HandsOver)
    (pending : after.pending = before.pending)
    (fewer : ∀ owner, (.close, owner) ∈ after.shared.systemHandlers →
      (.close, owner) ∈ before.shared.systemHandlers)
    (installed : after.shared.installed = before.shared.installed)
    (covered : after.shared.covered = before.shared.covered)
    (walk : .dispatch .close ∈ after.calls none) : after.HandsOver := by
  constructor
  · rw [pending]
    exact hands.tail
  · rw [pending, installed]
    exact hands.installed
  · intro done
    obtain ⟨nothing, gone⟩ := hands.covered (covered ▸ done)
    exact ⟨pending.trans nothing, fun owner present => gone owner (fewer owner present)⟩
  · intro _ _
    exact .inl walk

theorem Pipeline.HandsOver.walked {before after : Pipeline} (hands : before.HandsOver)
    (pending : after.pending = before.pending)
    (handlers : after.shared.systemHandlers = before.shared.systemHandlers)
    (gone : ∀ owner, (.close, owner) ∉ before.shared.systemHandlers)
    (installed : after.shared.installed = before.shared.installed)
    (covered : after.shared.covered = (before.shared.covered || before.shared.installed)) :
    after.HandsOver := by
  constructor
  · rw [pending]
    exact hands.tail
  · rw [pending, installed]
    exact hands.installed
  · intro done
    rw [covered, Bool.or_eq_true] at done
    rw [pending, handlers]
    rcases done with earlier | now
    · exact hands.covered earlier
    · exact ⟨hands.installed.mp now, gone⟩
  · intro nothing _
    right
    rw [covered, hands.installed.mpr (pending ▸ nothing), Bool.or_true]

theorem Pipeline.HandsOver.installs {before after : Pipeline} (hands : before.HandsOver)
    {step : HandOverStep} (pending : before.pending = step :: after.pending)
    (added : step = .addSystemHandler .close .writer →
      (.close, .writer) ∈ after.shared.systemHandlers)
    (installed : after.shared.installed =
      (before.shared.installed || decide (step = .addSystemHandler .close .writer)))
    (covered : after.shared.covered = before.shared.covered) : after.HandsOver := by
  have more : before.pending ≠ [] := by
    rw [pending]
    exact List.cons_ne_nil _ _
  have early : before.shared.installed = false := by
    rw [Bool.eq_false_iff]
    exact fun early => more (hands.installed.mp early)
  have uncovered : before.shared.covered = false := by
    rw [Bool.eq_false_iff]
    exact fun done => more (hands.covered done).1
  have last := hands.last pending
  constructor
  · apply List.IsSuffix.trans _ hands.tail
    rw [pending]
    exact List.suffix_cons _ _
  · rw [installed, early, last]
    simp
  · intro done
    rw [covered, uncovered] at done
    cases done
  · intro nothing gone
    exact absurd (added (last.mp nothing)) gone

theorem Pipeline.HandsOver.called {before : Pipeline} (hands : before.HandsOver)
    (accepted : before.Accepted) {place : Option Party} {frame : Frame} {rest frames : List Frame}
    {shared : Shared} {choice : Choice} (top : before.calls place = frame :: rest)
    (step : frameStep before.shared frame choice = some (frames, shared)) :
    Pipeline.HandsOver { before with
      shared, calls := Function.update before.calls place (frames ++ rest) } := by
  have here := accepted.places place frame (by rw [top]; exact List.mem_cons_self)
  have pending := accepted.pending_called top step
  have others (other : frame ≠ .dispatch .close) (walk : .dispatch .close ∈ before.calls none) :
      .dispatch .close ∈ Function.update before.calls place (frames ++ rest) none ∨
        before.shared.covered = true :=
    .inl (mem_kept top walk (Ne.symm other))
  cases frameStep_effect step with
  | installed event owner =>
      apply hands.installs pending
      · intro same
        cases same
        simp
      · simp
      · rfl
  | dataItem =>
      apply hands.installs pending
      · intro same
        cases same
      · simp [Shared.read]
      · rfl
  | @stays event _ owner found data =>
      obtain ⟨_, _, _, _, same⟩ := systemHandler_queues before.shared event owner
      have other : Frame.dispatch event ≠ .dispatch .close := by
        rcases data with rfl | rfl <;> simp
      apply hands.keep pending.symm _ _ _ (others other)
      · intro owner
        rw [same]
      · rw [same]
      · rw [same]
  | @once event announced owner found other =>
      obtain ⟨_, _, _, _, same⟩ := systemHandler_queues { before.shared with
        systemHandlers := before.shared.systemHandlers.erase (event, owner) } event owner
      by_cases closes : event = .close
      · subst closes
        have made := frameStep_dispatch step
        simp only [dispatchStep, found, if_neg other, Prod.mk.injEq] at made
        apply hands.calls pending.symm
        · intro owner present
          rw [same] at present
          exact List.mem_of_mem_erase present
        · rw [same]
        · rw [same]
        · have locked : place = none := here
          subst locked
          simp only [Function.update_self, ← made.1]
          simp
      · apply hands.keep pending.symm _ _ _ (others (by simpa using closes))
        · intro owner
          rw [same]
          exact mem_erase_of_other closes
        · rw [same]
        · rw [same]
  | @walked event found =>
      by_cases closes : event = .close
      · subst closes
        have gone (owner : ConnectionOwner) : (.close, owner) ∉ before.shared.systemHandlers := by
          intro present
          have unfound := List.find?_eq_none.mp found (.close, owner) present
          simp at unfound
        apply hands.walked pending.symm rfl gone rfl
        simp
      · apply hands.keep pending.symm (fun _ => Iff.rfl) rfl _ (others (by simpa using closes))
        simp [closes]
  | retired owner =>
      apply hands.keep pending.symm _ _ _ (others (by simp))
      · intro other
        cases owner <;> rfl
      · cases owner <;> rfl
      · cases owner <;> rfl
  | quiet quiet =>
      have kind : frame.install = none := by
        cases frame with
        | handOver handOver =>
            cases handOver with
            | connected | managedBy => rfl
            | enqueueDataItem | addSystemHandler => cases quiet
        | stateTest | stateLock | assign | dispatch | userDispatch | userHandlers | inboundTest
        | inboundEnqueue | interestTest | recv | readTest | writeTest | fill | send | reenqueue
        | taskEnd | register | retire | noMoreUsed | free | connectionInit | connectTest | connect
        | finishConnect | closedTest | setConnected | connectedTest => rfl
      rw [kind] at pending
      refine hands.keep pending.symm (fun _ => Iff.rfl) rfl rfl (others ?_)
      intro equal
      subst equal
      cases quiet
  | assigned | userCalled | task | reenqueued | registered | acknowledged | freed | managed =>
      exact hands.keep pending.symm (fun _ => Iff.rfl) rfl rfl (others (by simp))
  | refused | handed | connected => cases here

theorem Pipeline.HandsOver.step {before after : Pipeline} (hands : before.HandsOver)
    (accepted : before.Accepted) {action : Party × Choice}
    (taken : PipelineStep before action after) : after.HandsOver := by
  cases taken.cases with
  | released => exact ⟨hands.tail, hands.installed, hands.covered, hands.told⟩
  | @begun frames shared unlocked idle step =>
      have cases := idleStep_cases step
      have pending := accepted.pending_begun idle cases
      obtain ⟨_, _, _, _, rfl⟩ := cases.queues
      apply hands.keep pending (fun _ => Iff.rfl) rfl rfl
      intro walk
      left
      have other : none ≠ some action.1 := by simp
      simpa only [Function.update_of_ne other] using walk
  | entered unlocked waits =>
      refine hands.keep (Pipeline.pending_entered waits) (fun _ => Iff.rfl) rfl rfl ?_
      intro walk
      rw [accepted.unlocked unlocked] at walk
      cases walk
  | called here top step => exact hands.called accepted top step

theorem acceptedPipeline_handsOver (connection : Connection) :
    (acceptedPipeline connection).HandsOver where
  tail := List.suffix_refl _
  installed := by
    change false = true ↔ installs = []
    decide
  covered done := by cases done
  told nothing := by
    have some : installs ≠ [] := by decide
    exact absurd nothing some

/-! ## The reader's key -/

/-- The reader has not begun to answer to CLOSE. -/
structure Pipeline.Unanswered (pipeline : Pipeline) : Prop where
  retire : .retire .reader ∉ pipeline.calls (some .reader)
  noMoreUsed : .noMoreUsed .reader ∉ pipeline.calls (some .reader)
  acks : pipeline.shared.acks .reader = 0

/-- The reader registers the connection in front of its answer to CLOSE, which takes the
key away. -/
structure Pipeline.Registers (pipeline : Pipeline) : Prop where
  ordered : pipeline.shared.readerQueue.items.Pairwise fun earlier later =>
    earlier = .event .close → later ≠ .data
  data : .data ∈ pipeline.shared.readerQueue.items → pipeline.Unanswered
  register : .register ∈ pipeline.calls (some .reader) → pipeline.Unanswered
  key : pipeline.shared.readKey = true →
    .noMoreUsed .reader ∉ pipeline.calls (some .reader) ∧ pipeline.shared.acks .reader = 0

/-- Before its handler is installed, the reader has nothing of CLOSE. -/
theorem Pipeline.Accounted.before_install {pipeline : Pipeline} (sound : pipeline.Accounted)
    (waits : .addSystemHandler .close .reader ∈ pipeline.pending) :
    pipeline.Unanswered ∧ .event .close ∉ pipeline.shared.readerQueue.items := by
  obtain ⟨frame, member, kind⟩ := List.mem_filterMap.mp waits
  have same : frame = .handOver (.addSystemHandler .close .reader) := by
    cases frame with
    | handOver handOver =>
        cases handOver with
        | addSystemHandler event owner => simpa [Frame.install] using kind
        | enqueueDataItem | managedBy | connected => simp [Frame.install] at kind
    | stateTest | stateLock | assign | dispatch | userDispatch | userHandlers | inboundTest
    | inboundEnqueue | interestTest | recv | readTest | writeTest | fill | send | reenqueue
    | taskEnd | register | retire | noMoreUsed | free | connectionInit | connectTest | connect
    | finishConnect | closedTest | setConnected | connectedTest => cases kind
  subst same
  have whole := sound.closing .reader
  have installing : 0 < (pipeline.calls (some .accepting)).countP (Frame.closing .reader) :=
    List.countP_pos_iff.mpr ⟨_, member, rfl⟩
  have answering (frame : Frame) (closing : frame.closing .reader = true)
      (here : frame ∈ pipeline.calls (some .reader)) : False := by
    have reading : 0 < (pipeline.calls (some .reader)).countP (Frame.closing .reader) :=
      List.countP_pos_iff.mpr ⟨_, here, closing⟩
    simp only [Pipeline.closing, Pipeline.count, total, ownedPlaces, List.map_cons, List.map_nil,
      List.sum_cons, List.sum_nil, reduceCtorEq, if_false] at whole
    omega
  have counted : 1 ≤ pipeline.count (Frame.closing .reader) :=
    Pipeline.one_le_count (by decide) member rfl
  simp only [Pipeline.closing, Shared.closing, Shared.queued, reduceCtorEq, if_false] at whole
  refine ⟨⟨answering _ rfl, answering _ rfl, by omega⟩, ?_⟩
  intro queued
  have positive := List.count_pos_iff.mpr queued
  omega

theorem systemHandler_reading (shared : Shared) (event : Event) (owner : ConnectionOwner) :
    (systemHandler shared event owner).2.readKey = shared.readKey ∧
      ((systemHandler shared event owner).2.readerQueue = shared.readerQueue ∨
        (systemHandler shared event owner).2.readerQueue =
          (shared.readerQueue.push (.event event)).2) := by
  cases owner with
  | acceptor | client | writer => exact ⟨rfl, .inl rfl⟩
  | reader => exact ⟨rfl, .inr rfl⟩
  | worker =>
      simp only [systemHandler]
      split
      · exact ⟨rfl, .inl rfl⟩
      · exact ⟨rfl, .inl rfl⟩

theorem SharedEffect.reading {shared after : Shared} {frame : Frame}
    (effect : SharedEffect shared frame after) :
    (after.readKey = true → frame = .register ∨
        shared.readKey = true ∧ frame ≠ .retire .reader) ∧
      (after.readerQueue = shared.readerQueue ∨
        (∃ event, after.readerQueue = (shared.readerQueue.push (.event event)).2) ∨
        frame = .handOver .enqueueDataItem ∧
          after.readerQueue = (shared.readerQueue.push .data).2) := by
  cases effect with
  | registered => exact ⟨fun _ => .inl rfl, .inl rfl⟩
  | dataItem => exact ⟨fun key => .inr ⟨key, by simp⟩, .inr (.inr ⟨rfl, rfl⟩)⟩
  | @stays event _ owner =>
      obtain ⟨key, queue⟩ := systemHandler_reading shared event owner
      rw [key]
      refine ⟨fun key => .inr ⟨key, by simp⟩, ?_⟩
      rcases queue with same | pushed
      · exact .inl same
      · exact .inr (.inl ⟨event, pushed⟩)
  | @once event _ owner =>
      obtain ⟨key, queue⟩ := systemHandler_reading { shared with
        systemHandlers := shared.systemHandlers.erase (event, owner) } event owner
      rw [key]
      refine ⟨fun key => .inr ⟨key, by simp⟩, ?_⟩
      rcases queue with same | pushed
      · exact .inl same
      · exact .inr (.inl ⟨event, pushed⟩)
  | retired owner =>
      cases owner with
      | reader => exact ⟨fun key => (Bool.false_ne_true key).elim, .inl rfl⟩
      | acceptor | worker | writer | client => exact ⟨fun key => .inr ⟨key, by simp⟩, .inl rfl⟩
  | quiet quiet =>
      refine ⟨fun key => .inr ⟨key, ?_⟩, .inl rfl⟩
      intro equal
      subst equal
      cases quiet
  | assigned | walked | userCalled | task | reenqueued | acknowledged | freed | installed | managed
  | refused | handed | connected => exact ⟨fun key => .inr ⟨key, by simp⟩, .inl rfl⟩

theorem SharedEffect.acks {shared after : Shared} {frame : Frame} {owner : ConnectionOwner}
    (effect : SharedEffect shared frame after) (other : frame ≠ .noMoreUsed owner) :
    after.acks owner = shared.acks owner := by
  by_cases acknowledges : ∃ owner, frame = .noMoreUsed owner
  · obtain ⟨acknowledging, rfl⟩ := acknowledges
    cases effect with
    | quiet quiet => cases quiet
    | acknowledged =>
        have differs : acknowledging ≠ owner := fun same => other (by rw [same])
        simp [Shared.acks, differs]
  · unfold Shared.acks
    rw [(effect.uncounted fun owner same => acknowledges ⟨owner, same⟩).1]

theorem Pipeline.Unanswered.called {before : Pipeline} (unanswered : before.Unanswered)
    (accepted : before.Accepted) {place : Option Party} {frame : Frame} {rest frames : List Frame}
    {shared : Shared} {choice : Choice} (top : before.calls place = frame :: rest)
    (step : frameStep before.shared frame choice = some (frames, shared)) :
    Pipeline.Unanswered { before with
      shared, calls := Function.update before.calls place (frames ++ rest) } := by
  have member : frame ∈ before.calls place := by
    rw [top]
    exact List.mem_cons_self
  have here := accepted.places place frame member
  constructor
  · intro retires
    rcases mem_called top retires with ⟨_, made⟩ | kept
    · cases (frameStep_follows step made).to_retire
    · exact unanswered.retire kept
  · intro acknowledges
    rcases mem_called top acknowledges with ⟨same, made⟩ | kept
    · subst same
      rcases (frameStep_follows step made).to_noMoreUsed with same | client
      · exact unanswered.retire (same ▸ member)
      · cases client
    · exact unanswered.noMoreUsed kept
  · rw [(frameStep_effect step).acks]
    · exact unanswered.acks
    · intro equal
      subst equal
      have same : place = some .reader := here.2
      subst same
      exact unanswered.noMoreUsed member

theorem IdleCase.answer {shared after : Shared} {party : Party} {frames : List Frame}
    (idle : IdleCase shared party frames after) :
    .noMoreUsed .reader ∉ frames ∧ (.retire .reader ∈ frames → ∃ queue,
      shared.readerQueue.dequeue false = (.taken (.event .close), queue) ∧
        frames = [.retire .reader] ∧ after = { shared with readerQueue := queue }) := by
  cases idle with
  | readerClose taken => exact ⟨by simp, fun _ => ⟨_, taken, rfl, rfl⟩⟩
  | @clientEvent _ event => cases event <;> simp [clientRun]
  | user alive call =>
      cases call with
      | close force => cases force <;> simp [UserCall.frame]
      | enableWriteInterest => simp [UserCall.frame]
  | clientDrained | data | readerEvent | readerDrained | ready | task | workerClose | workerDrained
  | outbound | writerClose | writerEvent | writerDrained => simp

theorem Pipeline.Unanswered.begun {before : Pipeline} (unanswered : before.Unanswered)
    {party : Party} {frames : List Frame} {shared : Shared}
    (idle : IdleCase before.shared party frames shared)
    (other : frames ≠ [.retire .reader]) :
    Pipeline.Unanswered { before with
      shared, calls := Function.update before.calls (some party) frames } := by
  obtain ⟨unacknowledging, retires⟩ := idle.answer
  obtain ⟨_, _, _, _, rfl⟩ := idle.queues
  refine ⟨?_, ?_, unanswered.acks⟩
  · intro member
    rcases mem_begun member with ⟨_, begun⟩ | kept
    · obtain ⟨_, _, same, _⟩ := retires begun
      exact other same
    · exact unanswered.retire kept
  · intro member
    rcases mem_begun member with ⟨_, begun⟩ | kept
    · exact unacknowledging begun
    · exact unanswered.noMoreUsed kept

/-- The reader takes CLOSE: no data item was behind it. -/
theorem Pipeline.Registers.answer {before : Pipeline} (registers : before.Registers)
    (sound : before.Accounted) {queue : Fifo ReaderItem}
    (taken : before.shared.readerQueue.dequeue false = (.taken (.event .close), queue)) :
    Pipeline.Registers { before with
      shared := { before.shared with readerQueue := queue }
      calls := Function.update before.calls (some .reader) [.retire .reader] } := by
  have items := (Fifo.dequeue_taken taken).1
  have ordered := registers.ordered
  rw [items, List.pairwise_cons] at ordered
  constructor
  · exact ordered.2
  · intro data
    exact absurd rfl (ordered.1 .data data rfl)
  · intro register
    simp at register
  · intro _
    refine ⟨by simp, ?_⟩
    have whole := sound.closing .reader
    have queued : 0 < before.shared.queued .reader := by
      apply List.count_pos_iff.mpr
      rw [items]
      exact List.mem_cons_self
    simp only [Pipeline.closing, Shared.closing, reduceCtorEq, if_false] at whole
    change before.shared.acks .reader = 0
    omega

theorem Pipeline.Registers.begun {before : Pipeline} (registers : before.Registers)
    {party : Party} {frames : List Frame} {shared : Shared}
    (idle : IdleCase before.shared party frames shared) (other : frames ≠ [.retire .reader])
    (fewer : shared.readerQueue.items <:+ before.shared.readerQueue.items)
    (register : .register ∈ frames → before.Unanswered) :
    Pipeline.Registers { before with
      shared, calls := Function.update before.calls (some party) frames } := by
  have unacknowledging := idle.answer.1
  constructor
  · exact registers.ordered.sublist fewer.sublist
  · intro data
    exact (registers.data (fewer.mem data)).begun idle other
  · intro member
    apply Pipeline.Unanswered.begun _ idle other
    rcases mem_begun member with ⟨_, begun⟩ | kept
    · exact register begun
    · exact registers.register kept
  · obtain ⟨_, _, _, _, rfl⟩ := idle.queues
    intro key
    obtain ⟨unanswered, acks⟩ := registers.key key
    refine ⟨fun member => ?_, acks⟩
    rcases mem_begun member with ⟨_, begun⟩ | kept
    · exact unacknowledging begun
    · exact unanswered kept

theorem Pipeline.Registers.idle {before : Pipeline} (registers : before.Registers)
    (sound : before.Accounted) {party : Party} {frames : List Frame} {shared : Shared}
    (idle : IdleCase before.shared party frames shared) :
    Pipeline.Registers { before with
      shared, calls := Function.update before.calls (some party) frames } := by
  cases idle with
  | readerClose taken => exact registers.answer sound taken
  | data taken =>
      have items := (Fifo.dequeue_taken taken).1
      apply registers.begun (.data taken) (by simp)
      · rw [items]
        exact List.suffix_cons _ _
      · intro _
        apply registers.data
        rw [items]
        exact List.mem_cons_self
  | readerEvent other taken =>
      have items := (Fifo.dequeue_taken taken).1
      apply registers.begun (.readerEvent other taken) (by simp) _ (by simp)
      rw [items]
      exact List.suffix_cons _ _
  | readerDrained missed =>
      have items := (Fifo.dequeue_missed missed (by simp)).1
      apply registers.begun (.readerDrained missed) (by simp) _ (by simp)
      rw [items]
  | @clientEvent _ event taken =>
      have items := (Fifo.dequeue_taken taken).1
      rw [sound.accepted.shared.clientQueue] at items
      cases items
  | user alive call =>
      apply registers.begun (.user alive call) _ (List.suffix_refl _)
      · cases call with
        | close force => cases force <;> simp [UserCall.frame]
        | enableWriteInterest => simp [UserCall.frame]
      · cases call with
        | close force => cases force <;> simp [UserCall.frame]
        | enableWriteInterest => simp [UserCall.frame]
  | clientDrained missed =>
      exact registers.begun (.clientDrained missed) (by simp) (List.suffix_refl _) (by simp)
  | ready key => exact registers.begun (.ready key) (by simp) (List.suffix_refl _) (by simp)
  | task taken => exact registers.begun (.task taken) (by simp) (List.suffix_refl _) (by simp)
  | workerClose taken =>
      exact registers.begun (.workerClose taken) (by simp) (List.suffix_refl _) (by simp)
  | workerDrained missed =>
      exact registers.begun (.workerDrained missed) (by simp) (List.suffix_refl _) (by simp)
  | outbound taken => exact registers.begun (.outbound taken) (by simp) (List.suffix_refl _) (by simp)
  | writerClose taken =>
      exact registers.begun (.writerClose taken) (by simp) (List.suffix_refl _) (by simp)
  | writerEvent other taken =>
      exact registers.begun (.writerEvent other taken) (by simp) (List.suffix_refl _) (by simp)
  | writerDrained missed =>
      exact registers.begun (.writerDrained missed) (by simp) (List.suffix_refl _) (by simp)

theorem Pipeline.Registers.called {before : Pipeline} (registers : before.Registers)
    (sound : before.Accounted) (hands : before.HandsOver) {place : Option Party} {frame : Frame}
    {rest frames : List Frame} {shared : Shared} {choice : Choice}
    (top : before.calls place = frame :: rest)
    (step : frameStep before.shared frame choice = some (frames, shared)) :
    Pipeline.Registers { before with
      shared, calls := Function.update before.calls place (frames ++ rest) } := by
  have member : frame ∈ before.calls place := by
    rw [top]
    exact List.mem_cons_self
  have here := sound.accepted.places place frame member
  obtain ⟨keyed, queued⟩ := (frameStep_effect step).reading
  have endless := sound.accepted.shared.readerQueue
  -- A data item comes in front of the reader's handler.
  have early (enqueues : frame = .handOver .enqueueDataItem) :
      before.Unanswered ∧ .event .close ∉ before.shared.readerQueue.items := by
    apply sound.before_install
    apply (installs_tails _ hands.tail).1
    have pending := sound.accepted.pending_called top step
    rw [pending, enqueues]
    exact List.mem_cons_self
  constructor
  · rcases queued with same | ⟨event, pushed⟩ | ⟨enqueues, pushed⟩
    · simp only [same]
      exact registers.ordered
    · simp only [pushed, Fifo.push_items endless]
      rw [List.pairwise_append]
      refine ⟨registers.ordered, List.pairwise_singleton _ _, ?_⟩
      intro earlier _ later last _
      rw [List.mem_singleton.mp last]
      simp
    · simp only [pushed, Fifo.push_items endless]
      rw [List.pairwise_append]
      refine ⟨registers.ordered, List.pairwise_singleton _ _, ?_⟩
      intro earlier present later last closes
      rw [closes] at present
      exact absurd present (early enqueues).2
  · intro data
    apply Pipeline.Unanswered.called _ sound.accepted top step
    rcases queued with same | ⟨event, pushed⟩ | ⟨enqueues, pushed⟩
    · simp only [same] at data
      exact registers.data data
    · simp only [pushed, Fifo.push_items endless] at data
      exact registers.data (by simpa using data)
    · exact (early enqueues).1
  · intro register
    apply Pipeline.Unanswered.called _ sound.accepted top step
    rcases mem_called top register with ⟨_, made⟩ | kept
    · exact absurd rfl (frameStep_follows step made).unmade.1
    · exact registers.register kept
  · intro key
    rcases keyed key with registering | ⟨held, other⟩
    · subst registering
      have locked : place = some .reader := here
      subst locked
      have unanswered := (registers.register member).called sound.accepted top step
      exact ⟨unanswered.noMoreUsed, unanswered.acks⟩
    · obtain ⟨unanswered, acks⟩ := registers.key held
      constructor
      · intro acknowledges
        rcases mem_called top acknowledges with ⟨_, made⟩ | kept
        · rcases (frameStep_follows step made).to_noMoreUsed with same | client
          · exact other same
          · cases client
        · exact unanswered kept
      · refine ((frameStep_effect step).acks ?_).trans acks
        intro equal
        subst equal
        have same : place = some .reader := here.2
        subst same
        exact unanswered member

theorem Pipeline.Registers.step {before after : Pipeline} (registers : before.Registers)
    (sound : before.Accounted) (hands : before.HandsOver) {action : Party × Choice}
    (taken : PipelineStep before action after) : after.Registers := by
  cases taken.cases with
  | released =>
      have unanswered (unanswered : before.Unanswered) :
          Pipeline.Unanswered { before with locked := none } :=
        ⟨unanswered.retire, unanswered.noMoreUsed, unanswered.acks⟩
      exact ⟨registers.ordered, fun data => unanswered (registers.data data),
        fun register => unanswered (registers.register register), registers.key⟩
  | begun unlocked idle step => exact registers.idle sound (idleStep_cases step)
  | @entered target rest unlocked waits =>
      have calls (frame : Frame) (same : ∀ target, frame ≠ .assign target)
          (other : ∀ event, frame ≠ .dispatch event)
          (member : frame ∈ Function.update (Function.update before.calls (some action.1) rest) none
            (.assign target :: (stateEvent target).toList.map .dispatch) (some .reader)) :
          frame ∈ before.calls (some .reader) := by
        rcases mem_entered waits member with ⟨absent, _⟩ | kept
        · cases absent
        · exact kept
      have unanswered (unanswered : before.Unanswered) : Pipeline.Unanswered {
          shared := { before.shared with
            connection := { before.shared.connection with state := target } }
          locked := some action.1
          calls := Function.update (Function.update before.calls (some action.1) rest) none
            (.assign target :: (stateEvent target).toList.map .dispatch) } :=
        ⟨fun member => unanswered.retire (calls _ (by simp) (by simp) member),
          fun member => unanswered.noMoreUsed (calls _ (by simp) (by simp) member),
          unanswered.acks⟩
      constructor
      · exact registers.ordered
      · exact fun data => unanswered (registers.data data)
      · exact fun member => unanswered (registers.register (calls _ (by simp) (by simp) member))
      · intro key
        obtain ⟨absent, acks⟩ := registers.key key
        exact ⟨fun member => absent (calls _ (by simp) (by simp) member), acks⟩
  | called here top step => exact registers.called sound hands top step

theorem acceptedPipeline_registers (connection : Connection) :
    (acceptedPipeline connection).Registers where
  ordered := List.Pairwise.nil
  data member := by cases member
  register member := by cases member
  key held := by cases held

/-! ## Whole runs -/

structure Pipeline.Releases (pipeline : Pipeline) : Prop where
  accounted : pipeline.Accounted
  handsOver : pipeline.HandsOver
  registers : pipeline.Registers

theorem Pipeline.Releases.step {before after : Pipeline} (releases : before.Releases)
    {action : Party × Choice} (taken : PipelineStep before action after) : after.Releases :=
  ⟨releases.accounted.step taken, releases.handsOver.step releases.accounted.accepted taken,
    releases.registers.step releases.accounted releases.handsOver taken⟩

/-- All queues are drained and all parties idle. -/
structure Pipeline.Quiescent (pipeline : Pipeline) : Prop where
  idle : ∀ place, pipeline.calls place = []
  unlocked : pipeline.locked = none
  acceptorQueue : pipeline.shared.acceptorQueue.items = []
  readerQueue : pipeline.shared.readerQueue.items = []
  workerQueue : pipeline.shared.workerQueue.items = []
  writerQueue : pipeline.shared.writerQueue.items = []

theorem Pipeline.Quiescent.count {pipeline : Pipeline} (quiescent : pipeline.Quiescent)
    (test : Frame → Bool) : pipeline.count test = 0 := by
  apply total_eq_zero
  intro place _
  rw [quiescent.idle place]
  rfl

/-- In a quiet pipe an owner has acknowledged or still has its handler installed. -/
theorem Pipeline.Releases.acks {pipeline : Pipeline} (releases : pipeline.Releases)
    (quiescent : pipeline.Quiescent) {owner : ConnectionOwner} (known : owner ≠ .client) :
    pipeline.shared.systemHandlers.count (.close, owner) + pipeline.shared.acks owner = 1 := by
  have whole := releases.accounted.closing owner
  have unqueued : pipeline.shared.queued owner = 0 := by
    cases owner with
    | reader => exact by simp [Shared.queued, quiescent.readerQueue]
    | worker => exact by simp [Shared.queued, quiescent.workerQueue]
    | writer => exact by simp [Shared.queued, quiescent.writerQueue]
    | acceptor | client => rfl
  rw [if_neg known, Pipeline.closing, quiescent.count, Shared.closing, unqueued] at whole
  omega

/-- A quiet pipe has released its connection once, and has no key of it, exactly when a
walk of CLOSE came to its end with all handlers installed. -/
theorem Pipeline.Releases.freed_iff {pipeline : Pipeline} (releases : pipeline.Releases)
    (quiescent : pipeline.Quiescent) :
    (pipeline.shared.freed.length = 1 ∧ pipeline.shared.readKey = false) ↔
      pipeline.shared.covered = true := by
  have released := releases.accounted.released
  rw [quiescent.count, Nat.zero_add] at released
  constructor
  · intro freed
    have all : ∀ owner, owner ≠ .client → 0 < pipeline.shared.acks owner := by
      rcases releases.accounted.settled with ⟨all, _⟩ | ⟨_, none, _⟩
      · exact all
      · rw [released, none] at freed
        exact absurd freed.1 (by simp)
    have told := releases.acks quiescent (show ConnectionOwner.writer ≠ .client by simp)
    have acknowledged := all .writer (by simp)
    have gone : (.close, .writer) ∉ pipeline.shared.systemHandlers := by
      rw [← List.count_eq_zero]
      omega
    have nothing : pipeline.pending = [] := by
      unfold Pipeline.pending
      rw [quiescent.idle]
      rfl
    rcases releases.handsOver.told nothing gone with walk | covered
    · rw [quiescent.idle] at walk
      cases walk
    · exact covered
  · intro covered
    have gone := (releases.handsOver.covered covered).2
    have all (owner : ConnectionOwner) (known : owner ≠ .client) :
        pipeline.shared.acks owner = 1 := by
      have told := releases.acks quiescent known
      rw [List.count_eq_zero.mpr (gone owner)] at told
      omega
    constructor
    · rcases releases.accounted.settled with ⟨_, last⟩ | ⟨⟨owner, known, missing⟩, _⟩
      · rw [released, last]
      · rw [all owner known] at missing
        cases missing
    · rw [Bool.eq_false_iff]
      intro key
      have unanswered := (releases.registers.key key).2
      rw [all .reader (by simp)] at unanswered
      cases unanswered

end Aio4c
