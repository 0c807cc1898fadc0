import Aio4c.AcceptedRelease

/-! What the owners of an accepted connection still have of it. An owner that answers to
CLOSE clears its queue, makes no other call behind the answer and, where nothing is sent
to it afterwards, never turns to the connection again. -/

set_option autoImplicit false

namespace Aio4c

open PlaceCount TransitionSystem

/-! ## Which steps may be taken -/

/-- An owner has cleared what it holds of the connection. -/
def Pipeline.Answered (pipeline : Pipeline) (owner : ConnectionOwner) : Prop :=
  .noMoreUsed owner ∈ pipeline.calls owner.place ∨ 0 < pipeline.shared.acks owner

/-- CLOSE is on its way to an owner, or has arrived. -/
def Pipeline.Told (pipeline : Pipeline) (owner : ConnectionOwner) : Prop :=
  0 < pipeline.shared.queued owner ∨ .retire owner ∈ pipeline.calls owner.place ∨
    pipeline.Answered owner

/-- No party outside the pipe is inside a call. -/
def Pipeline.Unattended (pipeline : Pipeline) : Prop :=
  ∀ id, pipeline.calls (some (.user id)) = [] ∧ pipeline.locked ≠ some (.user id)

/-- The worker and the writer are sent nothing behind their answer to CLOSE, and the reader,
which removes nothing from its queue, nothing behind the item of CLOSE. -/
def Pipeline.SentInTime (pipeline : Pipeline) (frame : Frame) : Prop :=
  (frame = .inboundEnqueue → ¬ pipeline.Answered .worker) ∧
    (frame = .dispatch .outboundData → ¬ pipeline.Answered .writer) ∧
    (frame = .dispatch .pendingClose →
      (.pendingClose, .reader) ∈ pipeline.shared.systemHandlers → ¬ pipeline.Told .reader)

/-- The connection is closed when its hand-over has completed. -/
def ClosedHandedOver (pipeline : Pipeline) (action : Party × Choice) : Prop :=
  (pipeline.calls (pipeline.place action.1)).head? = some (.stateLock .closed) →
    pipeline.calls (some .accepting) = []

def SendsInTime (pipeline : Pipeline) (action : Party × Choice) : Prop :=
  ∀ frame ∈ (pipeline.calls (pipeline.place action.1)).head?, pipeline.SentInTime frame

/-- The last owner acknowledges when no party outside the pipe is inside a call, and none
begins one in front of `FreeConnection`. -/
def LastUnattended (pipeline : Pipeline) (action : Party × Choice) : Prop :=
  (∀ owner, (pipeline.calls (pipeline.place action.1)).head? = some (.noMoreUsed owner) →
    (∀ other, other ≠ owner → pipeline.shared.connection.closedBy other = true) →
    pipeline.Unattended) ∧
  ∀ id, action.1 = .user id → pipeline.calls (some action.1) = [] →
    ∀ owner, .free (.noMoreUsed owner) ∉ pipeline.calls owner.place

instance (pipeline : Pipeline) (owner : ConnectionOwner) : Decidable (pipeline.Answered owner) :=
  inferInstanceAs (Decidable (_ ∨ _))

instance (pipeline : Pipeline) (owner : ConnectionOwner) : Decidable (pipeline.Told owner) :=
  inferInstanceAs (Decidable (_ ∨ _))

instance (pipeline : Pipeline) (frame : Frame) : Decidable (pipeline.SentInTime frame) :=
  inferInstanceAs (Decidable (_ ∧ _ ∧ _))

instance (pipeline : Pipeline) (action : Party × Choice) :
    Decidable (SendsInTime pipeline action) :=
  inferInstanceAs (Decidable (∀ frame ∈ _, _))

instance (pipeline : Pipeline) (action : Party × Choice) :
    Decidable (ClosedHandedOver pipeline action) :=
  inferInstanceAs (Decidable (_ → _))

/-! ## What is sent -/

/-- The queue of an owner holds nothing. -/
def Shared.Cleared (shared : Shared) : ConnectionOwner → Prop
  | .acceptor => shared.acceptorQueue.items = []
  | .reader => shared.readerQueue.items = []
  | .worker => shared.workerQueue.items = []
  | .writer => shared.writerQueue.items = []
  | .client => True

/-- The calls that send an item to an owner. -/
def Frame.SendsTo (shared : Shared) (owner : ConnectionOwner) : Frame → Prop
  | .inboundEnqueue => owner = .worker
  | .reenqueue => owner = .writer
  | .handOver .enqueueDataItem => owner = .reader
  | .dispatch event => (event, owner) ∈ shared.systemHandlers ∧ event ≠ .inboundData
  | _ => False

theorem systemHandler_cleared {shared : Shared} {event : Event} {called owner : ConnectionOwner}
    (cleared : shared.Cleared owner) :
    (systemHandler shared event called).2.Cleared owner ∨
      called = owner ∧ (called = .worker → event ≠ .inboundData) := by
  cases called with
  | acceptor => exact .inl cleared
  | client =>
      left
      cases owner <;> exact cleared
  | reader =>
      by_cases same : owner = .reader
      · exact .inr ⟨same.symm, by simp⟩
      · left
        cases owner with
        | reader => exact absurd rfl same
        | acceptor | worker | writer | client => exact cleared
  | writer =>
      by_cases same : owner = .writer
      · exact .inr ⟨same.symm, by simp⟩
      · left
        cases owner with
        | writer => exact absurd rfl same
        | acceptor | reader | worker | client => exact cleared
  | worker =>
      by_cases inbound : event = .inboundData
      · simp only [systemHandler, if_pos inbound]
        exact .inl cleared
      · by_cases same : owner = .worker
        · exact .inr ⟨same.symm, fun _ => inbound⟩
        · left
          simp only [systemHandler, if_neg inbound]
          cases owner with
          | worker => exact absurd rfl same
          | acceptor | reader | writer | client => exact cleared

theorem Shared.Cleared.retireStep {shared : Shared} {owner : ConnectionOwner}
    (cleared : shared.Cleared owner) (retiring : ConnectionOwner) :
    (retireStep shared retiring).Cleared owner := by
  cases retiring with
  | acceptor =>
      cases owner with
      | acceptor => simp [Shared.Cleared, Aio4c.retireStep]
      | reader | worker | writer | client => exact cleared
  | worker =>
      cases owner with
      | worker =>
          have nothing : shared.workerQueue.items = [] := cleared
          simp [Shared.Cleared, Aio4c.retireStep, nothing]
      | acceptor | reader | writer | client => exact cleared
  | writer =>
      cases owner with
      | writer => simp [Shared.Cleared, Aio4c.retireStep]
      | acceptor | reader | worker | client => exact cleared
  | reader | client => cases owner <;> exact cleared

/-- An owner that answers to its only CLOSE has nothing left; the reader removes nothing. -/
theorem retireStep_cleared {shared : Shared} {owner : ConnectionOwner}
    (last : shared.queued owner = 0) (reader : owner = .reader → shared.Cleared .reader) :
    (retireStep shared owner).Cleared owner := by
  cases owner with
  | acceptor | writer => simp [Shared.Cleared, retireStep]
  | reader => exact reader rfl
  | client => trivial
  | worker =>
      have absent : .close ∉ shared.workerQueue.items := List.count_eq_zero.mp last
      simp only [Shared.Cleared, retireStep, Fifo.discard_items, List.filter_eq_nil_iff]
      intro item member
      cases item with
      | task => simp
      | close => exact absurd member absent

theorem Shared.Accepted.sends {shared : Shared} (accepted : shared.Accepted)
    {event announced : Event} {owner : ConnectionOwner}
    (found : shared.systemHandlers.find? (fun handler => handler.1 = event) =
      some (announced, owner)) (inbound : owner = .worker → event ≠ .inboundData) :
    (Frame.dispatch event).SendsTo shared owner := by
  have listed := find_handler found
  refine ⟨listed, fun same => ?_⟩
  subst same
  have worker : owner = .worker := by
    simpa [acceptedHandlers] using accepted.handlers _ listed
  exact inbound worker rfl

theorem SharedEffect.cleared {shared after : Shared} {frame : Frame} {owner : ConnectionOwner}
    (effect : SharedEffect shared frame after) (accepted : shared.Accepted)
    (cleared : shared.Cleared owner) : after.Cleared owner ∨ frame.SendsTo shared owner := by
  cases effect with
  | @stays event _ called found =>
      rcases systemHandler_cleared cleared with same | ⟨same, inbound⟩
      · exact .inl same
      · subst same
        exact .inr (accepted.sends found inbound)
  | @once event _ called found =>
      have fewer : Shared.Cleared { shared with
          systemHandlers := shared.systemHandlers.erase (event, called) } owner := by
        cases owner <;> exact cleared
      rcases systemHandler_cleared fewer with same | ⟨same, inbound⟩
      · exact .inl same
      · subst same
        exact .inr (accepted.sends found inbound)
  | task =>
      cases owner with
      | worker => exact .inr rfl
      | acceptor | reader | writer | client => exact .inl cleared
  | reenqueued =>
      cases owner with
      | writer => exact .inr rfl
      | acceptor | reader | worker | client => exact .inl cleared
  | dataItem =>
      cases owner with
      | reader => exact .inr rfl
      | acceptor | worker | writer | client => exact .inl cleared
  | retired retiring => exact .inl (cleared.retireStep retiring)
  | quiet | assigned | walked | userCalled | registered | acknowledged | freed | installed | managed
  | refused | handed | connected =>
      left
      cases owner <;> exact cleared

theorem SharedEffect.reader_items {shared after : Shared} {frame : Frame}
    (effect : SharedEffect shared frame after) (accepted : shared.Accepted) :
    after.readerQueue.items = shared.readerQueue.items ∨ frame.SendsTo shared .reader ∧
      ∃ item, after.readerQueue.items = shared.readerQueue.items ++ [item] := by
  cases effect with
  | @stays event _ called found =>
      cases called with
      | reader =>
          exact .inr ⟨accepted.sends found (by simp), _, Fifo.push_items accepted.readerQueue _⟩
      | worker =>
          left
          simp only [systemHandler]
          split <;> rfl
      | acceptor | writer | client => exact .inl rfl
  | @once event _ called found =>
      cases called with
      | reader =>
          exact .inr ⟨accepted.sends found (by simp), _, Fifo.push_items accepted.readerQueue _⟩
      | worker =>
          left
          simp only [systemHandler]
          split <;> rfl
      | acceptor | writer | client => exact .inl rfl
  | dataItem => exact .inr ⟨rfl, _, Fifo.push_items accepted.readerQueue _⟩
  | retired retiring => cases retiring <;> exact .inl rfl
  | quiet | assigned | walked | userCalled | task | reenqueued | registered | acknowledged | freed
  | installed | managed | refused | handed | connected => exact .inl rfl

/-! ## Answers to CLOSE -/

/-- The owners that answer to CLOSE in a thread of their own. -/
structure ConnectionOwner.Threaded (owner : ConnectionOwner) : Prop where
  thread : owner ≠ .acceptor
  pipe : owner ≠ .client

theorem ConnectionOwner.Threaded.place_ne {owner : ConnectionOwner} (threaded : owner.Threaded) :
    owner.place ≠ none ∧ owner.place ≠ some .accepting := by
  cases owner with
  | acceptor => exact absurd rfl threaded.thread
  | client => exact absurd rfl threaded.pipe
  | reader | worker | writer => simp [ConnectionOwner.place]

def Frame.answers (owner : ConnectionOwner) : Frame → Bool
  | .retire other | .noMoreUsed other | .free (.noMoreUsed other) => decide (other = owner)
  | _ => false

theorem Frame.of_answers {frame : Frame} {owner : ConnectionOwner}
    (answers : frame.answers owner = true) :
    frame = .retire owner ∨ frame = .noMoreUsed owner ∨ frame = .free (.noMoreUsed owner) := by
  cases frame with
  | retire other | noMoreUsed other => simp_all [Frame.answers]
  | free cause =>
      cases cause with
      | unconnected => cases answers
      | noMoreUsed other => simp_all [Frame.answers]
  | stateTest | stateLock | assign | dispatch | userDispatch | userHandlers | inboundTest
  | inboundEnqueue | interestTest | recv | readTest | writeTest | fill | send | reenqueue | taskEnd
  | register | handOver | connectionInit | connectTest | connect | finishConnect | closedTest
  | setConnected | connectedTest => cases answers

theorem Follows.answers {shared : Shared} {frame next : Frame} {owner : ConnectionOwner}
    (follows : Follows shared frame next) (threaded : owner.Threaded)
    (answers : next.answers owner = true) : frame.answers owner = true := by
  rcases Frame.of_answers answers with same | same | same
  · subst same
    exact absurd follows.to_retire threaded.thread
  · subst same
    rcases follows.to_noMoreUsed with same | client
    · simp [same, Frame.answers]
    · exact absurd client threaded.pipe
  · subst same
    rcases follows.to_free with same | ⟨other, same, from_, _⟩
    · cases same
    · cases same
      simp [from_, Frame.answers]

theorem frameStep_answers {shared after : Shared} {frame : Frame} {choice : Choice}
    {frames : List Frame} {owner : ConnectionOwner} (answers : frame.answers owner = true)
    (step : frameStep shared frame choice = some (frames, after)) :
    frame = .retire owner ∧ frames = [.noMoreUsed owner] ∧ after = retireStep shared owner ∨
      frame = .noMoreUsed owner ∧ (frames = [] ∨ frames = [.free (.noMoreUsed owner)]) ∨
      frame = .free (.noMoreUsed owner) ∧ frames = [] := by
  rcases Frame.of_answers answers with same | same | same
  · subst same
    have result := frameStep_fixed rfl step
    rw [proceedStep, Option.some.injEq, Prod.mk.injEq] at result
    exact .inl ⟨rfl, result.1.symm, result.2.symm⟩
  · subst same
    have result := frameStep_fixed rfl step
    rw [proceedStep, Option.some.injEq, Prod.mk.injEq] at result
    refine .inr (.inl ⟨rfl, ?_⟩)
    rw [← result.1]
    split
    · exact .inr rfl
    · exact .inl rfl
  · subst same
    have result := frameStep_fixed rfl step
    rw [proceedStep, Option.some.injEq, Prod.mk.injEq] at result
    exact .inr (.inr ⟨rfl, result.1.symm⟩)

theorem IdleCase.answers {shared after : Shared} {party : Party} {frames : List Frame}
    {frame : Frame} {owner : ConnectionOwner} (idle : IdleCase shared party frames after)
    (member : frame ∈ frames) (answers : frame.answers owner = true) :
    frames = [frame] ∧ frame = .retire owner ∧ 0 < shared.queued owner := by
  cases idle with
  | readerClose taken =>
      cases List.mem_singleton.mp member
      have same : .reader = owner := of_decide_eq_true answers
      subst same
      refine ⟨rfl, rfl, List.count_pos_iff.mpr ?_⟩
      rw [(Fifo.dequeue_taken taken).1]
      exact List.mem_cons_self
  | workerClose taken =>
      cases List.mem_singleton.mp member
      have same : .worker = owner := of_decide_eq_true answers
      subst same
      refine ⟨rfl, rfl, List.count_pos_iff.mpr ?_⟩
      rw [(Fifo.dequeue_taken taken).1]
      exact List.mem_cons_self
  | writerClose taken =>
      cases List.mem_singleton.mp member
      have same : .writer = owner := of_decide_eq_true answers
      subst same
      refine ⟨rfl, rfl, List.count_pos_iff.mpr ?_⟩
      rw [(Fifo.dequeue_taken taken).1]
      exact List.mem_cons_self
  | user alive call =>
      cases List.mem_singleton.mp member
      cases call with
      | close force => cases force <;> cases answers
      | enableWriteInterest => cases answers
  | @clientEvent _ event =>
      cases event <;> simp only [clientRun, List.mem_cons, List.not_mem_nil, or_false] at member
      case init | connected | close =>
        subst member
        cases answers
      case connecting =>
        rcases member with same | same <;> subst same <;> cases answers
  | data =>
      rcases List.mem_cons.mp member with same | last
      · cases same
        cases answers
      · cases List.mem_singleton.mp last
        cases answers
  | task =>
      rcases List.mem_cons.mp member with same | last
      · cases same
        cases answers
      · cases List.mem_singleton.mp last
        cases answers
  | ready | outbound =>
      cases List.mem_singleton.mp member
      cases answers
  | clientDrained | readerEvent | readerDrained | workerDrained | writerEvent | writerDrained =>
      cases member

/-- An answer to CLOSE is the only call of its thread, made without the state lock. -/
def Pipeline.AnswersAlone (pipeline : Pipeline) : Prop :=
  ∀ owner : ConnectionOwner, owner.Threaded → ∀ frame ∈ pipeline.calls owner.place,
    frame.answers owner = true →
      pipeline.calls owner.place = [frame] ∧ pipeline.locked ≠ owner.place

theorem Pipeline.AnswersAlone.step {before after : Pipeline} (alone : before.AnswersAlone)
    {action : Party × Choice} (taken : PipelineStep before action after) : after.AnswersAlone := by
  intro owner threaded frame member answers
  have noSection := threaded.place_ne.1
  cases taken.cases with
  | released => exact ⟨(alone owner threaded frame member answers).1, noSection.symm⟩
  | @begun frames shared unlocked idle step =>
      by_cases same : owner.place = some action.1
      · simp only [same, Function.update_self] at member ⊢
        exact ⟨((idleStep_cases step).answers member answers).1, unlocked⟩
      · simp only [Function.update_of_ne same] at member ⊢
        exact alone owner threaded frame member answers
  | @entered target rest unlocked waits =>
      have kept : frame ∈ before.calls owner.place := by
        rcases mem_entered waits member with ⟨absent, _⟩ | kept
        · exact absurd absent noSection
        · exact kept
      obtain ⟨single, _⟩ := alone owner threaded frame kept answers
      have other : owner.place ≠ some action.1 := by
        intro same
        rw [same, waits] at single
        rw [← (List.cons.inj single).1] at answers
        cases answers
      simp only [Function.update_of_ne noSection, Function.update_of_ne other]
      exact ⟨single, Ne.symm other⟩
  | @called place top rest frames shared here waits step =>
      by_cases same : owner.place = place
      · subst same
        have answering : top.answers owner = true := by
          rcases mem_called waits member with ⟨_, made⟩ | kept
          · exact (frameStep_follows step made).answers threaded answers
          · have single := (alone owner threaded frame kept answers).1
            rw [waits] at single
            rw [(List.cons.inj single).1]
            exact answers
        obtain ⟨single, unlocked⟩ :=
          alone owner threaded top (by rw [waits]; exact List.mem_cons_self) answering
        rw [waits] at single
        obtain ⟨_, nothing⟩ := List.cons.inj single
        subst nothing
        simp only [Function.update_self, List.append_nil] at member ⊢
        refine ⟨?_, unlocked⟩
        rcases frameStep_answers answering step with ⟨_, made, _⟩ | ⟨_, made | made⟩ | ⟨_, made⟩
        · rw [made] at member ⊢
          rw [List.mem_singleton.mp member]
        · rw [made] at member
          cases member
        · rw [made] at member ⊢
          rw [List.mem_singleton.mp member]
        · rw [made] at member
          cases member
      · simp only [Function.update_of_ne same] at member ⊢
        exact alone owner threaded frame member answers

/-- The answer of an owner is its part in the account of CLOSE. -/
theorem Pipeline.answering_counted {pipeline : Pipeline} {owner : ConnectionOwner}
    (answering : .retire owner ∈ pipeline.calls owner.place ∨ pipeline.Answered owner) :
    1 ≤ pipeline.count (Frame.closing owner) + pipeline.shared.acks owner := by
  have counted (frame : Frame) (member : frame ∈ pipeline.calls owner.place)
      (closing : frame.closing owner = true) : 1 ≤ pipeline.count (Frame.closing owner) :=
    Pipeline.one_le_count owner.place_mem member closing
  rcases answering with retires | acknowledges | acks
  · exact Nat.le_add_right_of_le (counted _ retires (by simp [Frame.closing]))
  · exact Nat.le_add_right_of_le (counted _ acknowledges (by simp [Frame.closing]))
  · exact Nat.le_add_left_of_le acks

theorem Pipeline.Accounted.closing_le {pipeline : Pipeline} (sound : pipeline.Accounted)
    (owner : ConnectionOwner) :
    pipeline.count (Frame.closing owner) +
      (pipeline.shared.systemHandlers.count (.close, owner) + pipeline.shared.queued owner +
        pipeline.shared.acks owner) ≤ 1 := by
  have whole := sound.closing owner
  unfold Pipeline.closing Shared.closing at whole
  rw [whole]
  split <;> decide

/-- An owner that was told of CLOSE is not told again. -/
theorem Pipeline.Accounted.told {pipeline : Pipeline} (sound : pipeline.Accounted)
    {owner : ConnectionOwner} (told : pipeline.Told owner) :
    (.close, owner) ∉ pipeline.shared.systemHandlers := by
  intro installed
  have handler := List.count_pos_iff.mpr installed
  have whole := sound.closing_le owner
  rcases told with queued | answering
  · omega
  · have counted := Pipeline.answering_counted answering
    omega

theorem Pipeline.Accounted.unqueued {pipeline : Pipeline} (sound : pipeline.Accounted)
    {owner : ConnectionOwner}
    (answering : .retire owner ∈ pipeline.calls owner.place ∨ pipeline.Answered owner) :
    pipeline.shared.queued owner = 0 := by
  have whole := sound.closing_le owner
  have counted := Pipeline.answering_counted answering
  omega

/-- An owner that answered has nothing queued and rests; nothing comes behind the reader's
CLOSE. -/
structure Pipeline.Clears (pipeline : Pipeline) : Prop where
  alone : pipeline.AnswersAlone
  rests : ∀ owner : ConnectionOwner, owner.Threaded → 0 < pipeline.shared.acks owner →
    (pipeline.calls owner.place = [] ∨
      pipeline.calls owner.place = [.free (.noMoreUsed owner)]) ∧ pipeline.locked ≠ owner.place
  cleared : ∀ owner, pipeline.Answered owner → pipeline.shared.Cleared owner
  ordered : pipeline.shared.readerQueue.items.Pairwise fun earlier _ => earlier ≠ .event .close
  reader : .retire .reader ∈ pipeline.calls (some .reader) → pipeline.shared.Cleared .reader

/-- Behind its answer an owner makes no other call. -/
theorem Pipeline.Clears.resting {pipeline : Pipeline} (clears : pipeline.Clears)
    {owner : ConnectionOwner} (threaded : owner.Threaded) (answered : pipeline.Answered owner)
    {frame : Frame} (member : frame ∈ pipeline.calls owner.place) : frame.answers owner = true := by
  rcases answered with acknowledges | acks
  · have single := (clears.alone owner threaded _ acknowledges (by simp [Frame.answers])).1
    rw [single] at member
    rw [List.mem_singleton.mp member]
    simp [Frame.answers]
  · rcases (clears.rests owner threaded acks).1 with nothing | freeing
    · rw [nothing] at member
      cases member
    · rw [freeing] at member
      rw [List.mem_singleton.mp member]
      simp [Frame.answers]

/-- An owner that answered is sent nothing, and the reader nothing behind its CLOSE. -/
theorem Pipeline.Clears.not_sends {pipeline : Pipeline} (clears : pipeline.Clears)
    (sound : pipeline.Accounted) (hands : pipeline.HandsOver) {place : Option Party}
    {frame : Frame} {rest : List Frame} (top : pipeline.calls place = frame :: rest)
    (sent : pipeline.SentInTime frame) {owner : ConnectionOwner}
    (done : pipeline.Answered owner ∨ owner = .reader ∧ pipeline.Told owner) :
    ¬ frame.SendsTo pipeline.shared owner := by
  intro sends
  have member : frame ∈ pipeline.calls place := by
    rw [top]
    exact List.mem_cons_self
  have here := sound.accepted.places place frame member
  have told : pipeline.Told owner := by
    rcases done with answered | ⟨_, told⟩
    · exact .inr (.inr answered)
    · exact told
  cases frame with
  | inboundEnqueue =>
      have same : owner = .worker := sends
      subst same
      rcases done with answered | ⟨reader, _⟩
      · exact sent.1 rfl answered
      · cases reader
  | reenqueue =>
      have same : owner = .writer := sends
      subst same
      have writing : place = some .writer := here
      subst writing
      rcases done with answered | ⟨reader, _⟩
      · have answers := clears.resting ⟨by simp, by simp⟩ answered member
        cases answers
      · cases reader
  | handOver step =>
      cases step with
      | enqueueDataItem =>
          have same : owner = .reader := sends
          subst same
          have accepting : place = some .accepting := here
          subst accepting
          have waits : .addSystemHandler .close .reader ∈ pipeline.pending := by
            apply (installs_tails _ hands.tail).1
            exact List.mem_filterMap.mpr ⟨_, member, rfl⟩
          obtain ⟨unanswered, unqueued⟩ := sound.before_install waits
          rcases told with queued | retires | acknowledges | acks
          · exact unqueued (List.count_pos_iff.mp queued)
          · exact unanswered.retire retires
          · exact unanswered.noMoreUsed acknowledges
          · rw [unanswered.acks] at acks
            cases acks
      | addSystemHandler | managedBy | connected => cases sends
  | dispatch event =>
      obtain ⟨installed, other⟩ := sends
      have listed := sound.accepted.shared.handlers _ installed
      simp only [acceptedHandlers, List.mem_cons, Prod.mk.injEq, List.not_mem_nil,
        or_false] at listed
      rcases listed with ⟨rfl, rfl⟩ | ⟨rfl, rfl⟩ | ⟨rfl, rfl⟩ | ⟨rfl, rfl⟩ | ⟨rfl, rfl⟩ | ⟨rfl, rfl⟩ |
        ⟨rfl, rfl⟩
      · exact sound.told told installed
      · exact sent.2.2 rfl installed told
      · exact sound.told told installed
      · exact other rfl
      · exact sound.told told installed
      · rcases done with answered | ⟨reader, _⟩
        · exact sent.2.1 rfl answered
        · cases reader
      · exact sound.told told installed
  | stateTest | stateLock | assign | userDispatch | userHandlers | inboundTest | interestTest | recv
  | readTest | writeTest | fill | send | taskEnd | register | retire | noMoreUsed | free
  | connectionInit | connectTest | connect | finishConnect | closedTest | setConnected
  | connectedTest => cases sends

/-! ## The steps of idle parties -/

theorem IdleCase.fewer {shared after : Shared} {party : Party} {frames : List Frame}
    (idle : IdleCase shared party frames after) :
    after.acceptorQueue = shared.acceptorQueue ∧
      after.readerQueue.items <:+ shared.readerQueue.items ∧
      after.workerQueue.items <:+ shared.workerQueue.items ∧
      after.writerQueue.items <:+ shared.writerQueue.items := by
  cases idle with
  | data taken | readerClose taken | readerEvent _ taken =>
      refine ⟨rfl, ?_, List.suffix_refl _, List.suffix_refl _⟩
      rw [(Fifo.dequeue_taken taken).1]
      exact List.suffix_cons _ _
  | readerDrained missed =>
      refine ⟨rfl, ?_, List.suffix_refl _, List.suffix_refl _⟩
      rw [(Fifo.dequeue_missed missed (by simp)).1]
  | task taken | workerClose taken =>
      refine ⟨rfl, List.suffix_refl _, ?_, List.suffix_refl _⟩
      rw [(Fifo.dequeue_taken taken).1]
      exact List.suffix_cons _ _
  | workerDrained missed =>
      refine ⟨rfl, List.suffix_refl _, ?_, List.suffix_refl _⟩
      rw [(Fifo.dequeue_missed missed (by simp)).1]
  | outbound taken | writerClose taken | writerEvent _ taken =>
      refine ⟨rfl, List.suffix_refl _, List.suffix_refl _, ?_⟩
      rw [(Fifo.dequeue_taken taken).1]
      exact List.suffix_cons _ _
  | writerDrained missed =>
      refine ⟨rfl, List.suffix_refl _, List.suffix_refl _, ?_⟩
      rw [(Fifo.dequeue_missed missed (by simp)).1]
  | clientEvent | clientDrained | ready | user =>
      exact ⟨rfl, List.suffix_refl _, List.suffix_refl _, List.suffix_refl _⟩

theorem IdleCase.cleared {shared after : Shared} {party : Party} {frames : List Frame}
    {owner : ConnectionOwner} (idle : IdleCase shared party frames after)
    (cleared : shared.Cleared owner) : after.Cleared owner := by
  obtain ⟨acceptor, reader, worker, writer⟩ := idle.fewer
  have nothing {α : Type} {items left : List α} (fewer : left <:+ items) (empty : items = []) :
      left = [] := by
    rw [empty] at fewer
    exact List.suffix_nil.mp fewer
  cases owner with
  | acceptor =>
      have empty : shared.acceptorQueue.items = [] := cleared
      exact (congrArg Fifo.items acceptor).trans empty
  | reader => exact nothing reader cleared
  | worker => exact nothing worker cleared
  | writer => exact nothing writer cleared
  | client => trivial

/-- A thread with an empty queue, and the reader without a key, has nothing to do. -/
theorem IdleCase.rest {shared after : Shared} {party : Party} {frames : List Frame}
    {owner : ConnectionOwner} (idle : IdleCase shared party frames after)
    (threaded : owner.Threaded) (here : owner.place = some party) (cleared : shared.Cleared owner)
    (key : owner = .reader → shared.readKey = false) : frames = [] := by
  have missed {α : Type} {fifo queue : Fifo α} {wait : Bool} {item : α} (empty : fifo.items = [])
      (taken : fifo.dequeue wait = (.taken item, queue)) : False := by
    rw [(Fifo.dequeue_taken taken).1] at empty
    cases empty
  cases idle with
  | clientEvent | clientDrained => exact absurd here threaded.place_ne.2
  | user => exact absurd here.symm ConnectionOwner.place_ne_user
  | readerEvent | readerDrained | workerDrained | writerEvent | writerDrained => rfl
  | data taken | readerClose taken =>
      cases owner with
      | reader => exact (missed cleared taken).elim
      | acceptor | worker | writer | client => cases here
  | ready held =>
      cases owner with
      | reader =>
          rw [key rfl] at held
          cases held
      | acceptor | worker | writer | client => cases here
  | task taken | workerClose taken =>
      cases owner with
      | worker => exact (missed cleared taken).elim
      | acceptor | reader | writer | client => cases here
  | outbound taken | writerClose taken =>
      cases owner with
      | writer => exact (missed cleared taken).elim
      | acceptor | reader | worker | client => cases here

theorem Pipeline.Clears.begun {before : Pipeline} (clears : before.Clears)
    (registers : before.Registers) {party : Party} {frames : List Frame} {shared : Shared}
    (idle : IdleCase before.shared party frames shared)
    (alone : Pipeline.AnswersAlone { before with
      shared, calls := Function.update before.calls (some party) frames }) :
    Pipeline.Clears { before with
      shared, calls := Function.update before.calls (some party) frames } := by
  have acks (owner : ConnectionOwner) : shared.acks owner = before.shared.acks owner := by
    obtain ⟨_, _, _, _, same⟩ := idle.queues
    rw [same]
    rfl
  refine ⟨alone, ?_, ?_, ?_, ?_⟩
  · intro owner threaded acknowledged
    change 0 < shared.acks owner at acknowledged
    rw [acks] at acknowledged
    obtain ⟨calls, unlocked⟩ := clears.rests owner threaded acknowledged
    refine ⟨?_, unlocked⟩
    by_cases here : owner.place = some party
    · left
      simp only [here, Function.update_self]
      apply idle.rest threaded here (clears.cleared owner (.inr acknowledged))
      intro reader
      subst reader
      rw [Bool.eq_false_iff]
      intro held
      rw [(registers.key held).2] at acknowledged
      cases acknowledged
    · simp only [Function.update_of_ne here]
      exact calls
  · intro owner answered
    apply idle.cleared
    apply clears.cleared
    rcases answered with acknowledges | acknowledged
    · rcases mem_begun acknowledges with ⟨_, made⟩ | kept
      · cases (idle.answers made (show Frame.answers owner _ = true by simp [Frame.answers])).2.1
      · exact .inl kept
    · change 0 < shared.acks owner at acknowledged
      rw [acks] at acknowledged
      exact .inr acknowledged
  · exact clears.ordered.sublist idle.fewer.2.1.sublist
  · intro retires
    rcases mem_begun retires with ⟨_, made⟩ | kept
    · obtain ⟨queue, taken, _, same⟩ := idle.answer.2 made
      have ordered := clears.ordered
      rw [(Fifo.dequeue_taken taken).1, List.pairwise_cons] at ordered
      rw [same]
      exact List.eq_nil_iff_forall_not_mem.mpr fun later member => ordered.1 later member rfl
    · exact idle.cleared (clears.reader kept)

/-! ## The steps of calls -/

/-- The thread of an owner that acknowledged has no call left but the one that frees. -/
theorem Pipeline.Clears.called_rests {before : Pipeline} (clears : before.Clears)
    (accepted : before.Accepted) {place : Option Party} {frame : Frame} {rest frames : List Frame}
    {shared : Shared} {choice : Choice} (top : before.calls place = frame :: rest)
    (step : frameStep before.shared frame choice = some (frames, shared))
    {owner : ConnectionOwner} (threaded : owner.Threaded) (acknowledged : 0 < shared.acks owner) :
    (Function.update before.calls place (frames ++ rest) owner.place = [] ∨
      Function.update before.calls place (frames ++ rest) owner.place =
        [.free (.noMoreUsed owner)]) ∧ before.locked ≠ owner.place := by
  have member : frame ∈ before.calls place := by
    rw [top]
    exact List.mem_cons_self
  have here := accepted.places place frame member
  by_cases acknowledging : frame = .noMoreUsed owner
  · subst acknowledging
    have same : place = owner.place := here.2
    subst same
    have answers : (Frame.noMoreUsed owner).answers owner = true := by simp [Frame.answers]
    obtain ⟨single, unlocked⟩ := clears.alone owner threaded _ member answers
    rw [top] at single
    obtain ⟨_, nothing⟩ := List.cons.inj single
    subst nothing
    rw [Function.update_self, List.append_nil]
    refine ⟨?_, unlocked⟩
    rcases frameStep_answers answers step with ⟨other, _⟩ | ⟨_, made⟩ | ⟨other, _⟩
    · cases other
    · exact made
    · cases other
  · rw [(frameStep_effect step).acks acknowledging] at acknowledged
    obtain ⟨calls, unlocked⟩ := clears.rests owner threaded acknowledged
    refine ⟨?_, unlocked⟩
    by_cases same : owner.place = place
    · subst same
      left
      rcases calls with nothing | freeing
      · rw [nothing] at top
        cases top
      · rw [freeing] at top
        obtain ⟨free, nothing⟩ := List.cons.inj top
        subst free nothing
        have answers : (Frame.free (.noMoreUsed owner)).answers owner = true := by
          simp [Frame.answers]
        rw [Function.update_self, List.append_nil]
        rcases frameStep_answers answers step with ⟨other, _⟩ | ⟨other, _⟩ | ⟨_, made⟩
        · cases other
        · cases other
        · exact made
    · rw [Function.update_of_ne same]
      exact calls

/-- An answer clears the queue of its owner, and no later call sends it anything. -/
theorem Pipeline.Clears.called_cleared {before : Pipeline} (clears : before.Clears)
    (sound : before.Accounted) (hands : before.HandsOver) {place : Option Party} {frame : Frame}
    {rest frames : List Frame} {shared : Shared} {choice : Choice}
    (top : before.calls place = frame :: rest) (sent : before.SentInTime frame)
    (step : frameStep before.shared frame choice = some (frames, shared))
    {owner : ConnectionOwner}
    (answered : .noMoreUsed owner ∈ Function.update before.calls place (frames ++ rest)
      owner.place ∨ 0 < shared.acks owner) : shared.Cleared owner := by
  have effect := frameStep_effect step
  have member : frame ∈ before.calls place := by
    rw [top]
    exact List.mem_cons_self
  have earlier (answered : before.Answered owner) : shared.Cleared owner := by
    rcases effect.cleared sound.accepted.shared (clears.cleared owner answered) with kept | sends
    · exact kept
    · exact absurd sends (clears.not_sends sound hands top sent (.inl answered))
  rcases answered with acknowledges | acknowledged
  · rcases mem_called top acknowledges with ⟨same, made⟩ | kept
    · rcases (frameStep_follows step made).to_noMoreUsed with retires | client
      · subst retires same
        have result := frameStep_fixed rfl step
        rw [proceedStep, Option.some.injEq, Prod.mk.injEq] at result
        rw [← result.2]
        apply retireStep_cleared (sound.unqueued (.inl member))
        intro reader
        subst reader
        exact clears.reader member
      · subst client
        trivial
    · exact earlier (.inl kept)
  · by_cases acknowledging : frame = .noMoreUsed owner
    · subst acknowledging
      apply earlier
      rw [(sound.accepted.places place _ member).2] at member
      exact .inl member
    · rw [effect.acks acknowledging] at acknowledged
      exact earlier (.inr acknowledged)

theorem Pipeline.Clears.called {before : Pipeline} (clears : before.Clears)
    (sound : before.Accounted) (hands : before.HandsOver) {place : Option Party} {frame : Frame}
    {rest frames : List Frame} {shared : Shared} {choice : Choice}
    (top : before.calls place = frame :: rest) (sent : before.SentInTime frame)
    (step : frameStep before.shared frame choice = some (frames, shared))
    (alone : Pipeline.AnswersAlone { before with
      shared, calls := Function.update before.calls place (frames ++ rest) }) :
    Pipeline.Clears { before with
      shared, calls := Function.update before.calls place (frames ++ rest) } where
  alone := alone
  rests owner threaded acknowledged :=
    clears.called_rests sound.accepted top step threaded acknowledged
  cleared owner answered := clears.called_cleared sound hands top sent step answered
  ordered := by
    rcases (frameStep_effect step).reader_items sound.accepted.shared with same | ⟨sends, pushed⟩
    · simp only [same]
      exact clears.ordered
    · obtain ⟨item, pushed⟩ := pushed
      simp only [pushed]
      rw [List.pairwise_append]
      refine ⟨clears.ordered, List.pairwise_singleton _ _, ?_⟩
      intro earlier present _ _ closes
      subst closes
      have told : before.Told .reader := .inl (List.count_pos_iff.mpr present)
      exact clears.not_sends sound hands top sent (.inr ⟨rfl, told⟩) sends
  reader := by
    intro retires
    rcases mem_called top retires with ⟨_, made⟩ | kept
    · cases (frameStep_follows step made).to_retire
    · have told : before.Told .reader := .inr (.inl kept)
      have cleared := (frameStep_effect step).cleared sound.accepted.shared (clears.reader kept)
      rcases cleared with cleared | sends
      · exact cleared
      · exact absurd sends (clears.not_sends sound hands top sent (.inr ⟨rfl, told⟩))

theorem Pipeline.Clears.step {before after : Pipeline} (clears : before.Clears)
    (releases : before.Releases) {action : Party × Choice} (sent : SendsInTime before action)
    (taken : PipelineStep before action after) : after.Clears := by
  have alone := clears.alone.step taken
  cases taken.cases with
  | released =>
      refine ⟨alone, ?_, clears.cleared, clears.ordered, clears.reader⟩
      intro owner threaded acknowledged
      exact ⟨(clears.rests owner threaded acknowledged).1, threaded.place_ne.1.symm⟩
  | begun unlocked idle step =>
      exact clears.begun releases.registers (idleStep_cases step) alone
  | @entered target rest unlocked waits =>
      have calls {frame : Frame} {place : Option Party} (same : ∀ target, frame ≠ .assign target)
          (other : ∀ event, frame ≠ .dispatch event)
          (member : frame ∈ Function.update (Function.update before.calls (some action.1) rest) none
            (.assign target :: (stateEvent target).toList.map .dispatch) place) :
          frame ∈ before.calls place := by
        rcases mem_entered waits member with ⟨_, assigns | ⟨event, _, dispatches⟩⟩ | kept
        · exact absurd assigns (same target)
        · exact absurd dispatches (other event)
        · exact kept
      refine ⟨alone, ?_, ?_, clears.ordered, ?_⟩
      · intro owner threaded acknowledged
        obtain ⟨rests, _⟩ := clears.rests owner threaded acknowledged
        have other : owner.place ≠ some action.1 := by
          intro same
          rw [same, waits] at rests
          rcases rests with nothing | freeing
          · cases nothing
          · cases (List.cons.inj freeing).1
        simp only [Function.update_of_ne threaded.place_ne.1, Function.update_of_ne other]
        exact ⟨rests, Ne.symm other⟩
      · intro owner answered
        have answered' : before.Answered owner := by
          rcases answered with acknowledges | acknowledged
          · exact .inl (calls (by simp) (by simp) acknowledges)
          · exact .inr acknowledged
        cases owner <;> exact clears.cleared _ answered'
      · intro retires
        exact clears.reader (calls (by simp) (by simp) retires)
  | called here top step =>
      apply clears.called releases.accounted releases.handsOver top _ step alone
      apply sent
      rw [here, top]
      rfl

end Aio4c
