import Aio4c.LastUse
import Aio4c.AcceptedRuns

/-! The moment at which an accepted connection is freed. Where nothing is sent behind an
answer to CLOSE and no party outside the pipe is inside a call when the last owner
acknowledges, nothing but `FreeConnection` itself refers to the connection any more. -/

set_option autoImplicit false

namespace Aio4c

open PlaceCount TransitionSystem

/-! ## The end of the hand-over -/

/-- An owner is told of CLOSE when the accepting thread has done with the connection. -/
def Pipeline.HandedOver (pipeline : Pipeline) : Prop :=
  pipeline.calls (some .accepting) = [] ∧ pipeline.locked ≠ some .accepting ∨
    .dispatch .close ∉ pipeline.calls none ∧ ∀ owner, ¬ pipeline.Told owner

theorem Pipeline.Accepted.accepting_step {before after : Pipeline} (accepted : before.Accepted)
    (idle : before.calls (some .accepting) = [] ∧ before.locked ≠ some .accepting)
    {action : Party × Choice} (taken : PipelineStep before action after) :
    after.calls (some .accepting) = [] ∧ after.locked ≠ some .accepting := by
  obtain ⟨nothing, unlocked⟩ := idle
  cases taken.cases with
  | released => exact ⟨nothing, Option.some_ne_none _ |>.symm⟩
  | @begun frames shared _ waiting step =>
      refine ⟨?_, unlocked⟩
      by_cases here : some Party.accepting = some action.1
      · simp only [here, Function.update_self]
        have cases := idleStep_cases step
        rw [← Option.some.inj here] at cases
        cases cases with
        | clientEvent dequeued =>
            have items := (Fifo.dequeue_taken dequeued).1
            rw [accepted.shared.clientQueue] at items
            cases items
        | clientDrained => rfl
      · simp only [Function.update_of_ne here]
        exact nothing
  | @entered target rest _ waits =>
      have other : some Party.accepting ≠ some action.1 := by
        intro here
        rw [← here, nothing] at waits
        cases waits
      refine ⟨?_, Ne.symm other⟩
      simp only [Function.update_of_ne (Option.some_ne_none _), Function.update_of_ne other]
      exact nothing
  | @called place frame rest frames shared here top step =>
      have other : some Party.accepting ≠ place := by
        intro here
        rw [← here, nothing] at top
        cases top
      simp only [Function.update_of_ne other]
      exact ⟨nothing, unlocked⟩

theorem systemHandler_queued {shared : Shared} {event : Event} {called : ConnectionOwner}
    (accepted : shared.Accepted) (listed : (event, called) ∈ acceptedHandlers)
    (other : event ≠ .close) (owner : ConnectionOwner) :
    (systemHandler shared event called).2.queued owner = shared.queued owner := by
  cases called with
  | acceptor => rfl
  | client => cases owner <;> rfl
  | reader =>
      cases owner with
      | reader => simp [systemHandler, Shared.queued, Shared.read, accepted.readerQueue, other]
      | acceptor | worker | writer | client => rfl
  | writer =>
      cases owner with
      | writer => simp [systemHandler, Shared.queued, Shared.write, accepted.writerQueue, other]
      | acceptor | reader | worker | client => rfl
  | worker =>
      have inbound : event = .inboundData := by
        simpa [acceptedHandlers, other] using listed
      simp only [systemHandler, if_pos inbound]

theorem SharedEffect.queued {shared after : Shared} {frame : Frame}
    (effect : SharedEffect shared frame after) (accepted : shared.Accepted)
    (other : frame ≠ .dispatch .close) (owner : ConnectionOwner) :
    after.queued owner ≤ shared.queued owner := by
  cases effect with
  | @stays event _ called found =>
      have listed := accepted.handlers _ (find_handler found)
      rw [systemHandler_queued accepted listed (by simpa using other)]
  | @once event _ called found =>
      have fewer : Shared.Accepted { shared with
          systemHandlers := shared.systemHandlers.erase (event, called) } :=
        { accepted with
          handlers := fun handler member => accepted.handlers handler (List.mem_of_mem_erase member) }
      have listed := accepted.handlers _ (find_handler found)
      rw [systemHandler_queued fewer listed (by simpa using other)]
      cases owner <;> exact Nat.le_refl _
  | task => cases owner <;> simp [Shared.queued, Shared.work, accepted.workerQueue]
  | reenqueued => cases owner <;> simp [Shared.queued, Shared.write, accepted.writerQueue]
  | dataItem => cases owner <;> simp [Shared.queued, Shared.read, accepted.readerQueue]
  | retired retiring =>
      cases retiring <;> cases owner <;>
        simp [Shared.queued, retireStep, List.count_filter]
  | quiet | assigned | walked | userCalled | registered | acknowledged | freed | installed | managed
  | refused | handed | connected => cases owner <;> exact Nat.le_refl _

theorem systemHandler_retire {shared : Shared} {event : Event} {called owner : ConnectionOwner}
    (made : .retire owner ∈ (systemHandler shared event called).1) : called = .acceptor := by
  cases called with
  | acceptor => rfl
  | client | reader | writer => cases made
  | worker =>
      simp only [systemHandler] at made
      split at made
      · cases List.mem_singleton.mp made
      · cases made

theorem dispatchStep_retire {shared : Shared} {event : Event} {owner : ConnectionOwner}
    (accepted : shared.Accepted) (made : .retire owner ∈ (dispatchStep shared event).1) :
    event = .close := by
  unfold dispatchStep at made
  split at made
  · next found =>
      have listed := accepted.handlers _ (find_handler found)
      apply acceptor_mem_acceptedHandlers
      split at made
      · rcases List.mem_append.mp made with handled | last
        · rw [systemHandler_retire handled] at listed
          exact listed
        · cases List.mem_singleton.mp last
      · rcases List.mem_append.mp made with handled | last
        · rw [systemHandler_retire handled] at listed
          exact listed
        · cases List.mem_singleton.mp last
  · cases List.mem_singleton.mp made

theorem frameStep_retire {shared after : Shared} {frame : Frame} {choice : Choice}
    {frames : List Frame} {owner : ConnectionOwner} (accepted : shared.Accepted)
    (step : frameStep shared frame choice = some (frames, after)) (made : .retire owner ∈ frames) :
    frame = .dispatch .close := by
  have follows := frameStep_follows step made
  have acceptor := follows.to_retire
  subst acceptor
  generalize same : Frame.retire .acceptor = next at follows
  cases follows with
  | retire event =>
      have result := frameStep_dispatch step
      have closes : event = .close := by
        apply dispatchStep_retire accepted
        rw [result]
        exact made
      rw [closes]
  | userCall call => rcases UserCall.frame_ne same with ⟨_, same⟩ | same <;> cases same
  | _ => cases same

theorem Follows.to_walk {shared : Shared} {frame : Frame}
    (follows : Follows shared frame (.dispatch .close)) : frame = .dispatch .close := by
  generalize same : Frame.dispatch .close = next at follows
  cases follows with
  | dispatch =>
      cases same
      rfl
  | userCall call => rcases UserCall.frame_ne same with ⟨_, same⟩ | same <;> cases same
  | _ => cases same

theorem Pipeline.HandedOver.called {before : Pipeline} (sound : before.Accounted)
    {place : Option Party} {frame : Frame} {rest frames : List Frame} {shared : Shared}
    {choice : Choice} (top : before.calls place = frame :: rest)
    (unwalked : .dispatch .close ∉ before.calls none) (untold : ∀ owner, ¬ before.Told owner)
    (step : frameStep before.shared frame choice = some (frames, shared))
    (after : Pipeline.Accepted { before with
      shared, calls := Function.update before.calls place (frames ++ rest) }) :
    Pipeline.HandedOver { before with
      shared, calls := Function.update before.calls place (frames ++ rest) } := by
  have effect := frameStep_effect step
  have member : frame ∈ before.calls place := by
    rw [top]
    exact List.mem_cons_self
  have here := sound.accepted.places place frame member
  have other : frame ≠ .dispatch .close := by
    intro same
    subst same
    have locked : place = none := here
    subst locked
    exact unwalked member
  right
  constructor
  · intro walks
    rcases mem_called top walks with ⟨_, made⟩ | kept
    · exact other (frameStep_follows step made).to_walk
    · exact unwalked kept
  · intro owner told
    apply untold owner
    rcases told with queued | retires | acknowledges | acks
    · exact .inl (Nat.lt_of_lt_of_le queued (effect.queued sound.accepted.shared other owner))
    · rcases mem_called top retires with ⟨_, made⟩ | kept
      · exact absurd (frameStep_retire sound.accepted.shared step made) other
      · exact .inr (.inl kept)
    · rcases mem_called top acknowledges with ⟨same, made⟩ | kept
      · rcases (frameStep_follows step made).to_noMoreUsed with retires | client
        · subst retires same
          exact .inr (.inl member)
        · subst client
          exact absurd rfl (after.places _ _ acknowledges).1
      · exact .inr (.inr (.inl kept))
    · by_cases acknowledging : frame = .noMoreUsed owner
      · subst acknowledging
        rw [here.2] at member
        exact .inr (.inr (.inl member))
      · change 0 < shared.acks owner at acks
        rw [effect.acks acknowledging] at acks
        exact .inr (.inr (.inr acks))

theorem Pipeline.HandedOver.begun {before : Pipeline} {party : Party} {frames : List Frame}
    {shared : Shared} (unwalked : .dispatch .close ∉ before.calls none)
    (untold : ∀ owner, ¬ before.Told owner)
    (idle : IdleCase before.shared party frames shared) :
    Pipeline.HandedOver { before with
      shared, calls := Function.update before.calls (some party) frames } := by
  right
  constructor
  · simp only [Function.update_of_ne (Option.some_ne_none party).symm]
    exact unwalked
  · intro owner told
    apply untold owner
    rcases told with queued | retires | acknowledges | acks
    · left
      obtain ⟨_, reader, worker, writer⟩ := idle.fewer
      apply Nat.lt_of_lt_of_le queued
      cases owner with
      | reader => exact reader.sublist.count_le _
      | worker => exact worker.sublist.count_le _
      | writer => exact writer.sublist.count_le _
      | acceptor | client => exact Nat.le_refl _
    · rcases mem_begun retires with ⟨_, made⟩ | kept
      · have answers : (Frame.retire owner).answers owner = true := by simp [Frame.answers]
        exact .inl (idle.answers made answers).2.2
      · exact .inr (.inl kept)
    · rcases mem_begun acknowledges with ⟨_, made⟩ | kept
      · have answers : (Frame.noMoreUsed owner).answers owner = true := by simp [Frame.answers]
        cases (idle.answers made answers).2.1
      · exact .inr (.inr (.inl kept))
    · obtain ⟨_, _, _, _, same⟩ := idle.queues
      subst same
      exact .inr (.inr (.inr acks))

theorem Pipeline.HandedOver.step {before after : Pipeline} (handed : before.HandedOver)
    (sound : before.Accounted) {action : Party × Choice} (closed : ClosedHandedOver before action)
    (taken : PipelineStep before action after) : after.HandedOver := by
  rcases handed with idle | ⟨unwalked, untold⟩
  · exact .inl (sound.accepted.accepting_step idle taken)
  have accepted := sound.accepted.step taken
  cases taken.cases with
  | released => exact .inr ⟨unwalked, untold⟩
  | begun unlocked idle step => exact .begun unwalked untold (idleStep_cases step)
  | called here top step => exact .called sound top unwalked untold step accepted
  | @entered target rest unlocked waits =>
      by_cases closes : target = .closed
      · subst closes
        left
        have place : before.place action.1 = some action.1 :=
          Pipeline.place_of_unlocked (by rw [unlocked]; simp)
        have nothing : before.calls (some .accepting) = [] := by
          apply closed
          rw [place, waits]
          rfl
        have other : some Party.accepting ≠ some action.1 := by
          intro here
          rw [← here, nothing] at waits
          cases waits
        refine ⟨?_, Ne.symm other⟩
        simp only [Function.update_of_ne (Option.some_ne_none _), Function.update_of_ne other]
        exact nothing
      · right
        have kept {frame : Frame} {place : Option Party} (same : frame ≠ .assign target)
            (other : ∀ event, stateEvent target = some event → frame ≠ .dispatch event)
            (member : frame ∈ Function.update (Function.update before.calls (some action.1) rest)
              none (.assign target :: (stateEvent target).toList.map .dispatch) place) :
            frame ∈ before.calls place := by
          rcases mem_entered waits member with ⟨_, assigns | ⟨event, announced, dispatches⟩⟩ | kept
          · exact absurd assigns same
          · exact absurd dispatches (other event announced)
          · exact kept
        constructor
        · intro walks
          refine unwalked (kept (by simp) ?_ walks)
          intro event announced same
          cases same
          exact closes (stateEvent_close announced)
        · intro owner told
          apply untold owner
          rcases told with queued | retires | acknowledges | acks
          · left
            cases owner <;> exact queued
          · exact .inr (.inl (kept (by simp) (by simp) retires))
          · exact .inr (.inr (.inl (kept (by simp) (by simp) acknowledges)))
          · exact .inr (.inr (.inr acks))

/-! ## Parties outside the pipe -/

/-- When all owners have acknowledged, no party outside the pipe is inside a call. -/
def Pipeline.Deserted (pipeline : Pipeline) : Prop :=
  0 < pipeline.shared.lasts → pipeline.Unattended

theorem connectionNoMoreUsed_last {connection : Connection} {owner : ConnectionOwner}
    (last : (connectionNoMoreUsed connection owner).1 = true) {other : ConnectionOwner}
    (differs : other ≠ owner) : connection.closedBy other = true := by
  have all : ConnectionOwner.all.all (Function.update connection.closedBy owner true) = true := by
    simp only [connectionNoMoreUsed] at last
    split at last
    · next all => exact all
    · cases last
  have closed := (ConnectionOwner.all_iff _).mp all other
  rwa [Function.update_of_ne differs] at closed

theorem Pipeline.Unattended.step {before after : Pipeline} (unattended : before.Unattended)
    {action : Party × Choice} (taken : PipelineStep before action after)
    (other : ∀ id, action.1 ≠ .user id) : after.Unattended := by
  intro id
  obtain ⟨nothing, unlocked⟩ := unattended id
  rw [taken.calls_of_ne (other id)]
  refine ⟨nothing, ?_⟩
  cases taken.cases with
  | released => exact (Option.some_ne_none _).symm
  | entered => exact fun same => other id (Option.some.inj same)
  | begun | called => exact unlocked

theorem Pipeline.Unattended.begins {before after : Pipeline} (unattended : before.Unattended)
    {action : Party × Choice} (taken : PipelineStep before action after) {id : Nat}
    (user : action.1 = .user id) :
    before.shared.freed = [] ∧ after.shared.lasts = before.shared.lasts := by
  obtain ⟨nothing, unlocked⟩ := unattended id
  rw [← user] at nothing unlocked
  cases taken.cases with
  | released locked => exact absurd locked unlocked
  | entered _ waits =>
      rw [nothing] at waits
      cases waits
  | called here top =>
      rw [Pipeline.place_of_unlocked unlocked] at here
      subst here
      rw [nothing] at top
      cases top
  | begun _ _ step =>
      have idle := idleStep_cases step
      rw [user] at idle
      cases idle with
      | user alive => exact ⟨alive, rfl⟩

theorem Pipeline.Deserted.step {before after : Pipeline} (deserted : before.Deserted)
    (sound : before.Accounted) {action : Party × Choice} (last : LastUnattended before action)
    (taken : PipelineStep before action after) : after.Deserted := by
  intro lasts
  by_cases earlier : 0 < before.shared.lasts
  · have unattended := deserted earlier
    apply unattended.step taken
    intro id user
    obtain ⟨alive, _⟩ := unattended.begins taken user
    have nothing : before.calls (some action.1) = [] := by
      rw [user]
      exact (unattended id).1
    have unfreeing : before.count Frame.frees = 0 := by
      apply total_eq_zero
      intro place _
      rw [List.countP_eq_zero]
      intro frame member frees
      obtain ⟨owner, same⟩ := Frame.of_frees frees
      subst same
      have here := (sound.accepted.places place _ member).2
      subst here
      exact last.2 id user nothing owner member
    have released := sound.released
    rw [unfreeing, alive] at released
    rw [← released] at earlier
    cases earlier
  · have unattended : before.Unattended := by
      cases taken.cases with
      | released | entered => exact absurd lasts earlier
      | begun _ _ step =>
          obtain ⟨_, _, _, _, same⟩ := (idleStep_cases step).queues
          subst same
          exact absurd lasts earlier
      | @called place frame rest frames shared here top step =>
          by_cases acknowledging : ∃ owner, frame = .noMoreUsed owner
          · obtain ⟨owner, same⟩ := acknowledging
            subst same
            have result := frameStep_fixed rfl step
            rw [proceedStep, Option.some.injEq, Prod.mk.injEq] at result
            have found : (connectionNoMoreUsed before.shared.connection owner).1 = true := by
              by_contra missing
              apply earlier
              rw [← result.2] at lasts
              simpa [Shared.lasts, missing] using lasts
            refine last.1 owner (by rw [here, top]; rfl) ?_
            intro other differs
            exact connectionNoMoreUsed_last found differs
          · obtain ⟨same, _⟩ := (frameStep_effect step).uncounted fun owner same =>
              acknowledging ⟨owner, same⟩
            change 0 < shared.lasts at lasts
            rw [Shared.lasts, same] at lasts
            exact absurd lasts earlier
    apply unattended.step taken
    intro id user
    obtain ⟨_, same⟩ := unattended.begins taken user
    rw [same] at lasts
    exact earlier lasts

/-! ## Behind the last acknowledgement -/

structure Pipeline.Vacates (pipeline : Pipeline) : Prop where
  releases : pipeline.Releases
  clears : pipeline.Clears
  handedOver : pipeline.HandedOver
  deserted : pipeline.Deserted

/-- Nothing of the connection is left but calls of `FreeConnection`. -/
structure Pipeline.Vacated (pipeline : Pipeline) : Prop where
  unlocked : pipeline.locked = none
  calls : ∀ place, pipeline.calls place = [] ∨
    ∃ owner : ConnectionOwner, place = owner.place ∧
      pipeline.calls place = [.free (.noMoreUsed owner)]
  cleared : ∀ owner, pipeline.shared.Cleared owner
  readKey : pipeline.shared.readKey = false

theorem Pipeline.Vacates.lasts {pipeline : Pipeline} (vacates : pipeline.Vacates)
    (lasts : 0 < pipeline.shared.lasts) :
    pipeline.shared.lasts = 1 ∧ ∀ owner, owner ≠ .client → 0 < pipeline.shared.acks owner := by
  rcases vacates.releases.accounted.settled with ⟨all, last⟩ | ⟨_, none, _⟩
  · exact ⟨last, all⟩
  · rw [none] at lasts
    cases lasts

theorem Pipeline.Vacates.vacated {pipeline : Pipeline} (vacates : pipeline.Vacates)
    (lasts : 0 < pipeline.shared.lasts) : pipeline.Vacated := by
  have all := (vacates.lasts lasts).2
  have accepted := vacates.releases.accounted.accepted
  have unattended := vacates.deserted lasts
  have accepting : pipeline.calls (some .accepting) = [] ∧ pipeline.locked ≠ some .accepting := by
    rcases vacates.handedOver with idle | ⟨_, untold⟩
    · exact idle
    · exact absurd (.inr (.inr (.inr (all .reader (by simp))))) (untold .reader)
  have rests (owner : ConnectionOwner) (threaded : owner.Threaded) :=
    vacates.clears.rests owner threaded (all owner threaded.pipe)
  have reader := rests .reader ⟨by simp, by simp⟩
  have worker := rests .worker ⟨by simp, by simp⟩
  have writer := rests .writer ⟨by simp, by simp⟩
  have unlocked : pipeline.locked = none := by
    cases holder : pipeline.locked with
    | none => rfl
    | some party =>
        cases party with
        | accepting => exact absurd holder accepting.2
        | reader => exact absurd holder reader.2
        | worker => exact absurd holder worker.2
        | writer => exact absurd holder writer.2
        | user id => exact absurd holder (unattended id).2
  refine ⟨unlocked, ?_, ?_, ?_⟩
  · intro place
    cases place with
    | none => exact .inl (accepted.unlocked unlocked)
    | some party =>
        cases party with
        | accepting => exact .inl accepting.1
        | reader => exact reader.1.imp_right fun freeing => ⟨.reader, rfl, freeing⟩
        | worker => exact worker.1.imp_right fun freeing => ⟨.worker, rfl, freeing⟩
        | writer => exact writer.1.imp_right fun freeing => ⟨.writer, rfl, freeing⟩
        | user id => exact .inl (unattended id).1
  · intro owner
    by_cases client : owner = .client
    · subst client
      trivial
    · exact vacates.clears.cleared owner (.inr (all owner client))
  · rw [Bool.eq_false_iff]
    intro key
    have unanswered := (vacates.releases.registers.key key).2
    have answered := all .reader (by simp)
    rw [unanswered] at answered
    cases answered

/-- The call of `FreeConnection` that a party is about to make is the only thing that refers
to the connection: no queue holds an item of it, nobody holds its state lock, and no party
is inside any other call. -/
structure Pipeline.Unreferenced (pipeline : Pipeline) (party : Party) : Prop where
  queues : ∀ owner, pipeline.shared.Cleared owner
  unlocked : pipeline.locked = none
  freeing : ∃ cause, pipeline.calls (some party) = [.free cause]
  others : ∀ place, place ≠ some party → pipeline.calls place = []

theorem Pipeline.Vacates.unreferenced {pipeline : Pipeline} (vacates : pipeline.Vacates)
    {party : Party} {cause : FreeCause} {rest : List Frame}
    (top : pipeline.calls (pipeline.place party) = .free cause :: rest) :
    pipeline.Unreferenced party := by
  have sound := vacates.releases.accounted
  have counted (place : Option Party) (owner : ConnectionOwner) (same : place = owner.place)
      (freeing : .free (.noMoreUsed owner) ∈ pipeline.calls place) :
      1 ≤ pipeline.count Frame.frees := by
    rw [same] at freeing
    exact Pipeline.one_le_count owner.place_mem freeing rfl
  have member : .free cause ∈ pipeline.calls (pipeline.place party) := by
    rw [top]
    exact List.mem_cons_self
  have here := sound.accepted.places _ _ member
  have released := sound.released
  cases cause with
  | unconnected => cases here
  | noMoreUsed owner =>
      have one := counted _ owner here.2 member
      have lasts : 0 < pipeline.shared.lasts := by omega
      have single := (vacates.lasts lasts).1
      have vacated := vacates.vacated lasts
      have place : pipeline.place party = some party :=
        Pipeline.place_of_unlocked (by rw [vacated.unlocked]; simp)
      rw [place] at top member here
      have owned : some party ∈ ownedPlaces := by
        rw [here.2]
        exact owner.place_mem
      refine ⟨vacated.cleared, vacated.unlocked, ?_, ?_⟩
      · rcases vacated.calls (some party) with nothing | ⟨_, _, freeing⟩
        · rw [nothing] at top
          cases top
        · exact ⟨_, freeing⟩
      · intro other differs
        rcases vacated.calls other with nothing | ⟨another, same, freeing⟩
        · exact nothing
        · -- A second call of `FreeConnection` would need a second last acknowledgement.
          have left := total_update ownedPlaces_nodup (same ▸ another.place_mem) pipeline.calls
            [] Frame.frees
          have kept : 0 < (Function.update pipeline.calls other [] (some party)).countP
              Frame.frees := by
            rw [Function.update_of_ne differs.symm]
            exact List.countP_pos_iff.mpr ⟨_, member, rfl⟩
          have more := countP_le_total owned (Function.update pipeline.calls other []) Frame.frees
          rw [freeing] at left
          simp only [List.countP_singleton, Frame.frees, if_true, List.countP_nil] at left
          simp only [Pipeline.count] at released
          omega

/-- When the connection was freed, nothing is left that could use it. -/
theorem Pipeline.Vacates.quiescent {pipeline : Pipeline} (vacates : pipeline.Vacates)
    (freed : pipeline.shared.freed ≠ []) :
    pipeline.Quiescent ∧ pipeline.shared.readKey = false := by
  have released := vacates.releases.accounted.released
  have happened := List.length_pos_iff.mpr freed
  have lasts : 0 < pipeline.shared.lasts := by omega
  have single := (vacates.lasts lasts).1
  have vacated := vacates.vacated lasts
  refine ⟨⟨?_, vacated.unlocked, vacated.cleared .acceptor, vacated.cleared .reader,
    vacated.cleared .worker, vacated.cleared .writer⟩, vacated.readKey⟩
  intro place
  rcases vacated.calls place with nothing | ⟨owner, same, freeing⟩
  · exact nothing
  · have member : .free (.noMoreUsed owner) ∈ pipeline.calls owner.place := by
      rw [← same, freeing]
      exact List.mem_singleton_self _
    have counted := Pipeline.one_le_count owner.place_mem member
      (show Frame.frees (.free (.noMoreUsed owner)) = true from rfl)
    omega

/-! ## Whole runs -/

/-- The steps of the runs in which the connection is freed in time: it is closed behind its
hand-over, no owner is sent anything too late, and the last one acknowledges unattended. -/
def FreedInTime (pipeline : Pipeline) (action : Party × Choice) : Prop :=
  ClosedHandedOver pipeline action ∧ SendsInTime pipeline action ∧ LastUnattended pipeline action

theorem Pipeline.Vacates.step {before after : Pipeline} (vacates : before.Vacates)
    {action : Party × Choice} (allowed : FreedInTime before action)
    (taken : PipelineStep before action after) : after.Vacates where
  releases := vacates.releases.step taken
  clears := vacates.clears.step vacates.releases allowed.2.1 taken
  handedOver := vacates.handedOver.step vacates.releases.accounted allowed.1 taken
  deserted := vacates.deserted.step vacates.releases.accounted allowed.2.2 taken

theorem acceptedPipeline_calls {connection : Connection} {place : Option Party}
    (other : place ≠ some .accepting) : (acceptedPipeline connection).calls place = [] :=
  if_neg other

theorem acceptedPipeline_unanswered {connection : Connection} {owner : ConnectionOwner}
    {frame : Frame} (answers : frame.answers owner = true) :
    frame ∉ (acceptedPipeline connection).calls owner.place := by
  intro member
  have here := (acceptedPipeline_accepted connection).places _ _ member
  have known : owner ≠ .client := by
    rcases Frame.of_answers answers with same | same | same
    · subst same
      exact here.1
    · subst same
      exact here.1
    · subst same
      exact here.1
  have other : owner.place ≠ some .accepting := by
    cases owner with
    | client => exact absurd rfl known
    | acceptor | reader | worker | writer => simp [ConnectionOwner.place]
  rw [acceptedPipeline_calls other] at member
  cases member

theorem acceptedPipeline_untold {connection : Connection} (owner : ConnectionOwner) :
    ¬ (acceptedPipeline connection).Told owner := by
  intro told
  rcases told with queued | retires | acknowledges | acks
  · cases owner <;> cases queued
  · exact acceptedPipeline_unanswered (by simp [Frame.answers]) retires
  · exact acceptedPipeline_unanswered (by simp [Frame.answers]) acknowledges
  · cases acks

theorem acceptedPipeline_clears (connection : Connection) :
    (acceptedPipeline connection).Clears where
  alone owner _ frame member answers := absurd member (acceptedPipeline_unanswered answers)
  rests owner threaded acks := absurd acks (Nat.lt_irrefl 0)
  cleared owner answered := absurd (.inr (.inr answered)) (acceptedPipeline_untold owner)
  ordered := List.Pairwise.nil
  reader retires := by cases retires

theorem acceptedPipeline_vacates {connection : Connection} (fresh : connection.Fresh) :
    (acceptedPipeline connection).Vacates where
  releases := ⟨acceptedPipeline_accounted fresh.closedBy, acceptedPipeline_handsOver connection,
    acceptedPipeline_registers connection⟩
  clears := acceptedPipeline_clears connection
  handedOver := .inr ⟨List.not_mem_nil, acceptedPipeline_untold⟩
  deserted lasts := by cases lasts

/-- In every run over an accepted connection that is closed behind its hand-over, where the
worker and the writer are sent nothing behind their answers to CLOSE, the reader nothing
behind its CLOSE, and the last owner acknowledges when no party outside the pipe is inside
a call: `FreeConnection` finds nothing that refers to the connection, and once it ran
nothing uses the connection again. -/
theorem acceptedPipeline_freed_unused {connection : Connection} (fresh : connection.Fresh)
    {actions : List (Party × Choice)} {pipeline : Pipeline}
    (run : Run (Guarded FreedInTime PipelineStep) (acceptedPipeline connection) actions pipeline) :
    (∀ party cause rest, pipeline.calls (pipeline.place party) = .free cause :: rest →
      pipeline.Unreferenced party) ∧
    (pipeline.shared.freed ≠ [] → pipeline.Quiescent ∧ pipeline.shared.readKey = false) := by
  have vacates : pipeline.Vacates := by
    apply run.keeps
    · intro before action after vacates taken
      exact vacates.step taken.1 taken.2
    · exact acceptedPipeline_vacates fresh
  exact ⟨fun party cause rest top => vacates.unreferenced top, vacates.quiescent⟩

/-- The guards that look at no party outside the pipe. -/
def ThreadsInTime (pipeline : Pipeline) (action : Party × Choice) : Prop :=
  ClosedHandedOver pipeline action ∧ SendsInTime pipeline action

instance (pipeline : Pipeline) (action : Party × Choice) :
    Decidable (ThreadsInTime pipeline action) :=
  inferInstanceAs (Decidable (_ ∧ _))

/-- Where only the threads take steps, the last owner acknowledges unattended. -/
theorem Run.freedInTime {start final : Pipeline} {actions : List (Party × Choice)}
    (run : Run (Guarded ThreadsInTime PipelineStep) start actions final)
    (threads : ∀ action ∈ actions, some action.1 ∈ ownedPlaces) (unattended : start.Unattended) :
    Run (Guarded FreedInTime PipelineStep) start actions final := by
  have others {action : Party × Choice} (thread : some action.1 ∈ ownedPlaces) (id : Nat) :
      action.1 ≠ .user id := by
    intro user
    rw [user] at thread
    simp [ownedPlaces] at thread
  apply run.narrows threads _ _ unattended
  · intro before action after thread unattended taken
    exact unattended.step taken.2 (others thread)
  · intro before action after thread unattended taken
    obtain ⟨⟨closed, sent⟩, step⟩ := taken
    refine ⟨⟨closed, sent, fun _ _ _ => unattended, ?_⟩, step⟩
    intro id user
    exact absurd user (others thread id)

/-- Hand-over and close of an accepted connection up to the call of `FreeConnection`: the
reader finds the end of the stream, the writer is the last owner to answer. -/
def acceptedAndAcknowledged : List (Party × Choice) :=
  handedOver ++ proceeds .accepting 4 ++ readerCloses 6 ++ proceeds .reader 4 ++
    proceeds .worker 4 ++ proceeds .writer 3

theorem acceptedPipeline_freed_unused_by_writer :
    let buffer : Buffer := { size := 1, data := [0, 0, 0], position := 0, limit := 1 }
    ∃ connection, connectionFactoryCreate buffer buffer 3 true = some connection ∧
      ∃ pipeline, Run (Guarded FreedInTime PipelineStep)
          (acceptedPipeline (setState connection .initialized)) acceptedAndAcknowledged pipeline ∧
        pipeline.calls (some .writer) = [.free (.noMoreUsed .writer)] ∧
        pipeline.Unreferenced .writer := by
  intro buffer
  let created : Connection := { newConnection buffer buffer with
    socket := 3, closedBy := fun owner => decide (owner = .client) }
  have made : connectionFactoryCreate buffer buffer 3 true = some created := rfl
  let connection := setState created .initialized
  obtain ⟨pipeline, runs, run⟩ := exists_run_of_execute (Guarded ThreadsInTime PipelineStep)
    (guardedNext ThreadsInTime fun pipeline action => pipelineStep pipeline action.1 action.2)
    (acceptedPipeline connection) acceptedAndAcknowledged
    (fun _ _ _ taken => guardedNext_sound taken) (by decide +kernel)
  have final : (execute (guardedNext ThreadsInTime fun pipeline action =>
      pipelineStep pipeline action.1 action.2) (acceptedPipeline connection)
        acceptedAndAcknowledged).map (fun pipeline => (pipeline.locked,
          pipeline.calls (some .writer))) = some (none, [.free (.noMoreUsed .writer)]) := by
    decide +kernel
  rw [runs, Option.map_some, Option.some.injEq, Prod.mk.injEq] at final
  obtain ⟨unlocked, freeing⟩ := final
  have unattended : (acceptedPipeline connection).Unattended :=
    fun id => ⟨acceptedPipeline_calls (by simp), (Option.some_ne_none _).symm⟩
  have guarded := Run.freedInTime run (by decide) unattended
  have place : pipeline.place .writer = some .writer :=
    Pipeline.place_of_unlocked (by rw [unlocked]; simp)
  exact ⟨created, made, pipeline, guarded, freeing,
    (acceptedPipeline_freed_unused (connectionFactoryCreate_fresh made) guarded).1 .writer _ []
      (by rw [place, freeing])⟩

/-- A user closes the connection; the three threads answer while it is still inside the walk
of CLOSE and holds the state lock, and the writer frees the connection under it. -/
theorem acceptedPipeline_freed_used :
    ¬ ∀ (connection : Connection) (actions : List (Party × Choice)) (pipeline : Pipeline),
      connection.Fresh →
      Run (Guarded ClosedHandedOver PipelineStep) (acceptedPipeline connection) actions pipeline →
      (∀ party cause rest, pipeline.calls (pipeline.place party) = .free cause :: rest →
        pipeline.Unreferenced party) ∧
      (pipeline.shared.freed ≠ [] → pipeline.Quiescent ∧ pipeline.shared.readKey = false) := by
  intro unused
  let buffer : Buffer := { size := 1, data := [0, 0, 0], position := 0, limit := 1 }
  let created : Connection := { newConnection buffer buffer with
    socket := 3, closedBy := fun owner => decide (owner = .client) }
  have made : connectionFactoryCreate buffer buffer 3 true = some created := rfl
  let connection := setState created .initialized
  let actions := handedOver ++ proceeds .accepting 4 ++
    (.user 0, .call (.close true)) :: proceeds (.user 0) 9 ++ proceeds .reader 4 ++
    proceeds .worker 3 ++ proceeds .writer 3
  obtain ⟨pipeline, runs, run⟩ := exists_run_of_execute (Guarded ClosedHandedOver PipelineStep)
    (guardedNext ClosedHandedOver fun pipeline action => pipelineStep pipeline action.1 action.2)
    (acceptedPipeline connection) actions (fun _ _ _ taken => guardedNext_sound taken)
    (by decide +kernel)
  have final : (execute (guardedNext ClosedHandedOver fun pipeline action =>
      pipelineStep pipeline action.1 action.2) (acceptedPipeline connection) actions).map
        (fun pipeline => (pipeline.locked, pipeline.calls (some .writer))) =
      some (some (.user 0), [.free (.noMoreUsed .writer)]) := by decide +kernel
  rw [runs, Option.map_some, Option.some.injEq, Prod.mk.injEq] at final
  obtain ⟨locked, freeing⟩ := final
  have place : pipeline.place .writer = some .writer :=
    Pipeline.place_of_unlocked (by rw [locked]; simp)
  have unreferenced := (unused connection actions pipeline (connectionFactoryCreate_fresh made)
    run).1 .writer _ [] (by rw [place, freeing])
  rw [unreferenced.unlocked] at locked
  cases locked

end Aio4c
