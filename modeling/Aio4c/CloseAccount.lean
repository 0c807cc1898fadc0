import Aio4c.AcceptedPipe
import Aio4c.Library.PlaceCount

/-! The account of CLOSE. Each owner's part in the end of a connection is in one place at
any time: its handler is about to be installed, installed, sent as an item, being answered
or acknowledged. From this every owner acknowledges once at most, and the connection is
freed once when all have. -/

set_option autoImplicit false

namespace Aio4c

open PlaceCount TransitionSystem

/-- The places with calls of owners; other parties only make calls of their own. -/
def ownedPlaces : List (Option Party) :=
  [none, some .accepting, some .reader, some .worker, some .writer]

def Pipeline.count (pipeline : Pipeline) (test : Frame → Bool) : Nat :=
  total ownedPlaces pipeline.calls test

/-- Calls that are counted: no user makes them, and no call under way to the state lock
or from it to the handlers is one. -/
structure Frame.Counted (test : Frame → Bool) : Prop where
  owned : ∀ id frame, frame.At (some (.user id)) → test frame = false
  stateLock : ∀ target, test (.stateLock target) = false
  assign : ∀ target, test (.assign target) = false
  dispatch : ∀ event, test (.dispatch event) = false

theorem ownedPlaces_nodup : ownedPlaces.Nodup := by decide

theorem mem_ownedPlaces {place : Option Party} (other : ∀ id, place ≠ some (.user id)) :
    place ∈ ownedPlaces := by
  cases place with
  | none => decide
  | some party =>
      cases party with
      | user id => exact absurd rfl (other id)
      | accepting | reader | worker | writer => decide

theorem Frame.Counted.countP_user {test : Frame → Bool} (counted : Frame.Counted test) {id : Nat}
    {frames : List Frame} (places : ∀ frame ∈ frames, frame.At (some (.user id))) :
    frames.countP test = 0 := by
  rw [List.countP_eq_zero]
  intro frame member
  rw [counted.owned id frame (places frame member)]
  exact Bool.false_ne_true

theorem Frame.Counted.update {test : Frame → Bool} (counted : Frame.Counted test)
    {calls : Option Party → List Frame} {place : Option Party} {frames : List Frame}
    (before : ∀ frame ∈ calls place, frame.At place) (after : ∀ frame ∈ frames, frame.At place) :
    total ownedPlaces (Function.update calls place frames) test + (calls place).countP test =
      total ownedPlaces calls test + frames.countP test := by
  by_cases owned : ∀ id, place ≠ some (.user id)
  · exact total_update ownedPlaces_nodup (mem_ownedPlaces owned) calls frames test
  · obtain ⟨id, user⟩ := not_forall_not.mp owned
    subst user
    rw [counted.countP_user before, counted.countP_user after,
      total_update_of_notMem (by simp [ownedPlaces])]

/-- A step keeps an account when its call and the calls that it makes do. -/
theorem Pipeline.Accepted.account {before after : Pipeline} {action : Party × Choice}
    (accepted : before.Accepted) (taken : PipelineStep before action after) {test : Frame → Bool}
    (counted : Frame.Counted test) (credit debit : Shared → Nat)
    (entered : ∀ target, (let shared := { before.shared with
        connection := { before.shared.connection with state := target } }
      credit shared = credit before.shared ∧ debit shared = debit before.shared))
    (begun : ∀ party frames shared, IdleCase before.shared party frames shared →
      credit shared + frames.countP test + debit before.shared =
        credit before.shared + debit shared)
    (called : ∀ place frame rest choice frames shared,
      before.calls place = frame :: rest → frame.At place →
      frameStep before.shared frame choice = some (frames, shared) →
      credit shared + frames.countP test + debit before.shared =
        credit before.shared + (test frame).toNat + debit shared) :
    after.count test + credit after.shared + debit before.shared =
      before.count test + credit before.shared + debit after.shared := by
  cases taken.cases with
  | released => rfl
  | @begun frames shared unlocked idle step =>
      have cases := idleStep_cases step
      have balance := begun _ _ _ cases
      have calls : ∀ frame ∈ before.calls (some action.1), frame.At (some action.1) := by
        rw [idle]
        simp
      have moved := counted.update calls (idleStep_at accepted.shared cases)
      rw [idle, List.countP_nil] at moved
      simp only [Pipeline.count] at moved ⊢
      omega
  | @entered target rest unlocked waits =>
      obtain ⟨sameCredit, sameDebit⟩ := entered target
      have left := counted.update (accepted.places (some action.1))
        (fun frame member => accepted.places (some action.1) frame (by
          rw [waits]
          exact List.mem_cons_of_mem _ member) : ∀ frame ∈ rest, frame.At (some action.1))
      have free : Function.update before.calls (some action.1) rest none = [] := by
        rw [Function.update_of_ne (by simp)]
        exact accepted.unlocked unlocked
      have made : (.assign target :: (stateEvent target).toList.map Frame.dispatch).countP test =
          0 := by
        rw [List.countP_eq_zero]
        intro frame member
        rcases List.mem_cons.mp member with same | listed
        · rw [same, counted.assign]
          exact Bool.false_ne_true
        · obtain ⟨event, _, rfl⟩ := List.mem_map.mp listed
          rw [counted.dispatch]
          exact Bool.false_ne_true
      have entering := total_update_of_fails ownedPlaces_nodup
        (show (Function.update before.calls (some action.1) rest none).countP test = 0 by
          rw [free]
          rfl) made
      rw [waits, List.countP_cons, counted.stateLock] at left
      simp only [Pipeline.count, Bool.false_eq_true, if_false] at left entering ⊢
      rw [entering, sameCredit, sameDebit]
      omega
  | @called place frame rest frames shared here top step =>
      have here := accepted.places place frame (by rw [top]; exact List.mem_cons_self)
      have balance := called place frame rest _ _ _ top here step
      have made : ∀ next ∈ frames ++ rest, next.At place := by
        intro next member
        rcases List.mem_append.mp member with new | left
        · exact frameStep_at accepted.shared here step next new
        · exact accepted.places place next (by rw [top]; exact List.mem_cons_of_mem _ left)
      have moved := counted.update (accepted.places place) made
      rw [top, List.countP_cons, List.countP_append] at moved
      simp only [Pipeline.count] at moved ⊢
      cases passes : test frame with
      | true =>
          simp only [passes, if_true, Bool.toNat_true] at moved balance
          omega
      | false =>
          simp only [passes, Bool.false_eq_true, if_false, Bool.toNat_false] at moved balance
          omega

/-! ## The part of one owner -/

/-- The calls that carry an owner's part in the end of the connection. -/
def Frame.closing (owner : ConnectionOwner) : Frame → Bool
  | .handOver (.addSystemHandler event other) => decide ((event, other) = (.close, owner))
  | .retire other | .noMoreUsed other => decide (other = owner)
  | _ => false

/-- The CLOSE items on their way to an owner. -/
def Shared.queued (shared : Shared) : ConnectionOwner → Nat
  | .reader => shared.readerQueue.items.count (.event .close)
  | .worker => shared.workerQueue.items.count .close
  | .writer => shared.writerQueue.items.count .close
  | .acceptor | .client => 0

def Shared.acks (shared : Shared) (owner : ConnectionOwner) : Nat :=
  shared.acknowledged.countP fun entry => entry.1 = owner

def Shared.closing (shared : Shared) (owner : ConnectionOwner) : Nat :=
  shared.systemHandlers.count (.close, owner) + shared.queued owner + shared.acks owner

def Pipeline.closing (pipeline : Pipeline) (owner : ConnectionOwner) : Nat :=
  pipeline.count (Frame.closing owner) + pipeline.shared.closing owner

theorem ConnectionOwner.place_ne_user {owner : ConnectionOwner} {id : Nat} :
    some (.user id) ≠ owner.place := by
  cases owner <;> simp [ConnectionOwner.place]

theorem Frame.closing_counted (owner : ConnectionOwner) : Frame.Counted (Frame.closing owner) where
  owned id frame here := by
    cases frame with
    | retire other | noMoreUsed other => exact absurd here.2 ConnectionOwner.place_ne_user
    | handOver step =>
        cases step with
        | addSystemHandler => cases here.1
        | enqueueDataItem | managedBy | connected => rfl
    | stateTest | stateLock | assign | dispatch | userDispatch | userHandlers | inboundTest
    | inboundEnqueue | interestTest | recv | readTest | writeTest | fill | send | reenqueue
    | taskEnd | register | free | connectionInit | connectTest | connect | finishConnect
    | closedTest | setConnected | connectedTest => rfl
  stateLock _ := rfl
  assign _ := rfl
  dispatch _ := rfl

@[simp] theorem count_push {α : Type} [DecidableEq α] {fifo : Fifo α} (endless : fifo.exit = false)
    (item other : α) :
    (fifo.push item).2.items.count other =
      fifo.items.count other + if item = other then 1 else 0 := by
  rw [Fifo.push_items endless, List.count_append, List.count_singleton]
  simp

theorem systemHandler_closing {shared : Shared} (accepted : shared.Accepted) {event : Event}
    {called : ConnectionOwner} (listed : (event, called) ∈ acceptedHandlers)
    (owner : ConnectionOwner) :
    (systemHandler shared event called).2.closing owner +
        (systemHandler shared event called).1.countP (Frame.closing owner) =
      shared.closing owner + if (event, called) = (.close, owner) then 1 else 0 := by
  cases called with
  | acceptor =>
      have closing := acceptor_mem_acceptedHandlers listed
      subst closing
      simp [Aio4c.systemHandler, Frame.closing]
  | client => exact absurd listed (client_notMem_acceptedHandlers event)
  | reader =>
      cases owner <;>
        simp [Aio4c.systemHandler, Shared.closing, Shared.queued, Shared.acks, Shared.read,
          accepted.readerQueue]
      omega
  | writer =>
      cases owner <;>
        simp [Aio4c.systemHandler, Shared.closing, Shared.queued, Shared.acks, Shared.write,
          accepted.writerQueue]
      omega
  | worker =>
      have known : event = .inboundData ∨ event = .close := by
        simpa [acceptedHandlers] using listed
      rcases known with rfl | rfl
      · simp [Aio4c.systemHandler, Frame.closing]
      · cases owner <;>
          simp [Aio4c.systemHandler, Shared.closing, Shared.queued, Shared.acks, Shared.work,
            accepted.workerQueue]
        omega

theorem dispatchStep_closing {shared : Shared} (accepted : shared.Accepted) (event : Event)
    (owner : ConnectionOwner) :
    (dispatchStep shared event).2.closing owner +
        (dispatchStep shared event).1.countP (Frame.closing owner) = shared.closing owner := by
  unfold dispatchStep
  split
  · next announced called found =>
      have listed := accepted.handlers _ (find_handler found)
      split
      · next data =>
          have other : (event, called) ≠ (.close, owner) := by
            intro same
            cases same
            rcases data with data | data <;> cases data
          have handled := systemHandler_closing accepted listed owner
          rw [if_neg other] at handled
          simpa [List.countP_append, Frame.closing] using handled
      · next other =>
          have fewer : Shared.Accepted { shared with
              systemHandlers := shared.systemHandlers.erase (event, called) } :=
            { accepted with
              handlers := fun handler member =>
                accepted.handlers handler (List.mem_of_mem_erase member) }
          have handled := systemHandler_closing fewer listed owner
          have left : (shared.systemHandlers.erase (event, called)).count (.close, owner) +
              (if (event, called) = (.close, owner) then 1 else 0) =
              shared.systemHandlers.count (.close, owner) := by
            by_cases same : (event, called) = (.close, owner)
            · have present := List.count_pos_iff.mpr (find_handler found)
              rw [same] at present ⊢
              rw [List.count_erase_self, if_pos rfl]
              omega
            · rw [List.count_erase_of_ne (Ne.symm same), if_neg same]
              rfl
          have fewerClosing : Shared.closing { shared with
                systemHandlers := shared.systemHandlers.erase (event, called) } owner +
              (if (event, called) = (.close, owner) then 1 else 0) = shared.closing owner := by
            have queued : Shared.queued { shared with
                systemHandlers := shared.systemHandlers.erase (event, called) } owner =
                shared.queued owner := by
              cases owner <;> rfl
            simp only [Shared.closing, Shared.acks, queued]
            omega
          simp only [List.countP_append, List.countP_singleton, Frame.closing, Bool.false_eq_true,
            if_false]
          omega
  · have queued : Shared.queued { shared with
        covered := shared.covered || (decide (event = .close) && shared.installed) } owner =
        shared.queued owner := by
      cases owner <;> rfl
    simp [Frame.closing, Shared.closing, Shared.acks, queued]

/-- Calls of CLOSE are made by a walk and by an owner's answer to it. -/
theorem Follows.closing {shared : Shared} {frame next : Frame} {owner : ConnectionOwner}
    {place : Option Party} (follows : Follows shared frame next) (here : frame.At place)
    (closing : next.closing owner = true) :
    (∃ event, frame = .dispatch event) ∨ ∃ other, frame = .retire other := by
  cases follows with
  | retire event => exact .inl ⟨event, rfl⟩
  | noMoreUsed other => exact .inr ⟨other, rfl⟩
  | userCall call =>
      cases call with
      | close force => cases force <;> cases closing
      | enableWriteInterest => cases closing
  | handOver | clientNoMoreUsed => cases here
  | stateLock | inboundTest | dispatch | userDispatch | userHandlers | userCalls | inboundEnqueue
  | outboundData | recvClosing | readTest | inboundData | fill | writeRefused | write | send
  | sendClosing | reenqueue | free | managed | connected | initialized | connect
  | connectRefused | connects | finishRefused | unconnected => cases closing

/-- An owner's part that moves between its handlers, its acknowledgements and a call. -/
theorem Shared.closing_add {before after : Shared} (owner : ConnectionOwner) {count : Nat}
    (moved : after.systemHandlers.count (.close, owner) + after.acks owner =
      before.systemHandlers.count (.close, owner) + before.acks owner + count)
    (reader : after.readerQueue.items.count (.event .close) =
      before.readerQueue.items.count (.event .close))
    (worker : after.workerQueue.items.count .close = before.workerQueue.items.count .close)
    (writer : after.writerQueue.items.count .close = before.writerQueue.items.count .close) :
    after.closing owner = before.closing owner + count := by
  have queued : after.queued owner = before.queued owner := by
    cases owner with
    | reader => exact reader
    | worker => exact worker
    | writer => exact writer
    | acceptor | client => rfl
  unfold Shared.closing
  omega

theorem Shared.closing_same {before after : Shared} (owner : ConnectionOwner)
    (kept : after.systemHandlers.count (.close, owner) + after.acks owner =
      before.systemHandlers.count (.close, owner) + before.acks owner)
    (reader : after.readerQueue.items.count (.event .close) =
      before.readerQueue.items.count (.event .close))
    (worker : after.workerQueue.items.count .close = before.workerQueue.items.count .close)
    (writer : after.writerQueue.items.count .close = before.writerQueue.items.count .close) :
    after.closing owner = before.closing owner :=
  Shared.closing_add owner (kept.trans (Nat.add_zero _).symm) reader worker writer

theorem retireStep_closing {shared : Shared} {other : ConnectionOwner}
    (last : other = .writer → shared.queued .writer = 0) (owner : ConnectionOwner) :
    (retireStep shared other).closing owner = shared.closing owner := by
  cases other with
  | acceptor | reader | client => exact Shared.closing_same owner rfl rfl rfl rfl
  | worker =>
      refine Shared.closing_same owner rfl rfl ?_ rfl
      simp [retireStep, List.count_filter]
  | writer =>
      refine Shared.closing_same owner rfl rfl rfl ?_
      have none : shared.writerQueue.items.count .close = 0 := last rfl
      rw [none]
      simp [retireStep]

theorem frameStep_closing {shared after : Shared} {frame : Frame} {choice : Choice}
    {frames : List Frame} {place : Option Party} (accepted : shared.Accepted)
    (here : frame.At place) (last : frame = .retire .writer → shared.queued .writer = 0)
    (step : frameStep shared frame choice = some (frames, after)) (owner : ConnectionOwner) :
    after.closing owner + frames.countP (Frame.closing owner) =
      shared.closing owner + (frame.closing owner).toNat := by
  have unmade (other : ∀ event, frame ≠ .dispatch event) (other' : ∀ owner, frame ≠ .retire owner) :
      frames.countP (Frame.closing owner) = 0 := by
    rw [List.countP_eq_zero]
    intro next member closing
    rcases (frameStep_follows step member).closing here closing with ⟨event, same⟩ | ⟨owner, same⟩
    · exact other event same
    · exact other' owner same
  cases frameStep_effect step with
  | quiet quiet =>
      have unclosing : frame.closing owner = false := by
        cases frame with
        | handOver handOver =>
            cases handOver with
            | connected => rfl
            | enqueueDataItem | addSystemHandler | managedBy => cases quiet
        | retire | noMoreUsed => cases quiet
        | stateTest | stateLock | assign | dispatch | userDispatch | userHandlers | inboundTest
        | inboundEnqueue | interestTest | recv | readTest | writeTest | fill | send | reenqueue
        | taskEnd | register | free | connectionInit | connectTest | connect | finishConnect
        | closedTest | setConnected | connectedTest => rfl
      rw [unmade (by rintro event rfl; cases quiet) (by rintro other rfl; cases quiet), unclosing]
      rfl
  | @stays event | @once event | @walked event =>
      have balance := dispatchStep_closing accepted event owner
      rw [frameStep_dispatch step] at balance
      exact balance
  | assigned | userCalled | registered | freed | managed =>
      rw [unmade (by simp) (by simp)]
      exact Shared.closing_same owner rfl rfl rfl rfl
  | task =>
      rw [unmade (by simp) (by simp)]
      exact Shared.closing_same owner rfl rfl (by simp [Shared.work, accepted.workerQueue]) rfl
  | reenqueued =>
      rw [unmade (by simp) (by simp)]
      exact Shared.closing_same owner rfl rfl rfl (by simp [Shared.write, accepted.writerQueue])
  | dataItem =>
      rw [unmade (by simp) (by simp)]
      exact Shared.closing_same owner rfl (by simp [Shared.read, accepted.readerQueue]) rfl rfl
  | acknowledged other =>
      rw [unmade (by simp) (by simp), Nat.add_zero]
      refine Shared.closing_add owner ?_ rfl rfl rfl
      by_cases same : other = owner
      · simp [Shared.acks, Frame.closing, same, Nat.add_assoc]
      · simp [Shared.acks, Frame.closing, same]
  | installed event other =>
      rw [unmade (by simp) (by simp), Nat.add_zero]
      refine Shared.closing_add owner ?_ rfl rfl rfl
      by_cases same : (event, other) = (.close, owner)
      · simp [Shared.acks, Frame.closing, same, Nat.add_right_comm]
      · simp [Shared.acks, Frame.closing, same]
  | retired other =>
      have result := frameStep_fixed rfl step
      rw [proceedStep, Option.some.injEq, Prod.mk.injEq] at result
      obtain ⟨made, _⟩ := result
      rw [← made, retireStep_closing (fun same => last (by rw [same])) owner,
        List.countP_singleton]
      by_cases same : other = owner
      · simp [Frame.closing, same]
      · simp [Frame.closing, same]
  | refused | handed | connected => cases here

theorem IdleCase.closing {shared after : Shared} {party : Party} {frames : List Frame}
    (accepted : shared.Accepted) (idle : IdleCase shared party frames after)
    (owner : ConnectionOwner) :
    after.closing owner + frames.countP (Frame.closing owner) = shared.closing owner := by
  cases idle with
  | clientEvent taken =>
      have items := (Fifo.dequeue_taken taken).1
      rw [accepted.clientQueue] at items
      cases items
  | clientDrained => exact Shared.closing_same owner rfl rfl rfl rfl
  | ready => rfl
  | user alive call =>
      cases call with
      | close force => cases force <;> rfl
      | enableWriteInterest => rfl
  | data taken =>
      have items := (Fifo.dequeue_taken taken).1
      refine Shared.closing_same owner rfl ?_ rfl rfl
      rw [items, List.count_cons_of_ne (by simp)]
  | readerEvent other taken =>
      have items := (Fifo.dequeue_taken taken).1
      refine Shared.closing_same owner rfl ?_ rfl rfl
      rw [items, List.count_cons_of_ne (by simpa using other)]
  | readerDrained missed =>
      have items := (Fifo.dequeue_missed missed (by simp)).1
      refine Shared.closing_same owner rfl ?_ rfl rfl
      rw [items]
  | task taken =>
      have items := (Fifo.dequeue_taken taken).1
      refine Shared.closing_same owner rfl rfl ?_ rfl
      rw [items, List.count_cons_of_ne (by simp)]
  | workerDrained missed =>
      have items := (Fifo.dequeue_missed missed (by simp)).1
      refine Shared.closing_same owner rfl rfl ?_ rfl
      rw [items]
  | outbound taken =>
      have items := (Fifo.dequeue_taken taken).1
      refine Shared.closing_same owner rfl rfl rfl ?_
      rw [items, List.count_cons_of_ne (by simp)]
  | writerEvent other taken =>
      have items := (Fifo.dequeue_taken taken).1
      refine Shared.closing_same owner rfl rfl rfl ?_
      rw [items, List.count_cons_of_ne other]
  | writerDrained missed =>
      have items := (Fifo.dequeue_missed missed (by simp)).1
      refine Shared.closing_same owner rfl rfl rfl ?_
      rw [items]
  | readerClose taken =>
      have items := (Fifo.dequeue_taken taken).1
      cases owner with
      | reader =>
          simp only [Shared.closing, Shared.queued, Shared.acks, items, List.count_cons_self,
            List.countP_singleton, Frame.closing, decide_true, if_true]
          omega
      | worker | writer | acceptor | client => rfl
  | workerClose taken =>
      have items := (Fifo.dequeue_taken taken).1
      cases owner with
      | worker =>
          simp only [Shared.closing, Shared.queued, Shared.acks, items, List.count_cons_self,
            List.countP_singleton, Frame.closing, decide_true, if_true]
          omega
      | reader | writer | acceptor | client => rfl
  | writerClose taken =>
      have items := (Fifo.dequeue_taken taken).1
      cases owner with
      | writer =>
          simp only [Shared.closing, Shared.queued, Shared.acks, items, List.count_cons_self,
            List.countP_singleton, Frame.closing, decide_true, if_true]
          omega
      | reader | worker | acceptor | client => rfl

theorem Pipeline.one_le_count {pipeline : Pipeline} {test : Frame → Bool} {place : Option Party}
    {frame : Frame} (owned : place ∈ ownedPlaces) (member : frame ∈ pipeline.calls place)
    (passes : test frame = true) : 1 ≤ pipeline.count test := by
  have here : 0 < (pipeline.calls place).countP test := List.countP_pos_iff.mpr ⟨frame, member, passes⟩
  exact Nat.le_trans here (countP_le_total owned pipeline.calls test)

theorem ConnectionOwner.place_mem (owner : ConnectionOwner) : owner.place ∈ ownedPlaces := by
  cases owner <;> decide

theorem Pipeline.Accepted.closing_step {before after : Pipeline} {action : Party × Choice}
    (accepted : before.Accepted) (single : before.closing .writer ≤ 1)
    (taken : PipelineStep before action after) (owner : ConnectionOwner) :
    after.closing owner = before.closing owner := by
  have balance : after.count (Frame.closing owner) + after.shared.closing owner + 0 =
      before.count (Frame.closing owner) + before.shared.closing owner + 0 := by
    apply accepted.account taken (Frame.closing_counted owner)
      (fun shared => shared.closing owner) (fun _ => 0)
    · intro target
      exact ⟨Shared.closing_same owner rfl rfl rfl rfl, rfl⟩
    · intro party frames shared idle
      exact idle.closing accepted.shared owner
    · intro place frame rest choice frames shared top here step
      apply frameStep_closing accepted.shared here _ step owner
      intro retires
      subst retires
      obtain ⟨_, same⟩ := here
      subst same
      have member : .retire .writer ∈ before.calls (ConnectionOwner.place .writer) := by
        rw [top]
        exact List.mem_cons_self
      have counted : 1 ≤ before.count (Frame.closing .writer) :=
        Pipeline.one_le_count (ConnectionOwner.place_mem .writer) member rfl
      unfold Pipeline.closing Shared.closing at single
      omega
  exact balance

theorem acceptedPipeline_closing (connection : Connection) (owner : ConnectionOwner) :
    (acceptedPipeline connection).closing owner = if owner = .client then 0 else 1 := by
  cases owner <;> rfl

/-! ## The acknowledgements and the release -/

def Frame.frees : Frame → Bool
  | .free (.noMoreUsed _) => true
  | _ => false

/-- The acknowledgements that found all owners there. -/
def Shared.lasts (shared : Shared) : Nat := shared.acknowledged.countP fun entry => entry.2

theorem Frame.of_frees {frame : Frame} (frees : frame.frees = true) :
    ∃ owner, frame = .free (.noMoreUsed owner) := by
  cases frame with
  | free cause =>
      cases cause with
      | unconnected => cases frees
      | noMoreUsed owner => exact ⟨owner, rfl⟩
  | stateTest | stateLock | assign | dispatch | userDispatch | userHandlers | inboundTest
  | inboundEnqueue | interestTest | recv | readTest | writeTest | fill | send | reenqueue | taskEnd
  | register | retire | noMoreUsed | handOver | connectionInit | connectTest | connect
  | finishConnect | closedTest | setConnected | connectedTest => cases frees

theorem Frame.frees_counted : Frame.Counted Frame.frees where
  owned id frame here := by
    rw [Bool.eq_false_iff]
    intro frees
    obtain ⟨owner, rfl⟩ := Frame.of_frees frees
    exact ConnectionOwner.place_ne_user here.2
  stateLock _ := rfl
  assign _ := rfl
  dispatch _ := rfl

theorem setState_closedBy (connection : Connection) (target : ConnectionState) :
    (setState connection target).closedBy = connection.closedBy := by
  cases target <;> rfl

/-- What is not an acknowledgement leaves the owners and the releases alone. -/
theorem SharedEffect.uncounted {shared after : Shared} {frame : Frame}
    (effect : SharedEffect shared frame after) (other : ∀ owner, frame ≠ .noMoreUsed owner) :
    after.acknowledged = shared.acknowledged ∧
      after.connection.closedBy = shared.connection.closedBy := by
  cases effect with
  | acknowledged owner => exact absurd rfl (other owner)
  | assigned target => exact ⟨rfl, setState_closedBy _ _⟩
  | @stays event _ owner =>
      obtain ⟨_, _, _, _, same⟩ := systemHandler_queues shared event owner
      rw [same]
      exact ⟨rfl, rfl⟩
  | @once event _ owner =>
      obtain ⟨_, _, _, _, same⟩ := systemHandler_queues { shared with
        systemHandlers := shared.systemHandlers.erase (event, owner) } event owner
      rw [same]
      exact ⟨rfl, rfl⟩
  | retired owner => cases owner <;> exact ⟨rfl, rfl⟩
  | quiet | walked | userCalled | task | reenqueued | registered | freed | dataItem | installed
  | managed | refused | handed | connected => exact ⟨rfl, rfl⟩

theorem Pipeline.Accepted.frees_step {before after : Pipeline} {action : Party × Choice}
    (accepted : before.Accepted) (taken : PipelineStep before action after) :
    after.count Frame.frees + after.shared.freed.length + before.shared.lasts =
      before.count Frame.frees + before.shared.freed.length + after.shared.lasts := by
  apply accepted.account taken Frame.frees_counted (fun shared => shared.freed.length)
    (fun shared => shared.lasts)
  · intro target
    exact ⟨rfl, rfl⟩
  · intro party frames shared idle
    have made : frames.countP Frame.frees = 0 := by
      rw [List.countP_eq_zero]
      intro frame member frees
      obtain ⟨owner, rfl⟩ := Frame.of_frees frees
      exact idle.free_not_mem _ member
    obtain ⟨_, _, _, _, rfl⟩ := idle.queues
    rw [made]
    rfl
  · intro place frame rest choice frames shared top here step
    have effect := frameStep_effect step
    have unmade (other : ∀ owner, frame ≠ .noMoreUsed owner) : frames.countP Frame.frees = 0 := by
      rw [List.countP_eq_zero]
      intro next member frees
      obtain ⟨freed, rfl⟩ := Frame.of_frees frees
      rcases (frameStep_follows step member).to_free with same | ⟨owner, _, same, _⟩
      · cases same
      · exact other owner same
    by_cases acknowledges : ∃ owner, frame = .noMoreUsed owner
    · obtain ⟨owner, rfl⟩ := acknowledges
      have result := frameStep_fixed rfl step
      rw [proceedStep, Option.some.injEq, Prod.mk.injEq] at result
      obtain ⟨made, same⟩ := result
      subst made same
      cases last : (connectionNoMoreUsed before.shared.connection owner).1 with
      | true => simp [Shared.lasts, Frame.frees, Nat.add_assoc, Nat.add_comm]
      | false => simp [Shared.lasts, Frame.frees]
    · have other : ∀ owner, frame ≠ .noMoreUsed owner := fun owner same => acknowledges ⟨owner, same⟩
      have same := (effect.uncounted other).1
      rw [unmade other, Shared.lasts, Shared.lasts, same]
      by_cases freeing : ∃ cause, frame = .free cause
      · obtain ⟨cause, rfl⟩ := freeing
        have result := frameStep_fixed rfl step
        rw [proceedStep, Option.some.injEq, Prod.mk.injEq] at result
        obtain ⟨_, freed⟩ := result
        subst freed
        cases cause with
        | unconnected => cases here
        | noMoreUsed owner => simp [Frame.frees]
      · have unfreeing : frame.frees = false := by
          rw [Bool.eq_false_iff]
          intro frees
          obtain ⟨owner, same⟩ := Frame.of_frees frees
          exact freeing ⟨_, same⟩
        rcases effect.frees with kept | ⟨cause, same, _⟩
        · rw [kept, unfreeing]
          rfl
        · exact absurd ⟨cause, same⟩ freeing

/-- The table of owners says who acknowledged, until all have; the last one found it so. -/
def Shared.Settled (shared : Shared) : Prop :=
  (∀ owner, owner ≠ .client → 0 < shared.acks owner) ∧ shared.lasts = 1 ∨
    (∃ owner, owner ≠ .client ∧ shared.acks owner = 0) ∧ shared.lasts = 0 ∧
      ∀ owner, shared.connection.closedBy owner = true ↔ owner = .client ∨ 0 < shared.acks owner

theorem Shared.Settled.congr {before after : Shared} (settled : before.Settled)
    (acknowledged : after.acknowledged = before.acknowledged)
    (closedBy : after.connection.closedBy = before.connection.closedBy) : after.Settled := by
  unfold Shared.Settled Shared.acks Shared.lasts
  rw [acknowledged, closedBy]
  exact settled

theorem ConnectionOwner.all_iff (closedBy : ConnectionOwner → Bool) :
    ConnectionOwner.all.all closedBy = true ↔ ∀ owner, closedBy owner = true := by
  rw [List.all_eq_true]
  constructor
  · intro all owner
    exact all owner (by cases owner <;> decide)
  · intro all owner _
    exact all owner

theorem Shared.Settled.acknowledge {shared : Shared} (settled : shared.Settled)
    {owner : ConnectionOwner} (known : owner ≠ .client) (first : shared.acks owner = 0) :
    Shared.Settled { shared with
      connection := (connectionNoMoreUsed shared.connection owner).2
      acknowledged := shared.acknowledged ++
        [(owner, (connectionNoMoreUsed shared.connection owner).1)] } := by
  obtain ⟨all, _⟩ | ⟨_, none, closedBy⟩ := settled
  · exact absurd first (Nat.ne_of_gt (all owner known))
  have acks (result : Bool) (other : ConnectionOwner) :
      (shared.acknowledged ++ [(owner, result)]).countP (fun entry => entry.1 = other) =
        shared.acks other + if owner = other then 1 else 0 := by
    rw [List.countP_append, List.countP_singleton]
    simp [Shared.acks]
  have closed (other : ConnectionOwner) :
      Function.update shared.connection.closedBy owner true other = true ↔
        other = .client ∨ 0 < shared.acks other + if owner = other then 1 else 0 := by
    by_cases same : other = owner
    · subst same
      simp
    · rw [Function.update_of_ne same, if_neg (Ne.symm same)]
      exact closedBy other
  unfold Shared.Settled Shared.acks Shared.lasts
  simp only [acks, List.countP_append, List.countP_singleton]
  have lasts : shared.acknowledged.countP (fun entry => entry.2) = 0 := none
  by_cases all : ConnectionOwner.all.all
      (Function.update shared.connection.closedBy owner true) = true
  · left
    have everyone := (ConnectionOwner.all_iff _).mp all
    constructor
    · intro other known'
      exact ((closed other).mp (everyone other)).resolve_left known'
    · simp [connectionNoMoreUsed, all, lasts]
  · right
    obtain ⟨other, missing⟩ := not_forall.mp fun everyone =>
      all ((ConnectionOwner.all_iff _).mpr everyone)
    have unknown := fun known => missing ((closed other).mpr known)
    obtain ⟨known', unacknowledged⟩ := not_or.mp unknown
    refine ⟨⟨other, known', Nat.eq_zero_of_not_pos unacknowledged⟩, ?_, ?_⟩
    · simp [connectionNoMoreUsed, all, lasts]
    · intro other
      simpa [connectionNoMoreUsed, all] using closed other

/-- The connection is released at most once, behind the acknowledgements of all owners. -/
structure Pipeline.Accounted (pipeline : Pipeline) : Prop where
  accepted : pipeline.Accepted
  closing : ∀ owner, pipeline.closing owner = if owner = .client then 0 else 1
  released : pipeline.count Frame.frees + pipeline.shared.freed.length = pipeline.shared.lasts
  settled : pipeline.shared.Settled

theorem Pipeline.Accounted.first {pipeline : Pipeline} (sound : pipeline.Accounted)
    {place : Option Party} {owner : ConnectionOwner}
    (member : .noMoreUsed owner ∈ pipeline.calls place) :
    owner ≠ .client ∧ pipeline.shared.acks owner = 0 := by
  obtain ⟨known, same⟩ := sound.accepted.places place _ member
  subst same
  have counted : 1 ≤ pipeline.count (Frame.closing owner) := by
    apply Pipeline.one_le_count (ConnectionOwner.place_mem owner) member
    simp [Frame.closing]
  have whole := sound.closing owner
  rw [if_neg known] at whole
  unfold Pipeline.closing Shared.closing at whole
  exact ⟨known, by omega⟩

theorem Pipeline.Accounted.step {before after : Pipeline} {action : Party × Choice}
    (sound : before.Accounted) (taken : PipelineStep before action after) : after.Accounted := by
  have single : before.closing .writer ≤ 1 := le_of_eq (sound.closing .writer)
  refine ⟨sound.accepted.step taken, ?_, ?_, ?_⟩
  · intro owner
    rw [sound.accepted.closing_step single taken owner]
    exact sound.closing owner
  · have balance := sound.accepted.frees_step taken
    have released := sound.released
    omega
  · cases taken.cases with
    | released => exact sound.settled
    | begun unlocked idle step =>
        obtain ⟨_, _, _, _, rfl⟩ := (idleStep_cases step).queues
        exact sound.settled.congr rfl rfl
    | entered => exact sound.settled.congr rfl rfl
    | @called place frame rest frames shared here top step =>
        have effect := frameStep_effect step
        by_cases acknowledges : ∃ owner, frame = .noMoreUsed owner
        · obtain ⟨owner, rfl⟩ := acknowledges
          have result := frameStep_fixed rfl step
          rw [proceedStep, Option.some.injEq, Prod.mk.injEq] at result
          obtain ⟨_, same⟩ := result
          subst same
          have member : .noMoreUsed owner ∈ before.calls place := by
            rw [top]
            exact List.mem_cons_self
          obtain ⟨known, first⟩ := sound.first member
          exact sound.settled.acknowledge known first
        · obtain ⟨acknowledged, closedBy⟩ :=
            effect.uncounted fun owner same => acknowledges ⟨owner, same⟩
          exact sound.settled.congr acknowledged closedBy

/-- An accepted connection is closed by its client's part only, which it has none of. -/
theorem acceptedPipeline_accounted {connection : Connection}
    (made : ∀ owner, connection.closedBy owner = decide (owner = .client)) :
    (acceptedPipeline connection).Accounted where
  accepted := acceptedPipeline_accepted connection
  closing := acceptedPipeline_closing connection
  released := rfl
  settled := by
    right
    refine ⟨⟨.reader, by simp, rfl⟩, rfl, fun owner => ?_⟩
    simp [acceptedPipeline, idleShared, made, Shared.acks]

end Aio4c
