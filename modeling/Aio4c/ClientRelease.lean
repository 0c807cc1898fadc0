import Aio4c.PipelineSteps

/-! Who frees a client's connection. The client frees a connection itself when CLOSE
reaches it before CONNECTED; a connection that was handed to the reader must not come
to that. -/

set_option autoImplicit false

namespace Aio4c

open TransitionSystem

/-- The client's handler of CLOSE is called on a connection that was not handed over, or
behind its handler of CONNECTED. Each of the two leaves the list of handlers when it is
called. -/
def ToldInTime (pipeline : Pipeline) (action : Party × Choice) : Prop :=
  (pipeline.calls (pipeline.place action.1)).head? = some (.dispatch .close) →
    pipeline.shared.systemHandlers.find? (fun handler => handler.1 = .close) =
      some (.close, .client) →
    pipeline.shared.handed = true → (.connected, .client) ∉ pipeline.shared.systemHandlers

/-- The client hands over no connection whose CLOSE its handler was called for. -/
def HandedUntold (pipeline : Pipeline) (action : Party × Choice) : Prop :=
  (pipeline.calls (pipeline.place action.1)).head? = some .closedTest →
    pipeline.shared.connection.state ≠ .closed →
    (.close, .client) ∈ pipeline.shared.systemHandlers

def ClosedInTime (pipeline : Pipeline) (action : Party × Choice) : Prop :=
  ToldInTime pipeline action ∧ HandedUntold pipeline action

instance (pipeline : Pipeline) (action : Party × Choice) :
    Decidable (ToldInTime pipeline action) :=
  inferInstanceAs (Decidable (_ → _ → _ → _))

instance (pipeline : Pipeline) (action : Party × Choice) :
    Decidable (HandedUntold pipeline action) :=
  inferInstanceAs (Decidable (_ → _ → _))

instance (pipeline : Pipeline) (action : Party × Choice) :
    Decidable (ClosedInTime pipeline action) :=
  inferInstanceAs (Decidable (_ ∧ _))

/-- The client takes the connection for connected, or will when it has handled events. -/
def Pipeline.Connects (pipeline : Pipeline) (events : List Event) : Prop :=
  pipeline.shared.connected = true ∨ Event.connected ∈ events ∨
    Frame.setConnected ∈ pipeline.calls (some .accepting)

/-- The client's part of a call: what it does without an owner's acknowledgement comes
behind its handler of CLOSE and concerns a connection that was not handed over. -/
def Shared.ClientCall (shared : Shared) : Frame → Prop
  | .handOver (.addSystemHandler _ owner) => owner ≠ .client
  | .connectedTest =>
      (.close, .client) ∉ shared.systemHandlers ∧ (shared.handed = true → shared.connected = true)
  | .free .unconnected => (.close, .client) ∉ shared.systemHandlers ∧ shared.handed = false
  | _ => True

structure Pipeline.ClientSound (pipeline : Pipeline) : Prop where
  endless : pipeline.shared.clientQueue.exit = false
  single : ∀ event, pipeline.shared.systemHandlers.count (event, .client) ≤ 1
  calls : ∀ place, ∀ frame ∈ pipeline.calls place, pipeline.shared.ClientCall frame
  told : (.close, .client) ∈ pipeline.shared.systemHandlers →
    Event.close ∉ pipeline.shared.clientQueue.items ∧
      FreeCause.unconnected ∉ pipeline.shared.freed
  announced : (.connected, .client) ∉ pipeline.shared.systemHandlers →
    pipeline.Connects pipeline.shared.clientQueue.items
  ordered : pipeline.shared.handed = true → ∀ earlier later,
    pipeline.shared.clientQueue.items = earlier ++ .close :: later → pipeline.Connects earlier
  freed : pipeline.shared.handed = true → FreeCause.unconnected ∉ pipeline.shared.freed

theorem clientPipeline_sound (connection : Connection) :
    (clientPipeline connection).ClientSound where
  endless := rfl
  single event := by
    change clientHandlers.count (event, .client) ≤ 1
    cases event <;> decide
  calls place frame member := by
    simp only [clientPipeline] at member
    split at member
    · cases List.mem_singleton.mp member
      trivial
    · cases member
  told _ := by simp [clientPipeline, idleShared, Fifo.empty]
  announced missing := by simp [clientPipeline, idleShared, clientHandlers] at missing
  ordered handed := by simp [clientPipeline, idleShared] at handed
  freed handed := by simp [clientPipeline, idleShared] at handed

structure Shared.SameClient (before after : Shared) : Prop where
  items : after.clientQueue.items = before.clientQueue.items
  exit : after.clientQueue.exit = before.clientQueue.exit
  connected : after.connected = before.connected
  handed : after.handed = before.handed
  freed : after.freed = before.freed
  handlers : ∀ event, after.systemHandlers.count (event, .client) =
    before.systemHandlers.count (event, .client)

theorem Shared.SameClient.refl (shared : Shared) : shared.SameClient shared :=
  ⟨rfl, rfl, rfl, rfl, rfl, fun _ => rfl⟩

theorem Shared.SameClient.systemHandler {before after : Shared} (same : before.SameClient after)
    (event : Event) {owner : ConnectionOwner} (other : owner ≠ .client) :
    before.SameClient (systemHandler after event owner).2 := by
  cases owner with
  | client => exact absurd rfl other
  | acceptor => exact same
  | reader => exact { same with }
  | writer => exact { same with }
  | worker =>
      simp only [Aio4c.systemHandler]
      split
      · exact same
      · exact { same with }

theorem Shared.SameClient.mem_iff {before after : Shared} (same : before.SameClient after)
    (event : Event) :
    (event, .client) ∈ after.systemHandlers ↔ (event, .client) ∈ before.systemHandlers := by
  rw [← List.count_pos_iff, ← List.count_pos_iff, same.handlers]

theorem Shared.ClientCall.mono {before after : Shared} {frame : Frame}
    (call : before.ClientCall frame)
    (handlers : (.close, .client) ∈ after.systemHandlers →
      (.close, .client) ∈ before.systemHandlers)
    (connected : before.connected = true → after.connected = true)
    (handed : after.handed = before.handed) : after.ClientCall frame := by
  cases frame with
  | handOver step => cases step <;> exact call
  | free cause =>
      cases cause with
      | noMoreUsed => trivial
      | unconnected => exact ⟨fun member => call.1 (handlers member), handed.trans call.2⟩
  | connectedTest =>
      constructor
      · intro member
        exact call.1 (handlers member)
      · intro known
        exact connected (call.2 (handed ▸ known))
  | stateTest | stateLock | assign | dispatch | userDispatch | userHandlers | inboundTest
  | inboundEnqueue | interestTest | recv | readTest | writeTest | fill | send | reenqueue | taskEnd
  | register | retire | noMoreUsed | connectionInit | connectTest | connect | finishConnect
  | closedTest | setConnected => trivial

theorem Shared.SameClient.clientCall {before after : Shared} (same : before.SameClient after)
    {frame : Frame} (call : before.ClientCall frame) : after.ClientCall frame :=
  call.mono (same.mem_iff _).mp (fun known => same.connected.trans known) same.handed

theorem UserCall.frame_client (call : UserCall) (shared : Shared) :
    shared.ClientCall call.frame := by
  cases call with
  | close force => cases force <;> trivial
  | enableWriteInterest => trivial

theorem readerManageConnection_client (shared : Shared) :
    ∀ step ∈ readerManageConnection, shared.ClientCall (.handOver step) := by
  simp [readerManageConnection, workerManageConnection, writerManageConnection,
    Shared.ClientCall]

theorem Follows.clientCall {shared : Shared} {frame next : Frame}
    (follows : Follows shared frame next) (call : shared.ClientCall frame) :
    shared.ClientCall next := by
  cases follows with
  | handOver member => exact readerManageConnection_client shared _ member
  | unconnected unconnected =>
      refine ⟨call.1, ?_⟩
      by_contra handed
      rw [call.2 (by simpa using handed)] at unconnected
      cases unconnected
  | userCall user => exact user.frame_client shared
  | stateLock | retire | inboundTest | dispatch | userDispatch | userHandlers | userCalls
  | inboundEnqueue | outboundData | recvClosing | readTest | inboundData | fill | writeRefused
  | write | send | sendClosing | reenqueue | noMoreUsed | free | managed | connected | initialized
  | connect | connectRefused | connects | finishRefused | clientNoMoreUsed => trivial

namespace Pipeline.ClientSound

variable {before after : Pipeline}

theorem connects {events events' : List Event} (connects : before.Connects events)
    (connected : before.shared.connected = true → after.shared.connected = true)
    (more : Event.connected ∈ events → Event.connected ∈ events')
    (remains : .setConnected ∈ before.calls (some .accepting) →
      .setConnected ∈ after.calls (some .accepting)) : after.Connects events' := by
  rcases connects with known | queued | calls
  · exact .inl (connected known)
  · exact .inr (.inl (more queued))
  · exact .inr (.inr (remains calls))

theorem keep (sound : before.ClientSound) (same : before.shared.SameClient after.shared)
    (remains : .setConnected ∈ before.calls (some .accepting) →
      .setConnected ∈ after.calls (some .accepting))
    (calls : ∀ place, ∀ frame ∈ after.calls place, before.shared.ClientCall frame) :
    after.ClientSound := by
  have keeps {events : List Event} (connects : before.Connects events) :
      after.Connects events := by
    apply Pipeline.ClientSound.connects connects _ id remains
    intro known
    exact same.connected.trans known
  exact
    { endless := by rw [same.exit]; exact sound.endless
      single := fun event => by rw [same.handlers]; exact sound.single event
      calls := fun place frame member => same.clientCall (calls place frame member)
      told := fun present => by
        rw [same.items, same.freed]
        exact sound.told ((same.mem_iff _).mp present)
      announced := fun missing => by
        rw [same.items]
        exact keeps (sound.announced fun present => missing ((same.mem_iff _).mpr present))
      ordered := fun handed earlier later split => by
        rw [same.items] at split
        exact keeps (sound.ordered (same.handed ▸ handed) earlier later split)
      freed := fun handed => by
        rw [same.freed]
        exact sound.freed (same.handed ▸ handed) }

theorem take (sound : before.ClientSound) (idle : before.calls (some .accepting) = [])
    {event : Event} {queue : Fifo Event}
    (taken : before.shared.clientQueue.dequeue true = (.taken event, queue)) :
    Pipeline.ClientSound { before with
      shared := { before.shared with clientQueue := queue }
      calls := Function.update before.calls (some .accepting) (clientRun event) } := by
  obtain ⟨items, exit⟩ := Fifo.dequeue_taken taken
  have keeps {events : List Event} (connects : before.Connects (event :: events)) :
      Pipeline.Connects { before with
        shared := { before.shared with clientQueue := queue }
        calls := Function.update before.calls (some .accepting) (clientRun event) } events := by
    rcases connects with known | queued | calls
    · exact .inl known
    · rcases List.mem_cons.mp queued with rfl | queued
      · right
        right
        simp [clientRun]
      · exact .inr (.inl queued)
    · rw [idle] at calls
      cases calls
  exact
    { endless := exit.trans sound.endless
      single := sound.single
      calls := fun place frame member => by
        rcases mem_begun member with ⟨_, member⟩ | member
        · cases event with
          | close =>
              cases List.mem_singleton.mp member
              constructor
              · intro present
                apply (sound.told present).1
                rw [items]
                exact List.mem_cons_self
              · intro handed
                rcases sound.ordered handed [] queue.items items with known | queued | calls
                · exact known
                · cases queued
                · rw [idle] at calls
                  cases calls
          | init | connected =>
              cases List.mem_singleton.mp member
              trivial
          | connecting =>
              rcases List.mem_cons.mp member with rfl | member
              · trivial
              · cases List.mem_singleton.mp member
                trivial
          | read | inboundData | write | outboundData | pendingClose | free => cases member
        · exact sound.calls place frame member
      told := fun present => by
        obtain ⟨untold, unfreed⟩ := sound.told present
        refine ⟨fun queued => untold ?_, unfreed⟩
        rw [items]
        exact List.mem_cons_of_mem _ queued
      announced := fun missing => keeps (items ▸ sound.announced missing)
      ordered := fun handed earlier later split => by
        apply keeps
        apply sound.ordered handed (event :: earlier) later
        rw [items, split]
        rfl
      freed := sound.freed }

theorem notify (sound : before.ClientSound) {event : Event}
    {handlers : List (Event × ConnectionOwner)}
    (shared : after.shared = Shared.notify { before.shared with systemHandlers := handlers } event)
    (fewer : ∀ event, handlers.count (event, .client) ≤
      before.shared.systemHandlers.count (event, .client))
    (told : (.close, .client) ∈ handlers → event ≠ .close)
    (announces : (.connected, .client) ∉ handlers → event = .connected ∨
      (.connected, .client) ∉ before.shared.systemHandlers)
    (inTime : event = .close → before.shared.handed = true →
      before.Connects before.shared.clientQueue.items)
    (remains : .setConnected ∈ before.calls (some .accepting) →
      .setConnected ∈ after.calls (some .accepting))
    (calls : ∀ place, ∀ frame ∈ after.calls place, before.shared.ClientCall frame) :
    after.ClientSound := by
  have present {event : Event} (member : (event, .client) ∈ handlers) :
      (event, .client) ∈ before.shared.systemHandlers :=
    List.count_pos_iff.mp ((List.count_pos_iff.mpr member).trans_le (fewer event))
  have queue : after.shared.clientQueue =
      { before.shared.clientQueue with items := before.shared.clientQueue.items ++ [event] } := by
    rw [shared]
    simp only [Shared.notify, Fifo.push_open sound.endless]
  have keeps {events events' : List Event} (connects : before.Connects events)
      (more : ∀ event ∈ events, event ∈ events') : after.Connects events' := by
    apply Pipeline.ClientSound.connects connects _ (more _) remains
    intro known
    rw [shared]
    exact known
  exact
    { endless := by rw [queue]; exact sound.endless
      single := fun event => by
        rw [shared]
        exact (fewer event).trans (sound.single event)
      calls := fun place frame member => by
        apply (calls place frame member).mono
        · intro told
          rw [shared] at told
          exact present told
        · intro known
          rw [shared]
          exact known
        · rw [shared]
          rfl
      told := fun member => by
        rw [shared] at member
        obtain ⟨untold, unfreed⟩ := sound.told (present member)
        rw [queue]
        refine ⟨?_, by rw [shared]; exact unfreed⟩
        intro queued
        rcases List.mem_append.mp queued with queued | last
        · exact untold queued
        · exact told member (List.mem_singleton.mp last).symm
      announced := fun missing => by
        rw [shared] at missing
        rw [queue]
        rcases announces missing with rfl | missing
        · exact .inr (.inl (by simp))
        · exact keeps (sound.announced missing) fun _ queued => List.mem_append_left _ queued
      ordered := fun handed earlier later split => by
        have handed' : before.shared.handed = true := by
          rw [shared] at handed
          exact handed
        rw [queue] at split
        rcases List.eq_nil_or_concat later with rfl | ⟨later, last, rfl⟩
        · obtain ⟨rfl, closes⟩ := List.append_inj' split rfl
          exact keeps (inTime (List.head_eq_of_cons_eq closes) handed') fun _ queued => queued
        · rw [List.concat_eq_append, ← List.cons_append, ← List.append_assoc] at split
          have front := (List.append_inj' split rfl).1
          exact keeps (sound.ordered handed' earlier later front) fun _ queued => queued
      freed := fun handed => by
        rw [shared] at handed ⊢
        exact sound.freed handed }

theorem once (sound : before.ClientSound) {event : Event}
    (shared : after.shared = Shared.notify { before.shared with
      systemHandlers := before.shared.systemHandlers.erase (event, .client) } event)
    (inTime : event = .close → before.shared.handed = true →
      (.connected, .client) ∉ before.shared.systemHandlers)
    (remains : .setConnected ∈ before.calls (some .accepting) →
      .setConnected ∈ after.calls (some .accepting))
    (calls : ∀ place, ∀ frame ∈ after.calls place, before.shared.ClientCall frame) :
    after.ClientSound := by
  apply sound.notify shared _ _ _ _ remains calls
  · intro other
    exact List.Sublist.count_le _ List.erase_sublist
  · intro member same
    subst same
    have single := sound.single .close
    have still := List.count_pos_iff.mpr member
    rw [List.count_erase_self] at still
    omega
  · intro missing
    by_cases same : event = .connected
    · exact .inl same
    · right
      intro present
      apply missing
      exact (List.mem_erase_of_ne (by simp [Ne.symm same])).mpr present
  · intro closes handed
    exact sound.announced (inTime closes handed)

theorem stays (sound : before.ClientSound) {event : Event}
    (data : event = .inboundData ∨ event = .outboundData)
    (shared : after.shared = before.shared.notify event)
    (remains : .setConnected ∈ before.calls (some .accepting) →
      .setConnected ∈ after.calls (some .accepting))
    (calls : ∀ place, ∀ frame ∈ after.calls place, before.shared.ClientCall frame) :
    after.ClientSound := by
  have other : event ≠ .close := by
    rcases data with rfl | rfl <;> simp
  apply sound.notify shared _ _ _ _ remains calls
  · exact fun _ => le_rfl
  · exact fun _ => other
  · exact fun missing => .inr missing
  · exact fun closes => absurd closes other

theorem free (sound : before.ClientSound) {cause : FreeCause}
    (call : before.shared.ClientCall (.free cause))
    (shared : after.shared = { before.shared with freed := before.shared.freed ++ [cause] })
    (remains : .setConnected ∈ before.calls (some .accepting) →
      .setConnected ∈ after.calls (some .accepting))
    (calls : ∀ place, ∀ frame ∈ after.calls place, before.shared.ClientCall frame) :
    after.ClientSound := by
  have keeps {events : List Event} (connects : before.Connects events) :
      after.Connects events := by
    apply Pipeline.ClientSound.connects connects _ id remains
    intro known
    rw [shared]
    exact known
  have unfreed (untold : FreeCause.unconnected ∉ before.shared.freed)
      (other : cause ≠ .unconnected) : FreeCause.unconnected ∉ after.shared.freed := by
    rw [shared]
    intro freed
    rcases List.mem_append.mp freed with freed | last
    · exact untold freed
    · exact other (List.mem_singleton.mp last).symm
  exact
    { endless := by rw [shared]; exact sound.endless
      single := fun event => by rw [shared]; exact sound.single event
      calls := fun place frame member => by
        apply (calls place frame member).mono
        · intro told
          rw [shared] at told
          exact told
        · intro known
          rw [shared]
          exact known
        · rw [shared]
      told := fun present => by
        rw [shared] at present
        obtain ⟨untold, unfreed'⟩ := sound.told present
        refine ⟨by rw [shared]; exact untold, unfreed unfreed' ?_⟩
        intro equal
        subst equal
        exact call.1 present
      announced := fun missing => by
        rw [shared] at missing ⊢
        exact keeps (sound.announced missing)
      ordered := fun handed earlier later split => by
        rw [shared] at handed split
        exact keeps (sound.ordered handed earlier later split)
      freed := fun handed => by
        rw [shared] at handed
        apply unfreed (sound.freed handed)
        intro equal
        subst equal
        have unhanded := call.2
        rw [handed] at unhanded
        cases unhanded }

theorem hand (sound : before.ClientSound)
    (untold : (.close, .client) ∈ before.shared.systemHandlers)
    (shared : after.shared = { before.shared with handed := true })
    (remains : .setConnected ∈ before.calls (some .accepting) →
      .setConnected ∈ after.calls (some .accepting))
    (calls : ∀ place, ∀ frame ∈ after.calls place, before.shared.ClientCall frame) :
    after.ClientSound := by
  obtain ⟨unqueued, unfreed⟩ := sound.told untold
  exact
    { endless := by rw [shared]; exact sound.endless
      single := fun event => by rw [shared]; exact sound.single event
      calls := fun place frame member => by
        have call := calls place frame member
        rw [shared]
        cases frame with
        | handOver step => cases step <;> exact call
        | free cause =>
            cases cause with
            | noMoreUsed => trivial
            | unconnected => exact absurd untold call.1
        | connectedTest => exact absurd untold call.1
        | stateTest | stateLock | assign | dispatch | userDispatch | userHandlers | inboundTest
        | inboundEnqueue | interestTest | recv | readTest | writeTest | fill | send | reenqueue
        | taskEnd | register | retire | noMoreUsed | connectionInit | connectTest | connect
        | finishConnect | closedTest | setConnected => trivial
      told := fun _ => by
        rw [shared]
        exact ⟨unqueued, unfreed⟩
      announced := fun missing => by
        rw [shared] at missing
        apply Pipeline.ClientSound.connects (sound.announced missing) _ _ remains
        · intro known
          rw [shared]
          exact known
        · intro queued
          rw [shared]
          exact queued
      ordered := fun _ earlier later split => by
        rw [shared] at split
        apply absurd _ unqueued
        rw [split]
        simp
      freed := fun _ => by
        rw [shared]
        exact unfreed }

theorem connect (sound : before.ClientSound)
    (shared : after.shared = { before.shared with connected := true })
    (calls : ∀ place, ∀ frame ∈ after.calls place, before.shared.ClientCall frame) :
    after.ClientSound := by
  have known (events : List Event) : after.Connects events := by
    left
    rw [shared]
  exact
    { endless := by rw [shared]; exact sound.endless
      single := fun event => by rw [shared]; exact sound.single event
      calls := fun place frame member => by
        apply (calls place frame member).mono
        · intro told
          rw [shared] at told
          exact told
        · intro _
          rw [shared]
        · rw [shared]
      told := fun present => by
        rw [shared] at present ⊢
        exact sound.told present
      announced := fun _ => known _
      ordered := fun _ earlier _ _ => known earlier
      freed := fun handed => by
        rw [shared] at handed ⊢
        exact sound.freed handed }

theorem idle (sound : before.ClientSound) {party : Party} {frames : List Frame} {shared : Shared}
    (idle : before.calls (some party) = []) (step : IdleCase before.shared party frames shared) :
    Pipeline.ClientSound { before with
      shared, calls := Function.update before.calls (some party) frames } := by
  have remains : .setConnected ∈ before.calls (some .accepting) →
      .setConnected ∈ Function.update before.calls (some party) frames (some .accepting) := by
    intro member
    by_cases here : some Party.accepting = some party
    · rw [here, idle] at member
      cases member
    · simpa only [Function.update_of_ne here] using member
  have calls (begins : ∀ frame ∈ frames, before.shared.ClientCall frame) :
      ∀ place, ∀ frame ∈ Function.update before.calls (some party) frames place,
        before.shared.ClientCall frame := by
    intro place frame member
    rcases mem_begun member with ⟨_, member⟩ | member
    · exact begins frame member
    · exact sound.calls place frame member
  cases step with
  | clientEvent taken => exact sound.take idle taken
  | clientDrained missed =>
      obtain ⟨items, exit, _⟩ := Fifo.dequeue_missed missed (by simp)
      exact sound.keep ⟨items, exit, rfl, rfl, rfl, fun _ => rfl⟩ remains (calls (by simp))
  | user alive call =>
      refine sound.keep ⟨rfl, rfl, rfl, rfl, rfl, fun _ => rfl⟩ remains (calls ?_)
      intro frame member
      cases List.mem_singleton.mp member
      exact call.frame_client before.shared
  | data | readerClose | readerEvent | readerDrained | ready | task | workerClose | workerDrained
  | outbound | writerClose | writerEvent | writerDrained =>
      exact sound.keep ⟨rfl, rfl, rfl, rfl, rfl, fun _ => rfl⟩ remains
        (calls (by simp [Shared.ClientCall]))

theorem call (sound : before.ClientSound) {place : Option Party} {frame : Frame}
    {rest frames : List Frame} {shared : Shared} (top : before.calls place = frame :: rest)
    (told : frame = .dispatch .close →
      before.shared.systemHandlers.find? (fun handler => handler.1 = .close) =
        some (.close, .client) →
      before.shared.handed = true → (.connected, .client) ∉ before.shared.systemHandlers)
    (untold : frame = .closedTest → before.shared.connection.state ≠ .closed →
      (.close, .client) ∈ before.shared.systemHandlers)
    (follows : ∀ next ∈ frames, Follows before.shared frame next)
    (effect : SharedEffect before.shared frame shared) :
    Pipeline.ClientSound { before with
      shared, calls := Function.update before.calls place (frames ++ rest) } := by
  have here : before.shared.ClientCall frame := by
    apply sound.calls place
    rw [top]
    exact List.mem_cons_self
  have calls : ∀ other, ∀ next ∈ Function.update before.calls place (frames ++ rest) other,
      before.shared.ClientCall next := by
    intro other next member
    rcases mem_called top member with ⟨_, member⟩ | member
    · exact (follows next member).clientCall here
    · exact sound.calls other next member
  have remains (other : frame ≠ .setConnected) :
      .setConnected ∈ before.calls (some .accepting) →
      .setConnected ∈ Function.update before.calls place (frames ++ rest) (some .accepting) := by
    intro member
    by_cases same : some Party.accepting = place
    · rw [same, top] at member
      rw [same, Function.update_self]
      exact List.mem_append_right _ ((List.mem_cons.mp member).resolve_left (Ne.symm other))
    · simpa only [Function.update_of_ne same] using member
  cases effect with
  | connected => exact sound.connect rfl calls
  | handed opened => exact sound.hand (untold rfl opened) rfl (remains (by simp)) calls
  | freed cause => exact sound.free here rfl (remains (by simp)) calls
  | @stays event _ owner found data =>
      by_cases client : owner = .client
      · subst client
        exact sound.stays data rfl (remains (by simp)) calls
      · exact sound.keep ((Shared.SameClient.refl _).systemHandler event client)
          (remains (by simp)) calls
  | @once event announced owner found other =>
      have same : announced = event := by simpa using List.find?_some found
      subst same
      by_cases client : owner = .client
      · subst client
        apply sound.once rfl _ (remains (by simp)) calls
        intro equal
        subst equal
        exact told rfl found
      · have erased : before.shared.SameClient { before.shared with
            systemHandlers := before.shared.systemHandlers.erase (announced, owner) } :=
          ⟨rfl, rfl, rfl, rfl, rfl, fun event =>
            List.count_erase_of_ne (by simp [Ne.symm client])⟩
        exact sound.keep (erased.systemHandler announced client) (remains (by simp)) calls
  | @installed event owner =>
      refine sound.keep ⟨rfl, rfl, rfl, rfl, rfl, fun other => ?_⟩ (remains (by simp)) calls
      have other' : owner ≠ .client := here
      simp [List.count_append, other']
  | @quiet _ quiet =>
      refine sound.keep (Shared.SameClient.refl _) (remains ?_) calls
      intro equal
      subst equal
      cases quiet
  | retired owner =>
      refine sound.keep ?_ (remains (by simp)) calls
      cases owner <;> exact ⟨rfl, rfl, rfl, rfl, rfl, fun _ => rfl⟩
  | assigned | walked | userCalled | task | reenqueued | registered | acknowledged | dataItem
  | managed | refused =>
      exact sound.keep ⟨rfl, rfl, rfl, rfl, rfl, fun _ => rfl⟩ (remains (by simp)) calls

theorem enter (sound : before.ClientSound) {party : Party} {target : ConnectionState}
    {rest : List Frame} (waits : before.calls (some party) = .stateLock target :: rest) :
    Pipeline.ClientSound {
      shared := { before.shared with
        connection := { before.shared.connection with state := target } }
      locked := some party
      calls := Function.update (Function.update before.calls (some party) rest) none
        (.assign target :: (stateEvent target).toList.map .dispatch) } := by
  refine sound.keep ⟨rfl, rfl, rfl, rfl, rfl, fun _ => rfl⟩ ?_ ?_
  · intro member
    simp only [Function.update_of_ne (Option.some_ne_none _)]
    by_cases here : some Party.accepting = some party
    · rw [here, waits] at member
      simp only [here, Function.update_self]
      exact (List.mem_cons.mp member).resolve_left (by simp)
    · simpa only [Function.update_of_ne here] using member
  · intro place frame member
    rcases mem_entered waits member with ⟨_, rfl | ⟨event, _, rfl⟩⟩ | member
    · trivial
    · trivial
    · exact sound.calls place frame member

theorem step (sound : before.ClientSound) {action : Party × Choice}
    (allowed : ClosedInTime before action) (taken : PipelineStep before action after) :
    after.ClientSound := by
  obtain ⟨toldInTime, handedUntold⟩ := allowed
  cases taken.cases with
  | released =>
      exact sound.keep (Shared.SameClient.refl _) id sound.calls
  | begun unlocked idle step => exact sound.idle idle (idleStep_cases step)
  | entered unlocked waits => exact sound.enter waits
  | @called place frame rest frames shared here top step =>
      have head : (before.calls (before.place action.1)).head? = some frame := by
        rw [here, top]
        rfl
      apply sound.call top
      · intro equal
        subst equal
        exact toldInTime head
      · intro equal
        subst equal
        exact handedUntold head
      · exact fun next => frameStep_follows step
      · exact frameStep_effect step

end Pipeline.ClientSound

/-! ## The acknowledgement in front of a free -/

/-- Behind an owner's `FreeConnection` stands its `ConnectionNoMoreUsed` that returned true. -/
def Shared.Acknowledged (shared : Shared) : FreeCause → Prop
  | .unconnected => True
  | .noMoreUsed owner => (owner, true) ∈ shared.acknowledged

structure Pipeline.Acknowledged (pipeline : Pipeline) : Prop where
  calls : ∀ place cause, .free cause ∈ pipeline.calls place → pipeline.shared.Acknowledged cause
  freed : ∀ cause ∈ pipeline.shared.freed, pipeline.shared.Acknowledged cause

theorem Shared.Acknowledged.more {before after : Shared} {cause : FreeCause}
    (known : before.Acknowledged cause)
    (more : ∃ more, after.acknowledged = before.acknowledged ++ more) :
    after.Acknowledged cause := by
  cases cause with
  | unconnected => trivial
  | noMoreUsed owner =>
      obtain ⟨more, same⟩ := more
      unfold Shared.Acknowledged
      rw [same]
      exact List.mem_append_left more known

theorem SharedEffect.acknowledgements {before after : Shared} {frame : Frame}
    (effect : SharedEffect before frame after) :
    ∃ more, after.acknowledged = before.acknowledged ++ more := by
  cases effect with
  | acknowledged owner => exact ⟨_, rfl⟩
  | @stays event _ owner =>
      obtain ⟨_, _, _, _, same⟩ := systemHandler_queues before event owner
      rw [same]
      exact ⟨[], (List.append_nil _).symm⟩
  | @once event _ owner =>
      obtain ⟨_, _, _, _, same⟩ := systemHandler_queues { before with
        systemHandlers := before.systemHandlers.erase (event, owner) } event owner
      rw [same]
      exact ⟨[], (List.append_nil _).symm⟩
  | retired owner => cases owner <;> exact ⟨[], (List.append_nil _).symm⟩
  | quiet | assigned | walked | userCalled | task | reenqueued | registered | freed | dataItem
  | installed | managed | refused | handed | connected => exact ⟨[], (List.append_nil _).symm⟩

theorem Pipeline.Acknowledged.step {before after : Pipeline} (sound : before.Acknowledged)
    {action : Party × Choice} (taken : PipelineStep before action after) :
    after.Acknowledged := by
  cases taken.cases with
  | released => exact ⟨sound.calls, sound.freed⟩
  | @begun frames shared unlocked idle step =>
      have cases := idleStep_cases step
      obtain ⟨_, _, _, _, rfl⟩ := cases.queues
      refine ⟨fun place cause member => ?_, sound.freed⟩
      rcases mem_begun member with ⟨_, begun⟩ | kept
      · exact absurd begun (cases.free_not_mem cause)
      · exact sound.calls place cause kept
  | entered unlocked waits =>
      refine ⟨fun place cause member => ?_, sound.freed⟩
      rcases mem_entered waits member with ⟨_, same | ⟨_, _, same⟩⟩ | kept
      · cases same
      · cases same
      · exact sound.calls place cause kept
  | @called place frame rest frames shared here top step =>
      have effect := frameStep_effect step
      have more := effect.acknowledgements
      constructor
      · intro other cause member
        rcases mem_called top member with ⟨_, made⟩ | kept
        · rcases (frameStep_follows step made).to_free with rfl | ⟨owner, rfl, rfl, last⟩
          · trivial
          · cases effect with
            | quiet quiet => cases quiet
            | acknowledged owner =>
                unfold Shared.Acknowledged
                simp [last]
        · exact (sound.calls other cause kept).more more
      · intro cause member
        apply Shared.Acknowledged.more _ more
        rcases effect.frees with same | ⟨freed, rfl, same⟩
        · exact sound.freed cause (same ▸ member)
        · have member' : cause ∈ before.shared.freed ++ [freed] := same ▸ member
          rcases List.mem_append.mp member' with earlier | last
          · exact sound.freed cause earlier
          · cases List.mem_singleton.mp last
            apply sound.calls place
            rw [top]
            exact List.mem_cons_self

theorem clientPipeline_acknowledged (connection : Connection) :
    (clientPipeline connection).Acknowledged where
  calls place cause member := by
    simp only [clientPipeline] at member
    split at member
    · cases List.mem_singleton.mp member
    · cases member
  freed cause member := by simp [clientPipeline, idleShared] at member

/-- In every run over a client's connection in which CLOSE reaches the client's handler
before the hand-over, which then does not come, or behind CONNECTED, a connection that the
client frees as not connected was not handed to the reader, and one that was handed over
is freed only by owners whose `ConnectionNoMoreUsed` returned true. -/
theorem clientPipeline_freed {connection : Connection} {actions : List (Party × Choice)}
    {pipeline : Pipeline}
    (run : Run (Guarded ClosedInTime PipelineStep) (clientPipeline connection) actions pipeline) :
    (FreeCause.unconnected ∈ pipeline.shared.freed → pipeline.shared.handed = false) ∧
      (pipeline.shared.handed = true → ∀ cause ∈ pipeline.shared.freed, ∃ owner,
        cause = .noMoreUsed owner ∧ (owner, true) ∈ pipeline.shared.acknowledged) := by
  have kept : pipeline.ClientSound ∧ pipeline.Acknowledged := by
    apply run.keeps
    · intro before action after holds taken
      exact ⟨holds.1.step taken.1 taken.2, holds.2.step taken.2⟩
    · exact ⟨clientPipeline_sound connection, clientPipeline_acknowledged connection⟩
  obtain ⟨sound, acknowledged⟩ := kept
  constructor
  · intro unconnected
    by_contra handed
    exact sound.freed (by simpa using handed) unconnected
  · intro handed cause freed
    cases cause with
    | unconnected => exact absurd freed (sound.freed handed)
    | noMoreUsed owner => exact ⟨owner, rfl, acknowledged.freed _ freed⟩

/-- Steps of one party that leave nothing open. -/
def proceeds (party : Party) (count : Nat) : List (Party × Choice) :=
  List.replicate count (party, .proceed)

/-- The client opens a connection, finishes it and begins to hand it over; the reader
registers it. -/
def clientHandsOver : List (Party × Choice) :=
  (.accepting, .opened true) :: proceeds .accepting 10 ++
    (.accepting, .connect .inProgress) :: proceeds .accepting 10 ++
    (.accepting, .finishConnect .connected) :: proceeds .accepting 2 ++ proceeds .reader 3

def clientConnected : List (Party × Choice) := proceeds .accepting 20

/-- The reader finds the end of the stream and closes a connection with so many handlers
of CLOSE. -/
def readerCloses (handlers : Nat) : List (Party × Choice) :=
  (.reader, .ready) :: (.reader, .recv true) :: proceeds .reader (7 + handlers)

def ownersAcknowledge : List (Party × Choice) :=
  proceeds .accepting 4 ++ proceeds .reader 4 ++ proceeds .worker 3 ++ proceeds .writer 4

theorem clientPipeline_freed_by_writer :
    let buffer : Buffer := { size := 1, data := [0, 0, 0], position := 0, limit := 1 }
    let connection := newConnection buffer buffer
    ∃ pipeline, Run (Guarded ClosedInTime PipelineStep) (clientPipeline connection)
        (clientHandsOver ++ clientConnected ++ readerCloses 4 ++ ownersAcknowledge) pipeline ∧
      (pipeline.shared.handed = true ∧ pipeline.shared.freed = [.noMoreUsed .writer]) ∧
      (FreeCause.unconnected ∈ pipeline.shared.freed → pipeline.shared.handed = false) ∧
      (pipeline.shared.handed = true → ∀ cause ∈ pipeline.shared.freed, ∃ owner,
        cause = .noMoreUsed owner ∧ (owner, true) ∈ pipeline.shared.acknowledged) := by
  intro buffer connection
  obtain ⟨pipeline, runs, run⟩ := exists_run_of_execute (Guarded ClosedInTime PipelineStep)
    (guardedNext ClosedInTime fun pipeline action => pipelineStep pipeline action.1 action.2)
    (clientPipeline connection)
    (clientHandsOver ++ clientConnected ++ readerCloses 4 ++ ownersAcknowledge)
    (fun _ _ _ taken => guardedNext_sound taken) (by decide +kernel)
  have final : (execute (guardedNext ClosedInTime fun pipeline action =>
      pipelineStep pipeline action.1 action.2) (clientPipeline connection)
        (clientHandsOver ++ clientConnected ++ readerCloses 4 ++ ownersAcknowledge)).map
        (fun pipeline => (pipeline.shared.handed, pipeline.shared.freed)) =
      some (true, [.noMoreUsed .writer]) := by decide +kernel
  rw [runs, Option.map_some, Option.some.injEq, Prod.mk.injEq] at final
  exact ⟨pipeline, run, final, clientPipeline_freed run⟩

/-- The peer closes the connection while the client hands it over. -/
theorem clientPipeline_freed_unconnected :
    ¬ ∀ (connection : Connection) (actions : List (Party × Choice)) (pipeline : Pipeline),
      Run PipelineStep (clientPipeline connection) actions pipeline →
      (FreeCause.unconnected ∈ pipeline.shared.freed → pipeline.shared.handed = false) ∧
        (pipeline.shared.handed = true → ∀ cause ∈ pipeline.shared.freed, ∃ owner,
          cause = .noMoreUsed owner ∧ (owner, true) ∈ pipeline.shared.acknowledged) := by
  intro owned
  let buffer : Buffer := { size := 1, data := [0, 0, 0], position := 0, limit := 1 }
  let connection := newConnection buffer buffer
  let actions := clientHandsOver ++ readerCloses 1 ++ proceeds .accepting 21
  obtain ⟨pipeline, runs, run⟩ := exists_run_of_execute PipelineStep
    (fun pipeline action => pipelineStep pipeline action.1 action.2)
    (clientPipeline connection) actions (fun _ _ _ taken => taken) (by decide +kernel)
  have final : (execute (fun pipeline (action : Party × Choice) =>
      pipelineStep pipeline action.1 action.2) (clientPipeline connection) actions).map
        (fun pipeline => (pipeline.shared.handed, pipeline.shared.freed)) =
      some (true, [.unconnected]) := by decide +kernel
  rw [runs, Option.map_some, Option.some.injEq, Prod.mk.injEq] at final
  have unhanded := (owned connection actions pipeline run).1 (by rw [final.2]; simp)
  rw [final.1] at unhanded
  cases unhanded

end Aio4c
