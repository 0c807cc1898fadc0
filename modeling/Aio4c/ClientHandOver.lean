import Aio4c.Client

/-! The hand-over of a client's connection. A connection becomes CONNECTED when its
owners are complete, which the hand-over brings about, and when `connect` succeeds at
once, which nobody follows by a hand-over. -/

set_option autoImplicit false

namespace Aio4c

open TransitionSystem

/-- The threads of the pipe manage the connection. -/
def Connection.Managed (connection : Connection) : Prop :=
  connection.managedBy .reader = true ∧ connection.managedBy .worker = true ∧
    connection.managedBy .writer = true

/-- A call that completes no owners and connects nothing. -/
structure Connection.Unconnecting (before after : Connection) : Prop where
  managedBy : after.managedBy = before.managedBy
  connected : after.state = .connected → before.state = .connected

theorem Connection.Unconnecting.managed {before after : Connection}
    (calm : before.Unconnecting after) (managed : before.Managed) : after.Managed := by
  unfold Connection.Managed
  rw [calm.managedBy]
  exact managed

@[simp] theorem enterState_managedBy (connection : Connection) (state : ConnectionState) :
    (enterState connection state).managedBy = connection.managedBy := by
  cases state <;> rfl

theorem connectionState_unconnecting {handlers : Handlers} {connection after : Connection}
    {state : ConnectionState} (other : state ≠ .connected)
    (result : connectionState handlers connection state = .ok after) :
    connection.Unconnecting after := by
  rw [connectionState_eq, Except.ok.injEq] at result
  subst result
  split
  · exact ⟨rfl, id⟩
  · refine ⟨enterState_managedBy connection state, ?_⟩
    intro connected
    exact absurd ((enterState_state connection state).symm.trans connected) other

theorem connectionClose_unconnecting {handlers : Handlers} {connection after : Connection}
    {force : Bool} (result : connectionClose handlers connection force = .ok after) :
    connection.Unconnecting after := by
  cases force with
  | true => exact connectionState_unconnecting (by simp) result
  | false => exact connectionState_unconnecting (by simp) result

theorem connectionHandleError_unconnecting {handlers : Handlers} {connection after : Connection}
    {error : ConnectionError} (result : connectionHandleError handlers connection error = .ok after) :
    connection.Unconnecting after := by
  obtain ⟨managedBy, connected⟩ := connectionClose_unconnecting result
  exact ⟨managedBy, connected⟩

theorem connectionInit_unconnecting {handlers : Handlers} {connection after : Connection}
    {outcome : InitOutcome} (result : connectionInit handlers connection outcome = .ok after) :
    connection.Unconnecting after := by
  cases outcome with
  | socketError =>
      obtain ⟨managedBy, connected⟩ := connectionHandleError_unconnecting result
      exact ⟨managedBy, connected⟩
  | fcntlError socket =>
      obtain ⟨managedBy, connected⟩ := connectionHandleError_unconnecting result
      exact ⟨managedBy, connected⟩
  | opened socket =>
      obtain ⟨managedBy, connected⟩ := connectionState_unconnecting (by simp) result
      exact ⟨managedBy, connected⟩

theorem connectionFinishConnect_unconnecting {handlers : Handlers} {connection after : Connection}
    {outcome : FinishConnectOutcome}
    (result : connectionFinishConnect handlers connection outcome = .ok after) :
    connection.Unconnecting after := by
  cases outcome with
  | pollError | getsockoptError | soError => exact connectionHandleError_unconnecting result
  | notReady | connected =>
      cases result
      exact ⟨rfl, id⟩

theorem connectionConnect_unconnecting {handlers : Handlers} {connection after : Connection}
    {outcome : ConnectOutcome}
    (later : outcome = .connected → connection.state ≠ .initialized)
    (result : connectionConnect handlers connection outcome = .ok after) :
    connection.Unconnecting after := by
  unfold connectionConnect at result
  split at result
  · exact connectionHandleError_unconnecting result
  · next initialized =>
      cases outcome with
      | error => exact connectionHandleError_unconnecting result
      | inProgress => exact connectionState_unconnecting (by simp) result
      | connected => exact absurd (later rfl) initialized

/-! ## What the calls on connections change of the client -/

/-- The client of a changed connection, with events behind the others in its queue. -/
def Client.changed (client : Client) (id : Nat) (attempt : Attempt)
    (queue : Fifo (Event × Nat)) : Client :=
  { client with queue, attempts := Function.update client.attempts id attempt }

theorem Client.notify_changed (client : Client) (id : Nat) (event : Event) :
    ∃ queue handlers, client.notify id event =
        client.changed id { client.attempts id with handlers } queue ∧
      ∀ entry ∈ queue.items, entry ∈ client.queue.items ∨ entry.2 = id := by
  by_cases expected : event ∈ (client.attempts id).handlers
  · refine ⟨_, _, if_pos expected, ?_⟩
    intro entry member
    unfold Fifo.push Fifo.enqueue at member
    split at member
    · exact .inl member
    · rcases List.mem_append.mp member with member | last
      · exact .inl member
      · cases List.mem_singleton.mp last
        exact .inr rfl
  · refine ⟨client.queue, (client.attempts id).handlers, ?_, fun _ member => .inl member⟩
    simp [Client.notify, Client.changed, expected]

theorem Client.settle_changed (client : Client) (id : Nat) (connection : Connection) :
    ∃ queue handlers, client.settle id connection =
        client.changed id { client.attempts id with connection, handlers } queue ∧
      ∀ entry ∈ queue.items, entry ∈ client.queue.items ∨ entry.2 = id := by
  have folded (events : List Event) (start : Client) :
      ∃ queue handlers,
        events.foldl (fun client event => client.notify id event) start =
          start.changed id { start.attempts id with handlers } queue ∧
        ∀ entry ∈ queue.items, entry ∈ start.queue.items ∨ entry.2 = id := by
    induction events generalizing start with
    | nil =>
        refine ⟨start.queue, (start.attempts id).handlers, ?_, fun _ member => .inl member⟩
        simp [Client.changed]
    | cons event events ih =>
        obtain ⟨queue, handlers, same, known⟩ := start.notify_changed id event
        obtain ⟨queue', handlers', same', known'⟩ := ih (start.notify id event)
        refine ⟨queue', handlers', ?_, ?_⟩
        · rw [List.foldl_cons, same', same]
          simp [Client.changed]
        · intro entry member
          rcases known' entry member with earlier | mine
          · rw [same] at earlier
            exact known entry earlier
          · exact .inr mine
  obtain ⟨queue, handlers, same, known⟩ := folded
    (connection.events.drop (client.attempts id).connection.events.length)
    ({ client with
      attempts := Function.update client.attempts id { client.attempts id with connection } })
  refine ⟨queue, handlers, ?_, known⟩
  unfold Client.settle
  rw [same]
  simp [Client.changed]

theorem Client.call_changed {client after : Client} {id : Nat}
    {call : Handlers → Connection → Access Connection} (called : client.call id call = some after) :
    ∃ connection queue handlers,
      call bufferlessHandlers (client.attempts id).connection = .ok connection ∧
      after = client.changed id { client.attempts id with connection, handlers } queue ∧
      ∀ entry ∈ queue.items, entry ∈ client.queue.items ∨ entry.2 = id := by
  unfold Client.call at called
  cases result : call bufferlessHandlers (client.attempts id).connection with
  | error fault => simp [result, Except.toOption] at called
  | ok connection =>
      simp only [result, Except.toOption, Option.map_some, Option.some.injEq] at called
      subst called
      obtain ⟨queue, handlers, same, known⟩ := client.settle_changed id connection
      exact ⟨connection, queue, handlers, rfl, same, known⟩

/-! ## What a client knows of its attempts -/

/-- A connection that is CONNECTED, or that its thread or the reader is about to connect,
is managed, and the reader manages what was handed to it. -/
structure Client.Sound (client : Client) : Prop where
  queue : ∀ entry ∈ client.queue.items, entry.2 ≤ client.current
  calls : ∀ call ∈ client.calls, call.2 ≤ client.current
  entered : ∀ id ∈ client.readerQueue.items, id ≤ client.current ∧ (client.attempts id).handed = true
  arriving : ∀ id ∈ client.arriving,
    id ≤ client.current ∧ (client.attempts id).connection.Managed
  completed : ∀ id, (ClientFrame.handOver .connected, id) ∈ client.calls →
    (client.attempts id).connection.Managed
  owner : ∀ id, (ClientFrame.handOver (.managedBy .reader), id) ∉ client.calls
  handed : ∀ id, (client.attempts id).connection.managedBy .reader = true →
    (client.attempts id).handed = true
  connected : ∀ id, (client.attempts id).connection.state = .connected →
    (client.attempts id).connection.Managed

structure Attempt.Follows (before after : Attempt) : Prop where
  kept : before.handed = true → after.handed = true
  managed : before.connection.Managed → after.connection.Managed
  handed : after.connection.managedBy .reader = true → after.handed = true
  connected : after.connection.state = .connected → after.connection.Managed

theorem Client.Sound.changed {client : Client} (sound : client.Sound) {id : Nat}
    {attempt : Attempt} {queue : Fifo (Event × Nat)} (bound : id ≤ client.current)
    (follows : (client.attempts id).Follows attempt)
    (known : ∀ entry ∈ queue.items, entry ∈ client.queue.items ∨ entry.2 = id) :
    (client.changed id attempt queue).Sound := by
  have handed (other : Nat) (before : (client.attempts other).handed = true) :
      (Function.update client.attempts id attempt other).handed = true := by
    by_cases same : other = id
    · subst same
      simpa using follows.kept before
    · simpa [same] using before
  have managed (other : Nat) (before : (client.attempts other).connection.Managed) :
      (Function.update client.attempts id attempt other).connection.Managed := by
    by_cases same : other = id
    · subst same
      simpa using follows.managed before
    · simpa [same] using before
  constructor
  · intro entry member
    rcases known entry member with earlier | mine
    · exact sound.queue entry earlier
    · exact mine ▸ bound
  · exact sound.calls
  · intro other member
    exact ⟨(sound.entered other member).1, handed other (sound.entered other member).2⟩
  · intro other member
    exact ⟨(sound.arriving other member).1, managed other (sound.arriving other member).2⟩
  · intro other member
    exact managed other (sound.completed other member)
  · exact sound.owner
  · intro other
    by_cases same : other = id
    · subst same
      simpa [Client.changed] using follows.handed
    · simpa [Client.changed, same] using sound.handed other
  · intro other
    by_cases same : other = id
    · subst same
      simpa [Client.changed] using follows.connected
    · simpa [Client.changed, same] using sound.connected other

theorem Client.Sound.follows {client : Client} (sound : client.Sound) {id : Nat}
    {connection : Connection} {handlers : List Event}
    (calm : (client.attempts id).connection.Unconnecting connection) :
    (client.attempts id).Follows { client.attempts id with connection, handlers } := by
  constructor
  · intro before
    exact before
  · exact calm.managed
  · intro managedBy
    apply sound.handed
    rw [← calm.managedBy]
    exact managedBy
  · intro connected
    exact calm.managed (sound.connected id (calm.connected connected))

theorem Client.Sound.notify {client : Client} (sound : client.Sound) {id : Nat}
    (bound : id ≤ client.current) (event : Event) : (client.notify id event).Sound := by
  obtain ⟨queue, handlers, same, known⟩ := client.notify_changed id event
  rw [same]
  exact sound.changed bound (sound.follows ⟨rfl, fun connected => connected⟩) known

theorem Client.Sound.call {client after : Client} (sound : client.Sound) {id : Nat}
    {call : Handlers → Connection → Access Connection} (bound : id ≤ client.current)
    (calm : ∀ connection, call bufferlessHandlers (client.attempts id).connection = .ok connection →
      (client.attempts id).connection.Unconnecting connection)
    (called : client.call id call = some after) : after.Sound := by
  obtain ⟨connection, queue, handlers, result, same, known⟩ := Client.call_changed called
  rw [same]
  exact sound.changed bound (sound.follows (calm connection result)) known

theorem Client.Sound.connects {client after : Client} (sound : client.Sound) {id : Nat}
    (bound : id ≤ client.current) (managed : (client.attempts id).connection.Managed)
    (called : client.call id (fun handlers connection =>
      connectionState handlers connection .connected) = some after) : after.Sound := by
  obtain ⟨connection, queue, handlers, result, same, known⟩ := Client.call_changed called
  have managedBy : connection.managedBy = (client.attempts id).connection.managedBy := by
    rw [connectionState_eq, Except.ok.injEq] at result
    rw [← result]
    split
    · rfl
    · exact enterState_managedBy _ _
  have still : connection.Managed := by
    unfold Connection.Managed
    rw [managedBy]
    exact managed
  rw [same]
  apply sound.changed bound _ known
  constructor
  · intro before
    exact before
  · intro _
    exact still
  · intro byReader
    apply sound.handed
    rw [← managedBy]
    exact byReader
  · intro _
    exact still

/-- Other calls, of which a new one connects only what is managed and adds no reader. -/
theorem Client.Sound.calling {client : Client} (sound : client.Sound)
    {calls : List (ClientFrame × Nat)}
    (known : ∀ call ∈ calls, call ∈ client.calls ∨ call.2 ≤ client.current ∧
      (call.1 = .handOver .connected → (client.attempts call.2).connection.Managed) ∧
        call.1 ≠ .handOver (.managedBy .reader)) :
    Client.Sound { client with calls } := by
  constructor
  · exact sound.queue
  · intro call member
    rcases known call member with earlier | begun
    · exact sound.calls call earlier
    · exact begun.1
  · exact sound.entered
  · exact sound.arriving
  · intro id member
    rcases known _ member with earlier | begun
    · exact sound.completed id earlier
    · exact begun.2.1 rfl
  · intro id member
    rcases known _ member with earlier | begun
    · exact sound.owner id earlier
    · exact absurd rfl begun.2.2
  · exact sound.handed
  · exact sound.connected

theorem Client.Sound.entering {client : Client} (sound : client.Sound) {readerQueue : Fifo Nat}
    (known : ∀ id ∈ readerQueue.items, id ∈ client.readerQueue.items ∨
      id ≤ client.current ∧ (client.attempts id).handed = true) :
    Client.Sound { client with readerQueue } := by
  constructor
  · exact sound.queue
  · exact sound.calls
  · intro id member
    rcases known id member with earlier | entered
    · exact sound.entered id earlier
    · exact entered
  · exact sound.arriving
  · exact sound.completed
  · exact sound.owner
  · exact sound.handed
  · exact sound.connected

theorem Client.Sound.reaching {client : Client} (sound : client.Sound) {arriving : List Nat}
    (known : ∀ id ∈ arriving, id ∈ client.arriving ∨
      id ≤ client.current ∧ (client.attempts id).connection.Managed) :
    Client.Sound { client with arriving } := by
  constructor
  · exact sound.queue
  · exact sound.calls
  · exact sound.entered
  · intro id member
    rcases known id member with earlier | managed
    · exact sound.arriving id earlier
    · exact managed
  · exact sound.completed
  · exact sound.owner
  · exact sound.handed
  · exact sound.connected

theorem Client.Sound.queued {client : Client} (sound : client.Sound)
    {queue : Fifo (Event × Nat)} (known : ∀ entry ∈ queue.items, entry ∈ client.queue.items) :
    Client.Sound { client with queue } := by
  constructor
  · intro entry member
    exact sound.queue entry (known entry member)
  · exact sound.calls
  · exact sound.entered
  · exact sound.arriving
  · exact sound.completed
  · exact sound.owner
  · exact sound.handed
  · exact sound.connected

theorem Client.Sound.handle {client : Client} (sound : client.Sound) {id : Nat}
    (bound : id ≤ client.current) (event : Event) : (client.handle id event).Sound := by
  cases event with
  | init =>
      apply sound.calling
      simp [bound]
  | connecting =>
      apply sound.calling
      simp [bound]
  | close =>
      apply sound.calling
      simp [bound]
  | connected | free =>
      exact ⟨sound.queue, sound.calls, sound.entered, sound.arriving, sound.completed,
        sound.owner, sound.handed, sound.connected⟩
  | read | inboundData | write | outboundData | pendingClose => exact sound

theorem Client.Sound.handles {client : Client} (sound : client.Sound) {event : Event} {id : Nat}
    {queue : Fifo (Event × Nat)}
    (dequeued : client.queue.dequeue true = (.taken (event, id), queue)) :
    (Client.handle { client with queue } id event).Sound := by
  obtain ⟨items, _⟩ := Fifo.dequeue_taken dequeued
  apply Client.Sound.handle
  · apply sound.queued
    intro entry member
    rw [items]
    exact List.mem_cons_of_mem _ member
  · exact sound.queue (event, id) (by rw [items]; exact List.mem_cons_self)

theorem connectionManage_managed {connection after : Connection} {owner : ConnectionOwner}
    (managed : connectionManage connection owner = (true, after)) : after.Managed := by
  unfold connectionManage at managed
  simp only [Prod.mk.injEq] at managed
  obtain ⟨all, rfl⟩ := managed
  rw [List.all_eq_true] at all
  exact ⟨all .reader (by simp [ConnectionOwner.all]), all .worker (by simp [ConnectionOwner.all]),
    all .writer (by simp [ConnectionOwner.all])⟩

theorem Client.Sound.manages {client : Client} (sound : client.Sound) {id : Nat}
    {owner : ConnectionOwner} (handed : owner = .reader → (client.attempts id).handed = true) :
    (client.attempts id).Follows { client.attempts id with
      connection := (connectionManage (client.attempts id).connection owner).2 } := by
  have grows (other : ConnectionOwner)
      (before : (client.attempts id).connection.managedBy other = true) :
      (connectionManage (client.attempts id).connection owner).2.managedBy other = true := by
    by_cases same : other = owner
    · simp [connectionManage, same]
    · simpa [connectionManage, same] using before
  have managed (before : (client.attempts id).connection.Managed) :
      (connectionManage (client.attempts id).connection owner).2.Managed :=
    ⟨grows _ before.1, grows _ before.2.1, grows _ before.2.2⟩
  constructor
  · intro before
    exact before
  · exact managed
  · intro byReader
    by_cases same : owner = .reader
    · exact handed same
    · apply sound.handed
      have distinct : ConnectionOwner.reader ≠ owner := fun equal => same equal.symm
      simpa [connectionManage, distinct] using byReader
  · intro connected
    exact managed (sound.connected id connected)

theorem Client.Sound.returned {client : Client} (sound : client.Sound) {call : ClientFrame × Nat}
    {calls : List (ClientFrame × Nat)} (top : client.calls = call :: calls) :
    Client.Sound { client with calls } := by
  apply sound.calling
  intro other member
  exact .inl (by rw [top]; exact List.mem_cons_of_mem _ member)

theorem Client.Sound.bound {client : Client} (sound : client.Sound) {frame : ClientFrame}
    {id : Nat} {calls : List (ClientFrame × Nat)} (top : client.calls = (frame, id) :: calls) :
    id ≤ client.current :=
  sound.calls (frame, id) (by rw [top]; exact List.mem_cons_self)

theorem Client.Sound.hand {client : Client} (sound : client.Sound) {id : Nat}
    {step : HandOverStep} {calls : List (ClientFrame × Nat)}
    (top : client.calls = (.handOver step, id) :: calls) : (client.hand id calls step).Sound := by
  have returned := sound.returned top
  have bound := sound.bound top
  cases step with
  | enqueueDataItem =>
      have known : ∀ other ∈ (client.readerQueue.push id).2.items,
          other ∈ client.readerQueue.items ∨ other = id := by
        intro other member
        unfold Fifo.push Fifo.enqueue at member
        split at member
        · exact .inl member
        · simpa using member
      have changed : (Client.changed { client with calls } id
          { client.attempts id with handed := true } client.queue).Sound := by
        apply returned.changed bound _ (fun _ member => .inl member)
        constructor
        · intro _
          rfl
        · intro managed
          exact managed
        · intro _
          rfl
        · exact sound.connected id
      apply changed.entering
      intro other member
      rcases known other member with earlier | same
      · exact .inl earlier
      · subst same
        exact .inr ⟨bound, by simp [Client.changed]⟩
  | addSystemHandler event owner => exact returned
  | connected => exact returned
  | managedBy owner =>
      have other : owner ≠ .reader := by
        intro same
        subst same
        exact sound.owner id (by rw [top]; exact List.mem_cons_self)
      have changed : (Client.changed { client with calls } id { client.attempts id with
          connection := (connectionManage (client.attempts id).connection owner).2 }
          client.queue).Sound :=
        returned.changed bound (sound.manages fun same => absurd same other)
          (fun _ member => .inl member)
      cases managed : connectionManage (client.attempts id).connection owner with
      | mk managedByAll connection =>
          rw [managed] at changed
          cases managedByAll with
          | false =>
              simp only [Client.hand, managed, Bool.false_eq_true, if_false]
              exact changed
          | true =>
              have complete : connection.Managed := connectionManage_managed managed
              simp only [Client.hand, managed, if_true]
              apply changed.calling
              intro call member
              rcases List.mem_cons.mp member with same | earlier
              · subst same
                exact .inr ⟨bound, fun _ => by simpa [Client.changed] using complete, by simp⟩
              · exact .inl earlier

theorem Client.Sound.settle {client : Client} (sound : client.Sound) {id : Nat}
    {connection : Connection} (bound : id ≤ client.current)
    (calm : (client.attempts id).connection.Unconnecting connection) :
    (client.settle id connection).Sound := by
  obtain ⟨queue, handlers, same, known⟩ := client.settle_changed id connection
  rw [same]
  exact sound.changed bound (sound.follows calm) known

theorem connectionNoMoreUsed_unconnecting {connection after : Connection}
    {owner : ConnectionOwner} {last : Bool}
    (used : connectionNoMoreUsed connection owner = (last, after)) :
    connection.Unconnecting after := by
  unfold connectionNoMoreUsed at used
  simp only at used
  split at used <;> cases used
  · exact ⟨rfl, fun connected => connected⟩
  · exact ⟨rfl, fun connected => connected⟩

theorem Client.settle_current (client : Client) (id : Nat) (connection : Connection) :
    (client.settle id connection).current = client.current := by
  obtain ⟨queue, handlers, same, _⟩ := client.settle_changed id connection
  rw [same]
  rfl

theorem Client.Sound.attempt {client : Client} (sound : client.Sound)
    (readBuffer writeBuffer : Buffer) : (client.attempt readBuffer writeBuffer).Sound := by
  have earlier (id : Nat) (bound : id ≤ client.current) :
      (client.attempt readBuffer writeBuffer).attempts id = client.attempts id := by
    have distinct : id ≠ client.current + 1 := Nat.ne_of_lt (Nat.lt_succ_of_le bound)
    simp [Client.attempt, distinct]
  constructor
  · intro entry member
    exact Nat.le_succ_of_le (sound.queue entry member)
  · intro call member
    exact Nat.le_succ_of_le (sound.calls call member)
  · intro id member
    obtain ⟨bound, handed⟩ := sound.entered id member
    exact ⟨Nat.le_succ_of_le bound, by rw [earlier id bound]; exact handed⟩
  · intro id member
    obtain ⟨bound, managed⟩ := sound.arriving id member
    exact ⟨Nat.le_succ_of_le bound, by rw [earlier id bound]; exact managed⟩
  · intro id member
    rw [earlier id (sound.calls _ member)]
    exact sound.completed id member
  · exact sound.owner
  · intro id
    by_cases same : id = client.current + 1
    · simp [Client.attempt, same, newAttempt, newConnection]
    · simpa [Client.attempt, same] using sound.handed id
  · intro id
    by_cases same : id = client.current + 1
    · simp [Client.attempt, same, newAttempt, newConnection]
    · simpa [Client.attempt, same] using sound.connected id

theorem Client.Sound.retries {client after : Client} (sound : client.Sound)
    {readBuffer writeBuffer : Buffer} {outcome : InitOutcome} {retryCount : Int}
    (called : (Client.attempt { client with retryCount } readBuffer writeBuffer).call
      (client.current + 1) (fun handlers connection => connectionInit handlers connection outcome) =
        some after) : after.Sound := by
  have counted : Client.Sound { client with retryCount } :=
    ⟨sound.queue, sound.calls, sound.entered, sound.arriving, sound.completed, sound.owner,
      sound.handed, sound.connected⟩
  apply (counted.attempt readBuffer writeBuffer).call le_rfl _ called
  intro connection result
  exact connectionInit_unconnecting result

theorem Client.Sound.readerTakes {client : Client} (sound : client.Sound) {id : Nat}
    {readerQueue : Fifo Nat} {managedByAll : Bool} {connection : Connection}
    (dequeued : client.readerQueue.dequeue false = (.taken id, readerQueue))
    (managed : connectionManage (client.attempts id).connection .reader =
      (managedByAll, connection)) :
    Client.Sound { client with
      readerQueue, arriving := if managedByAll then id :: client.arriving else client.arriving
      attempts := Function.update client.attempts id
        { client.attempts id with connection } } := by
  obtain ⟨items, _⟩ := Fifo.dequeue_taken dequeued
  obtain ⟨bound, handed⟩ := sound.entered id (by rw [items]; exact List.mem_cons_self)
  have dropped : Client.Sound { client with readerQueue } := by
    apply sound.entering
    intro other member
    exact .inl (by rw [items]; exact List.mem_cons_of_mem _ member)
  have follows : (client.attempts id).Follows { client.attempts id with connection } := by
    have grown := sound.manages fun _ : ConnectionOwner.reader = .reader => handed
    rw [managed] at grown
    exact grown
  have changed : (Client.changed { client with readerQueue } id
      { client.attempts id with connection } client.queue).Sound :=
    dropped.changed bound follows fun _ member => .inl member
  apply changed.reaching
  intro other member
  cases managedByAll with
  | false => exact .inl member
  | true =>
      rcases List.mem_cons.mp member with same | earlier
      · subst same
        exact .inr ⟨bound, by simpa [Client.changed] using connectionManage_managed managed⟩
      · exact .inl earlier

/-! ## Runs -/

/-- A `connect` that the client calls on an initialized connection does not succeed at
once. -/
def Client.ConnectsLater (client : Client) (action : ClientAction) : Prop :=
  action = .connect .connected → ∀ call ∈ client.calls, call.1 = .connect →
    (client.attempts call.2).connection.state ≠ .initialized

instance (client : Client) (action : ClientAction) : Decidable (client.ConnectsLater action) :=
  inferInstanceAs (Decidable (_ → _))

theorem Client.Sound.step {before after : Client} {action : ClientAction} (sound : before.Sound)
    (later : before.ConnectsLater action) (taken : ClientStep before action after) :
    after.Sound := by
  cases clientStep_moves taken with
  | handles _ _ dequeued => exact sound.handles dequeued
  | drains dequeued =>
      obtain ⟨items, _⟩ := Fifo.dequeue_missed dequeued (by simp)
      apply sound.queued
      intro entry member
      rw [← items]
      exact member
  | @connects id _ _ _ top called =>
      apply (sound.returned top).call (sound.bound top) _ called
      intro connection result
      apply connectionConnect_unconnecting _ result
      intro connected
      subst connected
      exact later rfl (.connect, id) (by rw [top]; exact List.mem_cons_self) rfl
  | finishes top called =>
      apply (sound.returned top).call (sound.bound top) _ called
      intro connection result
      exact connectionFinishConnect_unconnecting result
  | findsClosed top => exact sound.returned top
  | handsOver top =>
      have bound := sound.bound top
      apply sound.calling
      intro call member
      rcases List.mem_append.mp member with begun | earlier
      · obtain ⟨step, listed, rfl⟩ := List.mem_map.mp begun
        refine .inr ⟨bound, ?_, ?_⟩
        · intro connected
          simp only [ClientFrame.handOver.injEq] at connected
          subst connected
          exact absurd listed (by decide)
        · intro reader
          cases reader
          exact absurd listed (by decide)
      · exact .inl (by rw [top]; exact List.mem_cons_of_mem _ earlier)
  | hands top => exact sound.hand top
  | @reaches id _ _ top called =>
      apply (sound.returned top).connects (sound.bound top) _ called
      exact sound.completed id (by rw [top]; exact List.mem_cons_self)
  | keeps top used =>
      exact (sound.returned top).settle (sound.bound top) (connectionNoMoreUsed_unconnecting used)
  | releases top used =>
      have calm := connectionNoMoreUsed_unconnecting used
      have settled := (sound.returned top).settle (sound.bound top) calm
      exact settled.notify (by rw [Client.settle_current]; exact sound.bound top) .free
  | releasesAtOnce top => exact (sound.returned top).notify (sound.bound top) .free
  | retries top _ called => exact (sound.returned top).retries called
  | givesUp top =>
      have returned := sound.returned top
      exact ⟨returned.queue, returned.calls, returned.entered, returned.arriving,
        returned.completed, returned.owner, returned.handed, returned.connected⟩
  | readerTakes dequeued managed => exact sound.readerTakes dequeued managed
  | readerDrains dequeued =>
      obtain ⟨items, _⟩ := Fifo.dequeue_missed dequeued (by simp)
      apply sound.entering
      intro id member
      exact .inl (by rw [← items]; exact member)
  | @readerConnects id arriving _ top called =>
      obtain ⟨bound, managed⟩ := sound.arriving id (by rw [top]; exact List.mem_cons_self)
      have dropped : Client.Sound { before with arriving } := by
        apply sound.reaching
        intro other member
        exact .inl (by rw [top]; exact List.mem_cons_of_mem _ member)
      exact dropped.connects bound managed called
  | closes bound called => exact sound.call bound (fun _ => connectionClose_unconnecting) called
  | fails bound called =>
      exact sound.call bound (fun _ => connectionHandleError_unconnecting) called
  | frees bound => exact sound.notify bound .free

theorem idleClient_sound (retries : Int) (readBuffer writeBuffer : Buffer) :
    (idleClient retries readBuffer writeBuffer).Sound := by
  constructor <;> simp [idleClient, newAttempt, newConnection, Fifo.empty]

theorem newClient_sound {retries : Int} {readBuffer writeBuffer : Buffer} {outcome : InitOutcome}
    {client : Client} (made : newClient retries readBuffer writeBuffer outcome = some client) :
    client.Sound := by
  apply (idleClient_sound retries readBuffer writeBuffer).call le_rfl _ made
  intro connection result
  exact connectionInit_unconnecting result

/-- In every run in which no `connect` succeeds at once, the client's connection is
CONNECTED only behind its hand-over and with all threads of the pipe managing it, whether
the client's queue is drained or not. -/
theorem newClient_connected {retries : Int} {readBuffer writeBuffer : Buffer}
    {outcome : InitOutcome} {start client : Client} {actions : List ClientAction}
    (made : newClient retries readBuffer writeBuffer outcome = some start)
    (run : Run (Guarded Client.ConnectsLater ClientStep) start actions client)
    (connected : (client.attempts client.current).connection.state = .connected) :
    (client.attempts client.current).handed = true ∧
      (client.attempts client.current).connection.Managed := by
  have sound : client.Sound := by
    apply run.keeps
    · intro before action after holds taken
      exact holds.step taken.1 taken.2
    · exact newClient_sound made
  have managed := sound.connected client.current connected
  exact ⟨sound.handed client.current managed.1, managed⟩

/-- The client connects in two steps and hands its connection over. -/
def connectsLater : List ClientAction :=
  [.dequeue, .connect .inProgress, .dequeue, .dequeue, .finishConnect .connected, .closedTest] ++
    List.replicate 9 .handOver ++ [.readerDequeue, .readerConnected, .dequeue, .dequeue]

/-- The client connects in one step. -/
def connectsAtOnce : List ClientAction :=
  [.dequeue, .connect .connected, .dequeue, .dequeue]

theorem newClient_connected_later :
    let buffer : Buffer := { size := 1, data := [0, 0, 0], position := 0, limit := 1 }
    ∃ start client, newClient 0 buffer buffer (.opened 3) = some start ∧
      Run (Guarded Client.ConnectsLater ClientStep) start connectsLater client ∧
      (client.queue.items = [] ∧ client.calls = [] ∧
        (client.attempts client.current).connection.state = .connected) ∧
      (client.attempts client.current).handed = true ∧
        (client.attempts client.current).connection.Managed := by
  intro buffer
  cases made : newClient 0 buffer buffer (.opened 3) with
  | none => cases made
  | some start =>
      have ends : (newClient 0 buffer buffer (.opened 3)).bind (fun start =>
          (execute (guardedNext Client.ConnectsLater clientStep) start connectsLater).map
            fun client => (client.queue.items, client.calls,
              (client.attempts client.current).connection.state)) =
          some ([], [], .connected) := by decide
      rw [made, Option.bind_some] at ends
      obtain ⟨client, runs, run⟩ := exists_run_of_execute (Guarded Client.ConnectsLater ClientStep)
        (guardedNext Client.ConnectsLater clientStep) start connectsLater
        (fun _ _ _ taken => guardedNext_sound taken) (by
          rw [← Option.isSome_map, ends]
          rfl)
      rw [runs, Option.map_some, Option.some.injEq, Prod.mk.injEq, Prod.mk.injEq] at ends
      exact ⟨start, client, rfl, run, ends, newClient_connected made run ends.2.2⟩

/-- `connect` succeeds at once and the client's queue is drained. -/
theorem newClient_connected_unmanaged :
    ¬ ∀ (retries : Int) (readBuffer writeBuffer : Buffer) (outcome : InitOutcome)
        (start client : Client) (actions : List ClientAction),
      newClient retries readBuffer writeBuffer outcome = some start →
      Run ClientStep start actions client →
      client.queue.items = [] → client.calls = [] →
      (client.attempts client.current).connection.state = .connected →
      (client.attempts client.current).handed = true ∧
        (client.attempts client.current).connection.Managed := by
  intro managed
  let buffer : Buffer := { size := 1, data := [0, 0, 0], position := 0, limit := 1 }
  cases made : newClient 0 buffer buffer (.opened 3) with
  | none => cases made
  | some start =>
      have ends : (newClient 0 buffer buffer (.opened 3)).bind (fun start =>
          (execute clientStep start connectsAtOnce).map fun client =>
            (client.queue.items, client.calls,
              (client.attempts client.current).connection.state,
              (client.attempts client.current).handed)) =
          some ([], [], .connected, false) := by decide
      rw [made, Option.bind_some] at ends
      obtain ⟨client, runs, run⟩ := exists_run_of_execute ClientStep clientStep start
        connectsAtOnce (fun _ _ _ taken => taken) (by
          rw [← Option.isSome_map, ends]
          rfl)
      rw [runs, Option.map_some, Option.some.injEq, Prod.mk.injEq, Prod.mk.injEq,
        Prod.mk.injEq] at ends
      obtain ⟨drained, idle, connected, unhanded⟩ := ends
      have handed := (managed 0 buffer buffer (.opened 3) start client connectsAtOnce made run
        drained idle connected).1
      rw [unhanded] at handed
      cases handed

end Aio4c
