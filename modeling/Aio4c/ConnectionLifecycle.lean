import Aio4c.Connection
import Mathlib.Data.List.Chain

/-! Sequences of calls on one connection. The state moves forward and stays
closed exactly when the caller makes up for the three calls of the source that
set a state without a look at the current one. -/

set_option autoImplicit false

namespace Aio4c

open SignedInt

inductive ConnectionCall where
  | init (outcome : InitOutcome)
  | connect (outcome : ConnectOutcome)
  | finishConnect (outcome : FinishConnectOutcome)
  | managedBy (owner : ConnectionOwner)
  | read (recv : RecvOutcome)
  | write (send : SendOutcome)
  | close (force : Bool)
  deriving DecidableEq, Repr

def connectionCall (handlers : Handlers) (connection : Connection) :
    ConnectionCall → Access Connection
  | .init outcome => connectionInit handlers connection outcome
  | .connect outcome => connectionConnect handlers connection outcome
  | .finishConnect outcome => connectionFinishConnect handlers connection outcome
  | .managedBy owner => connectionManagedBy handlers connection owner
  | .read recv => connectionRead handlers connection recv
  | .write send => (connectionWrite handlers connection send).map Prod.snd
  | .close force => connectionClose handlers connection force

/-- The place of a state in the order of the enumeration. -/
def ConnectionState.rank : ConnectionState → Nat
  | .none => 0
  | .initialized => 1
  | .connecting => 2
  | .connected => 3
  | .pendingClose => 4
  | .closed => 5

theorem ConnectionState.rank_le_closed (state : ConnectionState) :
    state.rank ≤ ConnectionState.closed.rank := by
  cases state <;> decide

theorem ConnectionState.eq_closed_of_rank {state : ConnectionState}
    (above : ConnectionState.closed.rank ≤ state.rank) : state = .closed := by
  cases state <;> simp [ConnectionState.rank] at above ⊢

/-- The events that announce a state. -/
def lifecycleEvents : List Event := [.init, .connecting, .connected, .pendingClose, .close]

/-- A closed connection neither reads nor writes. -/
def Connection.Shut (connection : Connection) : Prop :=
  connection.state = .closed → connection.canRead = false ∧ connection.canWrite = false

/-- What one connection of a run says about a later one: the state did not move
backwards, the later one is shut if closed, and from a closed one on no event
that announces a state was dispatched. -/
structure Connection.Advances (earlier later : Connection) : Prop where
  forward : earlier.state.rank ≤ later.state.rank
  shut : later.Shut
  silent : earlier.state = .closed →
    ∃ events, later.events = earlier.events ++ events ∧
      ∀ event ∈ events, event ∉ lifecycleEvents

theorem Connection.Advances.closed {earlier later : Connection} (advances : earlier.Advances later)
    (closed : earlier.state = .closed) : later.state = .closed :=
  ConnectionState.eq_closed_of_rank (closed ▸ advances.forward)

theorem Connection.Advances.trans {earlier middle later : Connection}
    (first : earlier.Advances middle) (second : middle.Advances later) :
    earlier.Advances later := by
  refine ⟨first.forward.trans second.forward, second.shut, fun closed => ?_⟩
  obtain ⟨before, extended, quiet⟩ := first.silent closed
  obtain ⟨after, extended', quiet'⟩ := second.silent (first.closed closed)
  refine ⟨before ++ after, by rw [extended', extended, List.append_assoc], fun event member => ?_⟩
  rcases List.mem_append.mp member with member | member
  · exact quiet event member
  · exact quiet' event member

instance : IsTrans Connection Connection.Advances := ⟨fun _ _ _ => Connection.Advances.trans⟩

/-- A call that changes no state, no flag and logs at most a data event. -/
theorem Connection.Advances.unchanged {earlier later : Connection} (shut : earlier.Shut)
    (state : later.state = earlier.state) (canRead : later.canRead = earlier.canRead)
    (canWrite : later.canWrite = earlier.canWrite) {events : List Event}
    (logged : later.events = earlier.events ++ events)
    (quiet : ∀ event ∈ events, event ∉ lifecycleEvents) : earlier.Advances later := by
  refine ⟨le_of_eq (by rw [state]), ?_, fun _ => ⟨events, logged, quiet⟩⟩
  unfold Connection.Shut at shut ⊢
  rw [state, canRead, canWrite]
  exact shut

theorem Connection.Advances.refl {connection : Connection} (shut : connection.Shut) :
    connection.Advances connection :=
  .unchanged shut rfl rfl rfl (List.append_nil _).symm (by simp)

/-! ## The setter -/

/-- The setter never faults: no handler of a state's event touches a buffer. -/
theorem connectionState_eq (handlers : Handlers) (connection : Connection)
    (state : ConnectionState) :
    connectionState handlers connection state = .ok
      (if connection.state = state then connection
        else { enterState connection state with
          events := connection.events ++ (stateEvent state).toList }) := by
  unfold connectionState
  split
  · rfl
  · cases state <;> simp [stateEvent, connectionEventHandle, enterState, pure, Except.pure]

theorem connectionState_ok (handlers : Handlers) (connection : Connection)
    (state : ConnectionState) : ∃ after, connectionState handlers connection state = .ok after :=
  ⟨_, connectionState_eq handlers connection state⟩

theorem connectionHandleError_ok (handlers : Handlers) (connection : Connection)
    (error : ConnectionError) :
    ∃ after, connectionHandleError handlers connection error = .ok after :=
  connectionState_ok handlers _ .closed

theorem enterState_shut (connection : Connection) (state : ConnectionState) (events : List Event) :
    Connection.Shut { enterState connection state with events } := by
  cases state <;> simp [Connection.Shut, enterState]

@[simp] theorem enterState_state (connection : Connection) (state : ConnectionState) :
    (enterState connection state).state = state := by
  cases state <;> rfl

theorem connectionHandleError_closed {handlers : Handlers} {connection after : Connection}
    {error : ConnectionError}
    (result : connectionHandleError handlers connection error = .ok after) :
    after.state = .closed := by
  simp only [connectionHandleError, connectionClose, if_true, connectionState_eq,
    Except.ok.injEq] at result
  subst result
  split
  · assumption
  · simp

theorem connectionState_advances {handlers : Handlers} {connection after : Connection}
    {state : ConnectionState} (shut : connection.Shut)
    (forward : connection.state.rank ≤ state.rank)
    (result : connectionState handlers connection state = .ok after) :
    connection.Advances after := by
  rw [connectionState_eq, Except.ok.injEq] at result
  subst result
  split
  · exact .refl shut
  · next moves =>
      refine ⟨by simpa using forward, enterState_shut _ _ _, fun closed => ?_⟩
      exact absurd (closed.trans (ConnectionState.eq_closed_of_rank (closed ▸ forward)).symm) moves

theorem connectionState_retreats (handlers : Handlers) (connection : Connection)
    {state : ConnectionState} (backwards : state.rank < connection.state.rank) :
    ∃ after, connectionState handlers connection state = .ok after ∧
      after.state.rank < connection.state.rank := by
  have moves : connection.state ≠ state := by
    intro equal
    subst equal
    exact lt_irrefl _ backwards
  refine ⟨_, connectionState_eq handlers connection state, ?_⟩
  rw [if_neg moves]
  simpa using backwards

theorem connectionHandleError_advances {handlers : Handlers} {connection after : Connection}
    {error : ConnectionError} (shut : connection.Shut)
    (result : connectionHandleError handlers connection error = .ok after) :
    connection.Advances after := by
  have erroneous : connection.Advances
      { connection with closedForError := decide (error ≠ .disconnected) } :=
    .unchanged shut rfl rfl rfl (List.append_nil _).symm (by simp)
  exact erroneous.trans
    (connectionState_advances erroneous.shut (ConnectionState.rank_le_closed _) result)

/-! ## The calls -/

theorem connectionEventHandle_advances {handlers : Handlers} {connection after : Connection}
    {event : Event} (shut : connection.Shut) (data : event ∉ lifecycleEvents)
    (result : connectionEventHandle handlers connection event = .ok after) :
    connection.Advances after := by
  have quiet : ∀ logged ∈ [event], logged ∉ lifecycleEvents := by simpa using data
  cases event with
  | inboundData =>
      obtain ⟨buffer, _, result⟩ := Access.bind_ok result
      cases result
      exact .unchanged shut rfl rfl rfl rfl quiet
  | write =>
      obtain ⟨buffer, _, result⟩ := Access.bind_ok result
      cases result
      exact .unchanged shut rfl rfl rfl rfl quiet
  | init | connecting | connected | read | outboundData | pendingClose | close | free =>
      cases result
      exact .unchanged shut rfl rfl rfl rfl quiet

theorem Connection.Advances.refilled {connection : Connection} (shut : connection.Shut)
    (buffer : Buffer) : connection.Advances { connection with readBuffer := buffer } :=
  .unchanged shut rfl rfl rfl (List.append_nil _).symm (by simp)

theorem connectionReceive_advances {handlers : Handlers} {connection after : Connection}
    {recv : RecvOutcome} {nbRead : Option Nat} (shut : connection.Shut)
    (result : connectionReceive handlers connection recv = .ok (nbRead, after)) :
    connection.Advances after := by
  cases recv with
  | error =>
      simp only [connectionReceive] at result
      split at result <;>
      · obtain ⟨failed, error, result⟩ := Access.bind_ok result
        cases result
        exact connectionHandleError_advances shut error
  | bytes bytes =>
      simp only [connectionReceive] at result
      split at result
      · obtain ⟨failed, error, result⟩ := Access.bind_ok result
        cases result
        exact connectionHandleError_advances shut error
      obtain ⟨data, _, result⟩ := Access.bind_ok result
      have read := Connection.Advances.refilled shut { connection.readBuffer with data }
      split at result
      · split at result
        · obtain ⟨closed, close, result⟩ := Access.bind_ok result
          cases result
          exact read.trans
            (connectionState_advances read.shut (ConnectionState.rank_le_closed _) close)
        · obtain ⟨closed, error, result⟩ := Access.bind_ok result
          cases result
          exact read.trans (connectionHandleError_advances read.shut error)
      · cases result
        exact read

theorem connectionAdmit_advances {connection after : Connection} {nbRead : Nat} {admitted : Bool}
    (shut : connection.Shut) (result : connectionAdmit connection nbRead = .ok (admitted, after)) :
    connection.Advances after := by
  simp only [connectionAdmit] at result
  split at result
  · obtain ⟨buffer, _, result⟩ := Access.bind_ok result
    cases result
    exact .refilled shut buffer
  · cases result
    exact .refilled shut _

theorem connectionRead_advances {handlers : Handlers} {connection after : Connection}
    {recv : RecvOutcome} (shut : connection.Shut)
    (result : connectionRead handlers connection recv = .ok after) : connection.Advances after := by
  obtain ⟨⟨nbRead, received⟩, receive, result⟩ := Access.bind_ok result
  have advances := connectionReceive_advances shut receive
  cases nbRead with
  | none =>
      cases result
      exact advances
  | some nbRead =>
      obtain ⟨⟨admitted, admission⟩, readTest, result⟩ := Access.bind_ok result
      have admits := advances.trans (connectionAdmit_advances advances.shut readTest)
      cases admitted with
      | true =>
          have dispatch : connectionEventHandle handlers admission .inboundData = .ok after := result
          exact admits.trans (connectionEventHandle_advances admits.shut (by decide) dispatch)
      | false =>
          cases result
          exact admits

theorem connectionFill_advances {handlers : Handlers} {connection after : Connection}
    (shut : connection.Shut) (result : connectionFill handlers connection = .ok after) :
    connection.Advances after := by
  unfold connectionFill at result
  split at result
  · obtain ⟨buffer, _, result⟩ := Access.bind_ok result
    obtain ⟨written, dispatch, result⟩ := Access.bind_ok result
    cases result
    have reset : connection.Advances { connection with writeBuffer := buffer } :=
      .unchanged shut rfl rfl rfl (List.append_nil _).symm (by simp)
    have dispatched := reset.trans
      (connectionEventHandle_advances reset.shut (by decide) dispatch)
    exact dispatched.trans
      (.unchanged dispatched.shut rfl rfl rfl (List.append_nil _).symm (by simp))
  · cases result
    exact .refl shut

theorem connectionSend_advances {handlers : Handlers} {connection after : Connection}
    {memorized : Bool} {send : SendOutcome} {sent : Bool × List UInt8 × Bool}
    (shut : connection.Shut)
    (result : connectionSend handlers connection memorized send = .ok (sent, after)) :
    connection.Advances after := by
  cases send with
  | error =>
      simp only [connectionSend] at result
      split at result <;>
      · obtain ⟨failed, error, result⟩ := Access.bind_ok result
        cases result
        exact connectionHandleError_advances shut error
  | count count =>
      simp only [connectionSend] at result
      split at result
      · obtain ⟨failed, error, result⟩ := Access.bind_ok result
        cases result
        exact connectionHandleError_advances shut error
      obtain ⟨bytes, _, result⟩ := Access.bind_ok result
      split at result <;> cases result <;>
        exact .unchanged shut rfl rfl rfl (List.append_nil _).symm (by simp)

theorem connectionWrite_advances {handlers : Handlers} {connection after : Connection}
    {send : SendOutcome} {sent : Bool × List UInt8 × Bool} (shut : connection.Shut)
    (result : connectionWrite handlers connection send = .ok (sent, after)) :
    connection.Advances after := by
  unfold connectionWrite at result
  split at result
  · obtain ⟨failed, error, result⟩ := Access.bind_ok result
    cases result
    exact connectionHandleError_advances shut error
  · obtain ⟨filled, fill, result⟩ := Access.bind_ok result
    have advances := connectionFill_advances shut fill
    exact advances.trans (connectionSend_advances advances.shut result)

theorem connectionInit_advances {handlers : Handlers} {connection after : Connection}
    {outcome : InitOutcome} (shut : connection.Shut)
    (early : (∃ socket, outcome = .opened socket) →
      connection.state.rank ≤ ConnectionState.initialized.rank)
    (result : connectionInit handlers connection outcome = .ok after) :
    connection.Advances after := by
  have opened (socket : Int) : connection.Advances { connection with socket } :=
    .unchanged shut rfl rfl rfl (List.append_nil _).symm (by simp)
  cases outcome with
  | socketError => exact (opened _).trans (connectionHandleError_advances (opened _).shut result)
  | fcntlError socket =>
      exact (opened socket).trans (connectionHandleError_advances (opened socket).shut result)
  | opened socket =>
      exact (opened socket).trans
        (connectionState_advances (opened socket).shut (early ⟨socket, rfl⟩) result)

theorem connectionConnect_advances {handlers : Handlers} {connection after : Connection}
    {outcome : ConnectOutcome} (shut : connection.Shut)
    (result : connectionConnect handlers connection outcome = .ok after) :
    connection.Advances after := by
  unfold connectionConnect at result
  split at result
  · exact connectionHandleError_advances shut result
  next ready =>
    have initialized : connection.state = .initialized := not_not.mp ready
    cases outcome with
    | error => exact connectionHandleError_advances shut result
    | inProgress => exact connectionState_advances shut (by rw [initialized]; decide) result
    | connected => exact connectionState_advances shut (by rw [initialized]; decide) result

theorem connectionFinishConnect_advances {handlers : Handlers} {connection after : Connection}
    {outcome : FinishConnectOutcome} (shut : connection.Shut)
    (result : connectionFinishConnect handlers connection outcome = .ok after) :
    connection.Advances after := by
  cases outcome with
  | pollError | getsockoptError | soError => exact connectionHandleError_advances shut result
  | notReady | connected =>
      cases result
      exact .refl shut

/-! ## What the caller makes up for -/

/-- The owner completes the set of those that manage the connection. -/
def Connection.CompletedBy (connection : Connection) (owner : ConnectionOwner) : Prop :=
  (connectionManage connection owner).1 = true

instance (connection : Connection) (owner : ConnectionOwner) :
    Decidable (connection.CompletedBy owner) :=
  inferInstanceAs (Decidable (_ = true))

/-- The three calls that set a state whatever the current one is need a caller
that looks at it: a socket is opened at the latest in INITIALIZED, the last
owner arrives at the latest in CONNECTED, and a closed connection is not asked
to close again without force. -/
def ConnectionCall.InOrder (connection : Connection) : ConnectionCall → Prop
  | .init (.opened _) => connection.state.rank ≤ ConnectionState.initialized.rank
  | .managedBy owner =>
      connection.CompletedBy owner → connection.state.rank ≤ ConnectionState.connected.rank
  | .close false => connection.state ≠ .closed
  | _ => True

theorem connectionCall_advances {handlers : Handlers} {connection after : Connection}
    {call : ConnectionCall} (shut : connection.Shut) (inOrder : call.InOrder connection)
    (result : connectionCall handlers connection call = .ok after) :
    connection.Advances after := by
  cases call with
  | init outcome =>
      refine connectionInit_advances shut ?_ result
      intro opened
      obtain ⟨socket, rfl⟩ := opened
      exact inOrder
  | connect outcome => exact connectionConnect_advances shut result
  | finishConnect outcome => exact connectionFinishConnect_advances shut result
  | managedBy owner =>
      have managed : connection.Advances (connectionManage connection owner).2 :=
        .unchanged shut rfl rfl rfl (List.append_nil _).symm (by simp)
      simp only [connectionCall, connectionManagedBy] at result
      split at result
      · next completed =>
          exact managed.trans (connectionState_advances managed.shut (inOrder completed) result)
      · cases result
        exact managed
  | read recv => exact connectionRead_advances shut result
  | write send =>
      cases written : connectionWrite handlers connection send with
      | error fault => simp [connectionCall, written, Except.map] at result
      | ok outcome =>
          simp only [connectionCall, written, Except.map, Except.ok.injEq] at result
          subst result
          exact connectionWrite_advances shut written
  | close force =>
      cases force with
      | true => exact connectionState_advances shut (ConnectionState.rank_le_closed _) result
      | false =>
          refine connectionState_advances shut ?_ result
          have open' : connection.state ≠ .closed := inOrder
          cases state : connection.state with
          | closed => exact absurd state open'
          | none | initialized | connecting | connected | pendingClose => decide

/-- A call out of order goes through and moves the state backwards. -/
theorem connectionCall_retreats (handlers : Handlers) {connection : Connection}
    {call : ConnectionCall} (outOfOrder : ¬ call.InOrder connection) :
    ∃ after, connectionCall handlers connection call = .ok after ∧
      after.state.rank < connection.state.rank := by
  cases call with
  | init outcome =>
      cases outcome with
      | socketError | fcntlError => exact absurd trivial outOfOrder
      | opened socket =>
          exact connectionState_retreats handlers { connection with socket }
            (not_le.mp outOfOrder)
  | connect | finishConnect | read | write => exact absurd trivial outOfOrder
  | managedBy owner =>
      obtain ⟨completed, late⟩ := Classical.not_imp.mp outOfOrder
      obtain ⟨after, result, backwards⟩ := connectionState_retreats handlers
        (connectionManage connection owner).2 (not_le.mp late)
      refine ⟨after, ?_, backwards⟩
      simp only [connectionCall, connectionManagedBy]
      unfold Connection.CompletedBy at completed
      rw [if_pos completed]
      exact result
  | close force =>
      cases force with
      | true => exact absurd trivial outOfOrder
      | false =>
          have closed : connection.state = .closed := not_not.mp outOfOrder
          exact connectionState_retreats handlers connection (by rw [closed]; decide)

/-! ## Whole sequences -/

/-- The connection at the start of a sequence and after each of its calls. -/
def connectionTrace (handlers : Handlers) : Connection → List ConnectionCall → List Connection
  | connection, [] => [connection]
  | connection, call :: calls =>
      connection ::
        match connectionCall handlers connection call with
        | .error _ => []
        | .ok after => connectionTrace handlers after calls

/-- Every call of the sequence is in order in the state it finds. -/
def CallsInOrder (handlers : Handlers) : Connection → List ConnectionCall → Prop
  | _, [] => True
  | connection, call :: calls =>
      call.InOrder connection ∧
        ∀ after, connectionCall handlers connection call = .ok after →
          CallsInOrder handlers after calls

theorem connectionTrace_head (handlers : Handlers) (connection : Connection)
    (calls : List ConnectionCall) :
    ∃ later, connectionTrace handlers connection calls = connection :: later := by
  cases calls with
  | nil => exact ⟨[], rfl⟩
  | cons call calls => exact ⟨_, rfl⟩

theorem connectionTrace_advances_iff (handlers : Handlers) {connection : Connection}
    (shut : connection.Shut) (calls : List ConnectionCall) :
    (connectionTrace handlers connection calls).IsChain Connection.Advances ↔
      CallsInOrder handlers connection calls := by
  induction calls generalizing connection with
  | nil => simp [connectionTrace, CallsInOrder]
  | cons call calls ih =>
      cases result : connectionCall handlers connection call with
      | error fault =>
          have inOrder : call.InOrder connection := by
            by_contra outOfOrder
            obtain ⟨after, result', _⟩ := connectionCall_retreats handlers outOfOrder
            cases result.symm.trans result'
          simp [connectionTrace, CallsInOrder, result, inOrder]
      | ok after =>
          obtain ⟨later, trace⟩ := connectionTrace_head handlers after calls
          simp only [connectionTrace, CallsInOrder, result, Except.ok.injEq, forall_eq']
          rw [trace, List.isChain_cons_cons, ← trace]
          constructor
          · intro all
            obtain ⟨advances, chain⟩ := all
            refine ⟨?_, (ih advances.shut).mp chain⟩
            by_contra outOfOrder
            obtain ⟨reached, result', backwards⟩ := connectionCall_retreats handlers outOfOrder
            cases result.symm.trans result'
            exact absurd advances.forward (not_le.mpr backwards)
          · intro all
            obtain ⟨inOrder, rest⟩ := all
            have advances := connectionCall_advances shut inOrder result
            exact ⟨advances, (ih advances.shut).mpr rest⟩

/-- On a new connection the state never moves backwards, and a closed connection
stays closed, shut and silent, exactly when every call is in order. -/
theorem newConnection_advances_iff (handlers : Handlers) (readBuffer writeBuffer : Buffer)
    (calls : List ConnectionCall) :
    (connectionTrace handlers (newConnection readBuffer writeBuffer) calls).Pairwise
        Connection.Advances ↔
      CallsInOrder handlers (newConnection readBuffer writeBuffer) calls := by
  rw [← List.isChain_iff_pairwise]
  exact connectionTrace_advances_iff handlers (by simp [Connection.Shut, newConnection]) calls

/-- Closing again without force takes a closed connection back. -/
theorem newConnection_reopens :
    ¬ ∀ (handlers : Handlers) (readBuffer writeBuffer : Buffer) (calls : List ConnectionCall),
      (connectionTrace handlers (newConnection readBuffer writeBuffer) calls).Pairwise
        Connection.Advances := by
  intro always
  let handlers : Handlers := { inboundData := .ok, write := .ok }
  let buffer : Buffer := { size := 1, data := [0, 0, 0], position := 0, limit := 1 }
  have run := always handlers buffer buffer [.close true, .close false]
  simp only [connectionTrace, connectionCall, connectionClose, connectionState_eq, reduceIte,
    List.pairwise_cons] at run
  have backwards := (run.2.1 _ (List.mem_singleton.mpr rfl)).forward
  simp [newConnection, enterState, ConnectionState.rank] at backwards

end Aio4c
