import Aio4c.ConnectionLifecycle

/-! What a closed connection says about why it was closed. Items that are still
queued for it make the threads of its pipe read, write and close it again, and
every error of these calls rewrites `closedForError`. -/

set_option autoImplicit false

namespace Aio4c

open SignedInt

/-- The calls that the threads of the pipe make. -/
inductive StaleCall where
  | read (recv : RecvOutcome)
  | write (send : SendOutcome)
  | close (force : Bool)
  deriving DecidableEq, Repr

def StaleCall.call : StaleCall → ConnectionCall
  | .read recv => .read recv
  | .write send => .write send
  | .close force => .close force

/-- The buffer that `ConnectionWrite` hands to `send`: the WRITE handlers are asked
when nothing is left in it. -/
def refilled (handlers : Handlers) (buffer : Buffer) : Access Buffer := do
  if !bufferHasRemaining buffer then
    let buffer ← bufferReset buffer
    pure (bufferFlip (← handlers.write buffer))
  else pure buffer

/-- The error that a read runs into: a full buffer, an error of `recv`, or the end of
the stream on a connection that is not in PENDING_CLOSE. -/
def readError (connection : Connection) (recv : RecvOutcome) : Option ConnectionError :=
  if !bufferHasRemaining connection.readBuffer then some .bufferOverflow
  else
    match recv with
    | .error => some .read
    | .bytes bytes =>
        if bytes.take (sizeT (bufferRemaining connection.readBuffer)) = [] ∧
            connection.state ≠ .pendingClose then some .disconnected
        else none

/-- A write fails: it is not allowed, `send` fails, or the handlers leave a buffer
whose limit is in front of its position. -/
def WriteFails (handlers : Handlers) (connection : Connection) (send : SendOutcome) : Prop :=
  connection.canWrite = false ∨
    ∃ buffer, refilled handlers connection.writeBuffer = .ok buffer ∧
      (send = .error ∨ int32 (buffer.limit - buffer.position) < 0)

/-- The call does not run into an error of the other kind: the end of the stream says
that the peer disconnected, every other error that the connection failed. -/
def StaleCall.Agrees (handlers : Handlers) (verdict : Bool) (connection : Connection) :
    StaleCall → Prop
  | .read recv => ∀ error, readError connection recv = some error →
      verdict = decide (error ≠ .disconnected)
  | .write send => WriteFails handlers connection send → verdict = true
  | .close _ => True

/-! ## The flag after one call -/

variable {handlers : Handlers} {connection after : Connection}

theorem enterState_closedForError (connection : Connection) (state : ConnectionState) :
    (enterState connection state).closedForError = connection.closedForError := by
  cases state <;> rfl

theorem connectionState_closedForError {state : ConnectionState}
    (result : connectionState handlers connection state = .ok after) :
    after.closedForError = connection.closedForError := by
  rw [connectionState_eq, Except.ok.injEq] at result
  subst result
  split
  · rfl
  · exact enterState_closedForError connection state

theorem connectionHandleError_closedForError {error : ConnectionError}
    (result : connectionHandleError handlers connection error = .ok after) :
    after.closedForError = decide (error ≠ .disconnected) :=
  connectionState_closedForError result

theorem connectionEventHandle_closedForError {event : Event}
    (result : connectionEventHandle handlers connection event = .ok after) :
    after.closedForError = connection.closedForError := by
  cases event with
  | inboundData | write =>
      obtain ⟨buffer, _, result⟩ := Access.bind_ok result
      cases result
      rfl
  | init | connecting | connected | read | outboundData | pendingClose | close | free =>
      cases result
      rfl

theorem connectionAdmit_closedForError {nbRead : Nat} {admitted : Bool}
    (result : connectionAdmit connection nbRead = .ok (admitted, after)) :
    after.closedForError = connection.closedForError := by
  simp only [connectionAdmit] at result
  split at result
  · obtain ⟨buffer, _, result⟩ := Access.bind_ok result
    cases result
    rfl
  · cases result
    rfl

/-- A read sets the flag by its error and leaves it alone otherwise. -/
theorem connectionReceive_closedForError {recv : RecvOutcome} {nbRead : Option Nat}
    (result : connectionReceive handlers connection recv = .ok (nbRead, after)) :
    after.closedForError = ((readError connection recv).map fun error =>
      decide (error ≠ .disconnected)).getD connection.closedForError ∧
    (nbRead ≠ none → readError connection recv = none) := by
  cases full : bufferHasRemaining connection.readBuffer with
  | false =>
      simp only [connectionReceive, full, Bool.not_false, if_true] at result
      obtain ⟨failed, error, result⟩ := Access.bind_ok result
      cases result
      simp only [readError, full, Bool.not_false, if_true, Option.map_some, Option.getD_some]
      exact ⟨connectionHandleError_closedForError error, fun some => absurd rfl some⟩
  | true =>
      cases recv with
      | error =>
          simp only [connectionReceive, full, Bool.not_true, Bool.false_eq_true, if_false]
            at result
          obtain ⟨failed, error, result⟩ := Access.bind_ok result
          cases result
          simp only [readError, full, Bool.not_true, Bool.false_eq_true, if_false,
            Option.map_some, Option.getD_some]
          exact ⟨connectionHandleError_closedForError error, fun some => absurd rfl some⟩
      | bytes bytes =>
          simp only [connectionReceive, full, Bool.not_true, Bool.false_eq_true, if_false]
            at result
          obtain ⟨data, _, result⟩ := Access.bind_ok result
          simp only [readError, full, Bool.not_true, Bool.false_eq_true, if_false]
          by_cases ended : bytes.take (sizeT (bufferRemaining connection.readBuffer)) = []
          · rw [if_pos (by rw [ended]; rfl)] at result
            by_cases pending : connection.state = .pendingClose
            · rw [if_pos pending] at result
              obtain ⟨closed, close, result⟩ := Access.bind_ok result
              cases result
              have flag := connectionState_closedForError close
              rw [if_neg (fun both => both.2 pending)]
              exact ⟨flag, fun _ => rfl⟩
            · rw [if_neg pending] at result
              obtain ⟨failed, error, result⟩ := Access.bind_ok result
              cases result
              rw [if_pos ⟨ended, pending⟩]
              exact ⟨connectionHandleError_closedForError error, fun some => absurd rfl some⟩
          · rw [if_neg (by simpa using ended)] at result
            cases result
            rw [if_neg (fun both => ended both.1)]
            exact ⟨rfl, fun _ => rfl⟩

theorem connectionRead_closedForError {recv : RecvOutcome}
    (result : connectionRead handlers connection recv = .ok after) :
    after.closedForError = ((readError connection recv).map fun error =>
      decide (error ≠ .disconnected)).getD connection.closedForError := by
  obtain ⟨⟨nbRead, received⟩, receive, result⟩ := Access.bind_ok result
  obtain ⟨flag, _⟩ := connectionReceive_closedForError receive
  cases nbRead with
  | none =>
      cases result
      exact flag
  | some nbRead =>
      obtain ⟨⟨admitted, admission⟩, readTest, result⟩ := Access.bind_ok result
      have same := connectionAdmit_closedForError readTest
      cases admitted with
      | true =>
          have dispatch : connectionEventHandle handlers admission .inboundData = .ok after := result
          exact ((connectionEventHandle_closedForError dispatch).trans same).trans flag
      | false =>
          cases result
          exact same.trans flag

theorem connectionFill_closedForError
    (result : connectionFill handlers connection = .ok after) :
    after.closedForError = connection.closedForError ∧
      refilled handlers connection.writeBuffer = .ok after.writeBuffer := by
  unfold connectionFill at result
  unfold refilled
  split at result
  · next drained =>
      obtain ⟨buffer, reset, result⟩ := Access.bind_ok result
      obtain ⟨written, dispatch, result⟩ := Access.bind_ok result
      obtain ⟨filled, handled, dispatch⟩ := Access.bind_ok dispatch
      cases dispatch
      cases result
      rw [if_pos drained, reset]
      simp only [bind, Except.bind, pure, Except.pure] at handled ⊢
      rw [handled]
      exact ⟨trivial, rfl⟩
  · next left =>
      cases result
      rw [if_neg left]
      exact ⟨rfl, rfl⟩

theorem connectionSend_closedForError {memorized : Bool} {send : SendOutcome}
    {sent : Bool × List UInt8 × Bool}
    (result : connectionSend handlers connection memorized send = .ok (sent, after)) :
    after.closedForError = (if send = .error ∨
        int32 (connection.writeBuffer.limit - connection.writeBuffer.position) < 0 then true
      else connection.closedForError) := by
  by_cases underflow :
      int32 (connection.writeBuffer.limit - connection.writeBuffer.position) < 0
  · simp only [connectionSend, underflow, if_true] at result
    obtain ⟨failed, error, result⟩ := Access.bind_ok result
    cases result
    rw [if_pos (.inr underflow), connectionHandleError_closedForError error]
    rfl
  · cases send with
    | error =>
        simp only [connectionSend, underflow, if_false] at result
        obtain ⟨failed, error, result⟩ := Access.bind_ok result
        cases result
        rw [if_pos (.inl rfl), connectionHandleError_closedForError error]
        rfl
    | count count =>
        simp only [connectionSend, underflow, if_false] at result
        obtain ⟨bytes, _, result⟩ := Access.bind_ok result
        rw [if_neg (by simp [underflow])]
        split at result
        · cases result
          rfl
        · cases result
          rfl

theorem connectionWrite_closedForError {send : SendOutcome} {sent : Bool × List UInt8 × Bool}
    (result : connectionWrite handlers connection send = .ok (sent, after)) :
    (WriteFails handlers connection send → after.closedForError = true) ∧
      (¬ WriteFails handlers connection send →
        after.closedForError = connection.closedForError) := by
  cases allowed : connection.canWrite with
  | false =>
      simp only [connectionWrite, allowed, Bool.not_false, if_true] at result
      obtain ⟨failed, error, result⟩ := Access.bind_ok result
      cases result
      constructor
      · intro _
        exact connectionHandleError_closedForError error
      · intro succeeds
        exact absurd (.inl allowed) succeeds
  | true =>
      simp only [connectionWrite, allowed, Bool.not_true, Bool.false_eq_true, if_false] at result
      obtain ⟨filled, fill, result⟩ := Access.bind_ok result
      obtain ⟨same, buffer⟩ := connectionFill_closedForError fill
      have flag := connectionSend_closedForError result
      constructor
      · intro fails
        rcases fails with refused | ⟨found, refill, fails⟩
        · rw [allowed] at refused
          cases refused
        · cases buffer.symm.trans refill
          rw [flag, if_pos fails]
      · intro succeeds
        rw [flag, if_neg (fun fails => succeeds (.inr ⟨_, buffer, fails⟩)), same]

theorem staleCall_closedForError_iff {call : StaleCall}
    (result : connectionCall handlers connection call.call = .ok after) :
    after.closedForError = connection.closedForError ↔
      call.Agrees handlers connection.closedForError connection := by
  cases call with
  | read recv =>
      have flag := connectionRead_closedForError result
      cases fails : readError connection recv with
      | none => simpa [StaleCall.Agrees, fails] using flag
      | some error =>
          rw [fails] at flag
          simp only [StaleCall.Agrees, fails, Option.some.injEq, forall_eq']
          rw [flag]
          exact eq_comm
  | write send =>
      cases written : connectionWrite handlers connection send with
      | error fault => simp [StaleCall.call, connectionCall, written, Except.map] at result
      | ok outcome =>
          simp only [StaleCall.call, connectionCall, written, Except.map, Except.ok.injEq]
            at result
          subst result
          obtain ⟨failed, kept⟩ := connectionWrite_closedForError written
          by_cases fails : WriteFails handlers connection send
          · simp only [StaleCall.Agrees, fails, true_imp_iff, failed fails]
            exact eq_comm
          · simp only [StaleCall.Agrees, fails, false_imp_iff, kept fails]
  | close force =>
      have same : after.closedForError = connection.closedForError := by
        cases force with
        | true => exact connectionState_closedForError result
        | false => exact connectionState_closedForError result
      simp only [StaleCall.Agrees, same]

theorem connectionRead_ok {recv : RecvOutcome} {error : ConnectionError}
    (fails : readError connection recv = some error) :
    ∃ after, connectionRead handlers connection recv = .ok after := by
  cases full : bufferHasRemaining connection.readBuffer with
  | false =>
      obtain ⟨failed, result⟩ := connectionHandleError_ok handlers connection .bufferOverflow
      refine ⟨failed, ?_⟩
      simp [connectionRead, connectionReceive, full, result, bind, Except.bind, pure, Except.pure]
  | true =>
      cases recv with
      | error =>
          obtain ⟨failed, result⟩ := connectionHandleError_ok handlers connection .read
          refine ⟨failed, ?_⟩
          simp [connectionRead, connectionReceive, full, result, bind, Except.bind, pure,
            Except.pure]
      | bytes bytes =>
          simp only [readError, full, Bool.not_true, Bool.false_eq_true, if_false,
            Option.ite_none_right_eq_some] at fails
          obtain ⟨⟨ended, open'⟩, _⟩ := fails
          obtain ⟨failed, result⟩ := connectionHandleError_ok handlers
            { connection with readBuffer := { connection.readBuffer with
              data := connection.readBuffer.data } } .disconnected
          refine ⟨failed, ?_⟩
          simp [connectionRead, connectionReceive, full, ended, open', writeBytes, result, bind,
            Except.bind, pure, Except.pure]

theorem connectionFill_ok {buffer : Buffer}
    (refill : refilled handlers connection.writeBuffer = .ok buffer) :
    ∃ filled, connectionFill handlers connection = .ok filled ∧ filled.writeBuffer = buffer := by
  unfold refilled at refill
  unfold connectionFill
  split at refill
  · next drained =>
      obtain ⟨emptied, reset, refill⟩ := Access.bind_ok refill
      obtain ⟨written, handled, refill⟩ := Access.bind_ok refill
      cases refill
      rw [if_pos drained, reset]
      simp only [connectionEventHandle, bind, Except.bind, pure, Except.pure, handled]
      exact ⟨_, rfl, rfl⟩
  · next left =>
      cases refill
      rw [if_neg left]
      exact ⟨connection, rfl, rfl⟩

theorem connectionWrite_ok {send : SendOutcome} (fails : WriteFails handlers connection send) :
    ∃ sent after, connectionWrite handlers connection send = .ok (sent, after) := by
  cases allowed : connection.canWrite with
  | false =>
      obtain ⟨failed, result⟩ := connectionHandleError_ok handlers connection .connectionState
      refine ⟨(false, [], false), failed, ?_⟩
      simp [connectionWrite, allowed, result, bind, Except.bind, pure, Except.pure]
  | true =>
      rcases fails with refused | ⟨buffer, refill, fails⟩
      · rw [allowed] at refused
        cases refused
      obtain ⟨filled, fill, same⟩ := connectionFill_ok refill
      subst same
      by_cases underflow : int32 (filled.writeBuffer.limit - filled.writeBuffer.position) < 0
      · obtain ⟨failed, result⟩ := connectionHandleError_ok handlers filled .bufferUnderflow
        refine ⟨(false, [], false), failed, ?_⟩
        simp [connectionWrite, allowed, fill, connectionSend, underflow, result, bind,
          Except.bind, pure, Except.pure]
      · obtain ⟨failed, result⟩ := connectionHandleError_ok handlers filled .write
        have broken : send = .error := fails.resolve_right underflow
        subst broken
        refine ⟨(false, [], false), failed, ?_⟩
        simp [connectionWrite, allowed, fill, connectionSend, underflow, result, bind,
          Except.bind, pure, Except.pure]

theorem staleCall_ok {call : StaleCall} {verdict : Bool}
    (disagrees : ¬ call.Agrees handlers verdict connection) :
    ∃ after, connectionCall handlers connection call.call = .ok after := by
  cases call with
  | read recv =>
      cases fails : readError connection recv with
      | none => simp [StaleCall.Agrees, fails] at disagrees
      | some error => exact connectionRead_ok fails
  | write send =>
      have fails : WriteFails handlers connection send := by
        by_contra succeeds
        exact disagrees (fun fails => absurd fails succeeds)
      obtain ⟨sent, after, result⟩ := connectionWrite_ok fails
      exact ⟨after, by simp only [StaleCall.call, connectionCall, result, Except.map]⟩
  | close force => exact absurd trivial disagrees

/-! ## Whole sequences -/

/-- Every call of the sequence agrees with the verdict in the state it finds. -/
def CallsAgree (handlers : Handlers) (verdict : Bool) : Connection → List StaleCall → Prop
  | _, [] => True
  | connection, call :: calls =>
      call.Agrees handlers verdict connection ∧
        ∀ after, connectionCall handlers connection call.call = .ok after →
          CallsAgree handlers verdict after calls

theorem connectionTrace_verdict_iff (handlers : Handlers) (connection : Connection)
    (calls : List StaleCall) :
    (∀ later ∈ connectionTrace handlers connection (calls.map StaleCall.call),
        later.closedForError = connection.closedForError) ↔
      CallsAgree handlers connection.closedForError connection calls := by
  induction calls generalizing connection with
  | nil => simp [connectionTrace, CallsAgree]
  | cons call calls ih =>
      simp only [List.map_cons, connectionTrace, CallsAgree, List.forall_mem_cons, true_and]
      cases result : connectionCall handlers connection call.call with
      | error fault =>
          have agrees : call.Agrees handlers connection.closedForError connection := by
            by_contra disagrees
            obtain ⟨after, result'⟩ := staleCall_ok disagrees
            cases result.symm.trans result'
          simp [agrees]
      | ok after =>
          have agrees := staleCall_closedForError_iff result
          simp only [Except.ok.injEq, forall_eq']
          constructor
          · intro kept
            obtain ⟨later, trace⟩ := connectionTrace_head handlers after
              (calls.map StaleCall.call)
            have same := kept after (by rw [trace]; exact List.mem_cons_self)
            have rest := ih after
            rw [same] at rest
            exact ⟨agrees.mp same, rest.mp kept⟩
          · intro both
            obtain ⟨agreed, rest⟩ := both
            have same := agrees.mpr agreed
            have rest' := ih after
            rw [same] at rest'
            exact rest'.mpr rest

/-- Behind the entry into CLOSED `closedForError` keeps its value along a sequence of
reads, writes and closes exactly when every call agrees with it. -/
theorem connectionState_closed_verdict_iff {handlers : Handlers} {before closed : Connection}
    (entered : connectionState handlers before .closed = .ok closed) (calls : List StaleCall) :
    (∀ later ∈ connectionTrace handlers closed (calls.map StaleCall.call),
        later.closedForError = before.closedForError) ↔
      CallsAgree handlers before.closedForError closed calls := by
  rw [← connectionState_closedForError entered]
  exact connectionTrace_verdict_iff handlers closed calls

/-- A connected connection with buffers of one byte, and handlers that do nothing. -/
def idleHandlers : Handlers := { inboundData := .ok, write := .ok }

def idleConnection : Connection :=
  let buffer : Buffer := { size := 1, data := [0, 0, 0], position := 0, limit := 1 }
  enterState (newConnection buffer buffer) .connected

/-- The connection after the peer disconnected. -/
def disconnectedConnection : Connection :=
  { enterState idleConnection .closed with events := [.close] }

/-- On a connection whose peer disconnected, a write interest that is still queued. -/
theorem connectionState_closed_verdict_stale :
    (∀ later ∈ connectionTrace idleHandlers disconnectedConnection
        ([.write (.count 0)].map StaleCall.call),
        later.closedForError = idleConnection.closedForError) ↔
      CallsAgree idleHandlers idleConnection.closedForError disconnectedConnection
        [.write (.count 0)] :=
  connectionState_closed_verdict_iff
    (show connectionState idleHandlers idleConnection .closed = .ok disconnectedConnection by rfl) _

/-- The queued write interest turns the verdict of the disconnection into an error. -/
theorem connectionState_closed_verdict_changes :
    ¬ ∀ (handlers : Handlers) (before closed : Connection),
      connectionState handlers before .closed = .ok closed → ∀ calls : List StaleCall,
        ∀ later ∈ connectionTrace handlers closed (calls.map StaleCall.call),
          later.closedForError = before.closedForError := by
  intro final
  have kept := final idleHandlers idleConnection disconnectedConnection rfl [.write (.count 0)]
  have flags : (connectionTrace idleHandlers disconnectedConnection
      ([.write (.count 0)].map StaleCall.call)).map Connection.closedForError =
        [false, true] := by rfl
  have changed : true ∈ (connectionTrace idleHandlers disconnectedConnection
      ([.write (.count 0)].map StaleCall.call)).map Connection.closedForError := by
    rw [flags]
    simp
  obtain ⟨later, member, flag⟩ := List.mem_map.mp changed
  have same := kept later member
  rw [flag] at same
  cases same

end Aio4c
