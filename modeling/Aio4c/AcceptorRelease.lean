import Aio4c.AcceptorStartUp

/-! What an acceptor takes and gives back from `_AcceptorInit` to `_AcceptorExit`: the
readers in its table and the listening descriptor. -/

set_option autoImplicit false

namespace Aio4c

/-- The calls that take or give back, and the uses of the table of readers. -/
inductive AcceptorCall where
  | storeReader (slot : Nat) (reader : Option Nat)
  | loadReader (slot : Nat)
  | readerEnd (reader : Nat)
  | socket (descriptor : Int)
  | bind (descriptor : Int)
  | listen (descriptor : Int)
  | close (descriptor : Int)
  deriving DecidableEq, Repr

/-- `readers[i] = NewReader(...)` for the pipes from `i`, up to the first NULL. -/
def startReadersCalls (newReader : Nat → Option Nat) : Nat → Nat → List AcceptorCall
  | 0, _ => []
  | left + 1, i =>
      .storeReader i (newReader i) ::
        if (newReader i).isSome then startReadersCalls newReader left (i + 1) else []

/-- The calls of `_AcceptorInit` behind its loop; a call that fails leaves no trace. -/
def acceptorSocketCalls (outcomes : AcceptorOutcomes) : List AcceptorCall :=
  match outcomes.socket with
  | none => []
  | some socket =>
      .socket socket ::
        if !outcomes.fcntl then [.close socket]
        else if !outcomes.setsockopt then [.close socket]
        else if !outcomes.bind then [.close socket]
        else
          .bind socket :: if !outcomes.listen then [.close socket] else [.listen socket]

/-- The calls of `_AcceptorInit`. -/
def acceptorInitCalls (outcomes : AcceptorOutcomes) (nbReaders : Nat) : List AcceptorCall :=
  startReadersCalls outcomes.newReader nbReaders 0 ++ acceptorSocketCalls outcomes

/-- `if (acceptor->readers[i] != NULL) ReaderEnd(acceptor->readers[i])`. -/
def endReaderCalls (readers : Nat → Option Nat) (i : Nat) : List AcceptorCall :=
  .loadReader i ::
    match readers i with
    | none => []
    | some reader => [.readerEnd reader]

/-- The calls of `_AcceptorExit`. -/
def acceptorExitCalls (acceptor : Acceptor) : List AcceptorCall :=
  (if acceptor.socket = -1 then [] else [.close acceptor.socket]) ++
    (List.range acceptor.nbReaders).flatMap (endReaderCalls acceptor.readers)

/-- `_AcceptorInit` and then the exit callback: the acceptor left and all calls made. -/
def acceptorLife (outcomes : AcceptorOutcomes) (acceptor : Acceptor) :
    Option (Acceptor × List AcceptorCall) := do
  let started ← acceptorInit outcomes acceptor
  let exited ← acceptorExit started.2
  pure (exited, acceptorInitCalls outcomes acceptor.nbReaders ++ acceptorExitCalls started.2)

/-- What a call makes of the kernel's sockets. -/
def AcceptorCall.onSockets (sockets : Int → SocketState) : AcceptorCall → Int → SocketState
  | .socket descriptor => Function.update sockets descriptor .opened
  | .bind descriptor => Function.update sockets descriptor .bound
  | .listen descriptor => Function.update sockets descriptor .listening
  | .close descriptor => Function.update sockets descriptor .closed
  | .storeReader _ _ | .loadReader _ | .readerEnd _ => sockets

def AcceptorCall.created : AcceptorCall → Option Nat
  | .storeReader _ reader => reader
  | _ => none

def AcceptorCall.ended : AcceptorCall → Option Nat
  | .readerEnd reader => some reader
  | _ => none

def AcceptorCall.opened : AcceptorCall → Option Int
  | .socket descriptor => some descriptor
  | _ => none

def AcceptorCall.closed : AcceptorCall → Option Int
  | .close descriptor => some descriptor
  | _ => none

/-- The readers ended are those created, the slots used are theirs, and the descriptors closed
are those opened: each of them once. -/
structure ReleasedOnce (nbPipes : Nat) (calls : List AcceptorCall) : Prop where
  readers : calls.filterMap AcceptorCall.ended = calls.filterMap AcceptorCall.created
  stores : ∀ slot reader, .storeReader slot reader ∈ calls → slot < nbPipes
  loads : ∀ slot, .loadReader slot ∈ calls ↔ ∃ reader, .storeReader slot (some reader) ∈ calls
  descriptors : calls.filterMap AcceptorCall.closed = calls.filterMap AcceptorCall.opened

/-! ## The table of readers -/

section Readers

variable (newReader : Nat → Option Nat)

theorem startReaders_le (left i : Nat) (readers : Nat → Option Nat) :
    i ≤ (startReaders newReader left i readers).1 ∧
      (startReaders newReader left i readers).1 ≤ i + left := by
  induction left generalizing i readers with
  | zero => exact ⟨Nat.le_refl _, Nat.le_refl _⟩
  | succ left ih =>
      have rest := ih (i + 1) (Function.update readers i (newReader i))
      simp only [startReaders]
      split <;> constructor <;> omega

/-- The slots in front of the count hold the readers that were created for them. -/
theorem startReaders_slots (left i : Nat) (readers : Nat → Option Nat)
    (before : ∀ slot < i, readers slot = newReader slot ∧ (newReader slot).isSome) :
    ∀ slot < (startReaders newReader left i readers).1,
      (startReaders newReader left i readers).2 slot = newReader slot ∧
        (newReader slot).isSome := by
  induction left generalizing i readers with
  | zero => exact before
  | succ left ih =>
      have kept : ∀ slot < i, Function.update readers i (newReader i) slot = newReader slot ∧
          (newReader slot).isSome := by
        intro slot below
        rw [Function.update_of_ne (Nat.ne_of_lt below)]
        exact before slot below
      simp only [startReaders]
      split
      · next created =>
          refine ih (i + 1) _ fun slot below => ?_
          rcases Nat.lt_succ_iff_lt_or_eq.mp below with inner | rfl
          · exact kept slot inner
          · exact ⟨Function.update_self _ _ _, created⟩
      · exact kept

/-- The readers created are those of the slots in front of the count. -/
theorem startReadersCalls_created (left i : Nat) (readers : Nat → Option Nat) :
    (startReadersCalls newReader left i).filterMap AcceptorCall.created =
      (List.range' i ((startReaders newReader left i readers).1 - i)).filterMap newReader := by
  induction left generalizing i readers with
  | zero => simp [startReadersCalls, startReaders]
  | succ left ih =>
      have bound := (startReaders_le newReader left (i + 1)
        (Function.update readers i (newReader i))).1
      cases created : newReader i with
      | none =>
          have stops : (startReaders newReader (left + 1) i readers).1 = i := by
            simp [startReaders, created]
          simp [startReadersCalls, created, AcceptorCall.created, stops]
      | some reader =>
          have goes : (startReaders newReader (left + 1) i readers).1 =
              (startReaders newReader left (i + 1)
                (Function.update readers i (newReader i))).1 := by
            simp [startReaders, created]
          obtain ⟨count, total⟩ := Nat.exists_eq_add_of_le bound
          have rest := ih (i + 1) (Function.update readers i (newReader i))
          rw [total, Nat.add_sub_cancel_left] at rest
          have length : i + 1 + count - i = count + 1 := by omega
          rw [goes, total, length, List.range'_succ]
          simp [startReadersCalls, created, AcceptorCall.created, rest]

theorem storeReader_mem (left i : Nat) (readers : Nat → Option Nat) (slot reader : Nat) :
    .storeReader slot (some reader) ∈ startReadersCalls newReader left i ↔
      i ≤ slot ∧ slot < (startReaders newReader left i readers).1 ∧
        newReader slot = some reader := by
  induction left generalizing i readers with
  | zero =>
      simp only [startReadersCalls, startReaders, List.not_mem_nil, false_iff]
      omega
  | succ left ih =>
      have bound := (startReaders_le newReader left (i + 1)
        (Function.update readers i (newReader i))).1
      simp only [startReadersCalls, startReaders, List.mem_cons, AcceptorCall.storeReader.injEq]
      split
      · rw [ih (i + 1) (Function.update readers i (newReader i))]
        constructor
        · intro stored
          rcases stored with ⟨rfl, created⟩ | ⟨above, below, created⟩
          · exact ⟨Nat.le_refl _, by omega, created.symm⟩
          · exact ⟨by omega, below, created⟩
        · intro ⟨above, below, created⟩
          rcases Nat.eq_or_lt_of_le above with rfl | later
          · exact .inl ⟨rfl, created.symm⟩
          · exact .inr ⟨later, below, created⟩
      · next failed =>
          simp only [List.not_mem_nil, or_false]
          constructor
          · intro ⟨same, created⟩
            simp [← created] at failed
          · intro ⟨above, below, _⟩
            omega

theorem storeReader_lt (left i : Nat) (slot : Nat) (reader : Option Nat)
    (stored : .storeReader slot reader ∈ startReadersCalls newReader left i) :
    slot < i + left := by
  induction left generalizing i with
  | zero => cases stored
  | succ left ih =>
      simp only [startReadersCalls, List.mem_cons, AcceptorCall.storeReader.injEq] at stored
      rcases stored with ⟨rfl, -⟩ | later
      · omega
      · split at later
        · have bound := ih (i + 1) later
          omega
        · cases later

end Readers

theorem endReaderCalls_ended (readers : Nat → Option Nat) (slots : List Nat) :
    (slots.flatMap (endReaderCalls readers)).filterMap AcceptorCall.ended =
      slots.filterMap readers := by
  induction slots with
  | nil => rfl
  | cons slot slots ih =>
      cases held : readers slot <;>
        simp [endReaderCalls, held, List.filterMap_cons, AcceptorCall.ended, ih]

theorem loadReader_mem (readers : Nat → Option Nat) (slots : List Nat) (slot : Nat) :
    .loadReader slot ∈ slots.flatMap (endReaderCalls readers) ↔ slot ∈ slots := by
  simp only [List.mem_flatMap, endReaderCalls, List.mem_cons, AcceptorCall.loadReader.injEq]
  constructor
  · intro ⟨other, member, same⟩
    rcases same with rfl | inner
    · exact member
    · split at inner <;> simp at inner
  · intro member
    exact ⟨slot, member, .inl rfl⟩

/-! ## The descriptor -/

/-- What `_AcceptorInit` leaves in `acceptor->socket`. -/
def AcceptorOutcomes.leftSocket (outcomes : AcceptorOutcomes) : Int :=
  match outcomes.socket with
  | none => -1
  | some socket =>
      if outcomes.fcntl && outcomes.setsockopt && outcomes.bind then socket else -1

/-- Everything up to `bind` succeeds and `listen` fails. -/
def AcceptorOutcomes.OnlyListenFails (outcomes : AcceptorOutcomes) : Prop :=
  outcomes.socket.isSome = true ∧ outcomes.fcntl = true ∧ outcomes.setsockopt = true ∧
    outcomes.bind = true ∧ outcomes.listen = false

theorem register_newSelector (pipe socket : Int) (reallocated : Bool) :
    ∃ key selector, register (newSelector pipe) opRead socket 0 reallocated = some (key, selector) := by
  cases reallocated with
  | true =>
      obtain ⟨node, after, result, _⟩ :=
        (newSelector_represents pipe).register_new (show Registry.empty socket = none from rfl)
          opRead 0
      exact ⟨_, _, result⟩
  | false => simp [register, newSelector, takeFreeKey, growPolls]

theorem startReadersCalls_sockets (newReader : Nat → Option Nat) (left i : Nat)
    (sockets : Int → SocketState) :
    (startReadersCalls newReader left i).foldl AcceptorCall.onSockets sockets = sockets := by
  induction left generalizing i with
  | zero => rfl
  | succ left ih =>
      simp only [startReadersCalls, List.foldl_cons, AcceptorCall.onSockets]
      split
      · exact ih (i + 1)
      · rfl

/-- What `_AcceptorInit` leaves in the fields that guide the exit callback, and that its calls
account for what it made of the sockets. -/
structure InitLeaves (outcomes : AcceptorOutcomes) (acceptor after : Acceptor) : Prop where
  readers : (after.nbReaders, after.readers) =
    startReaders outcomes.newReader acceptor.nbReaders 0 acceptor.readers
  socket : after.socket = outcomes.leftSocket
  key : ¬ outcomes.Succeed → after.key = none
  sockets : after.sockets =
    (acceptorInitCalls outcomes acceptor.nbReaders).foldl AcceptorCall.onSockets acceptor.sockets

theorem acceptorInit_leaves (outcomes : AcceptorOutcomes) {acceptor : Acceptor} {pipe : Int}
    (selector : acceptor.selector = some (newSelector pipe)) (key : acceptor.key = none) :
    ∃ result after, acceptorInit outcomes acceptor = some (result, after) ∧
      InitLeaves outcomes acceptor after := by
  obtain ⟨newReader, socket, fcntl, setsockopt, bind, listen, reallocated⟩ := outcomes
  have calls := startReadersCalls_sockets newReader acceptor.nbReaders 0 acceptor.sockets
  cases socket with
  | none =>
      refine ⟨_, _, rfl, ⟨rfl, rfl, fun _ => key, ?_⟩⟩
      simp [acceptorInitCalls, acceptorSocketCalls, calls]
  | some socket =>
    cases fcntl with
    | false =>
        refine ⟨_, _, rfl, ⟨rfl, rfl, fun _ => key, ?_⟩⟩
        simp [acceptorInitCalls, acceptorSocketCalls, calls, Acceptor.dropSocket, Acceptor.setSocket,
          AcceptorCall.onSockets]
    | true =>
    cases setsockopt with
    | false =>
        refine ⟨_, _, rfl, ⟨rfl, rfl, fun _ => key, ?_⟩⟩
        simp [acceptorInitCalls, acceptorSocketCalls, calls, Acceptor.dropSocket, Acceptor.setSocket,
          AcceptorCall.onSockets]
    | true =>
    cases bind with
    | false =>
        refine ⟨_, _, rfl, ⟨rfl, rfl, fun _ => key, ?_⟩⟩
        simp [acceptorInitCalls, acceptorSocketCalls, calls, Acceptor.dropSocket, Acceptor.setSocket,
          AcceptorCall.onSockets]
    | true =>
    cases listen with
    | false =>
        refine ⟨_, _, rfl, ⟨rfl, rfl, fun _ => key, ?_⟩⟩
        simp [acceptorInitCalls, acceptorSocketCalls, calls, Acceptor.setSocket, AcceptorCall.onSockets]
    | true =>
        obtain ⟨node, own, registered⟩ := register_newSelector pipe socket reallocated
        refine ⟨true, _, by simp only [acceptorInit, selector, registered, Acceptor.setSocket,
          Bool.not_true, Bool.false_eq_true, if_false, Option.bind_eq_bind, Option.bind_some]; rfl,
          ⟨rfl, rfl, fun failed => ?_, ?_⟩⟩
        · apply (register_fresh pipe socket registered).2
          simpa [AcceptorOutcomes.Succeed] using failed
        · simp [acceptorInitCalls, acceptorSocketCalls, calls, AcceptorCall.onSockets]

/-! ## The exit callback -/

theorem endReaderCalls_sockets (readers : Nat → Option Nat) (slots : List Nat)
    (sockets : Int → SocketState) :
    (slots.flatMap (endReaderCalls readers)).foldl AcceptorCall.onSockets sockets = sockets := by
  induction slots with
  | nil => rfl
  | cons slot slots ih =>
      cases held : readers slot <;>
        simpa [endReaderCalls, held, AcceptorCall.onSockets] using ih

/-- A registered key is released; nothing else of the acceptor stops the exit callback. -/
theorem acceptorExit_runs {acceptor : Acceptor} (held : acceptor.key = none ∨ acceptor.Serving) :
    ∃ exited, acceptorExit acceptor = some exited ∧
      exited.sockets =
        (acceptorExitCalls acceptor).foldl AcceptorCall.onSockets acceptor.sockets := by
  have closes : (if acceptor.socket = -1 then acceptor.sockets
      else Function.update acceptor.sockets acceptor.socket .closed) =
      (acceptorExitCalls acceptor).foldl AcceptorCall.onSockets acceptor.sockets := by
    simp only [acceptorExitCalls, List.foldl_append, endReaderCalls_sockets]
    split <;> rfl
  rcases held with none | serving
  · refine ⟨_, by simp only [acceptorExit, none, Option.bind_eq_bind, Option.bind_some]; rfl, ?_⟩
    rw [← closes]
    split <;> rfl
  · obtain ⟨_, selector, registry, registration, own, key, represents, _, _, registered, _⟩ :=
      serving
    obtain ⟨member, cell, found, _⟩ := represents.finite acceptor.socket registration registered
    obtain ⟨i, cell', slot, place, here⟩ := represents.slotOf member
    obtain ⟨after, released, _⟩ := represents.unregister_last here place (.inl rfl)
    refine ⟨_, by simp only [acceptorExit, key, own, released, Option.bind_eq_bind,
      Option.bind_some]; rfl, ?_⟩
    rw [← closes]
    simp only
    split <;> rfl

/-! ## Both -/

theorem mem_startReadersCalls {newReader : Nat → Option Nat} {left i : Nat} {call : AcceptorCall}
    (member : call ∈ startReadersCalls newReader left i) :
    ∃ slot reader, call = .storeReader slot reader := by
  induction left generalizing i with
  | zero => cases member
  | succ left ih =>
      simp only [startReadersCalls, List.mem_cons] at member
      rcases member with rfl | later
      · exact ⟨_, _, rfl⟩
      · split at later
        · exact ih later
        · cases later

theorem mem_endReaderCalls {readers : Nat → Option Nat} {slots : List Nat} {call : AcceptorCall}
    (member : call ∈ slots.flatMap (endReaderCalls readers)) :
    (∃ slot, call = .loadReader slot) ∨ ∃ reader, call = .readerEnd reader := by
  obtain ⟨slot, -, inner⟩ := List.mem_flatMap.mp member
  simp only [endReaderCalls, List.mem_cons] at inner
  rcases inner with rfl | inner
  · exact .inl ⟨slot, rfl⟩
  · split at inner
    · cases inner
    · exact .inr ⟨_, List.mem_singleton.mp inner⟩

theorem startReadersCalls_others (newReader : Nat → Option Nat) (left i : Nat) :
    (startReadersCalls newReader left i).filterMap AcceptorCall.ended = [] ∧
      (startReadersCalls newReader left i).filterMap AcceptorCall.opened = [] ∧
      (startReadersCalls newReader left i).filterMap AcceptorCall.closed = [] := by
  simp only [List.filterMap_eq_nil_iff]
  refine ⟨?_, ?_, ?_⟩ <;> intro call member <;>
    obtain ⟨slot, reader, rfl⟩ := mem_startReadersCalls member <;> rfl

theorem endReaderCalls_others (readers : Nat → Option Nat) (slots : List Nat) :
    (slots.flatMap (endReaderCalls readers)).filterMap AcceptorCall.created = [] ∧
      (slots.flatMap (endReaderCalls readers)).filterMap AcceptorCall.opened = [] ∧
      (slots.flatMap (endReaderCalls readers)).filterMap AcceptorCall.closed = [] := by
  simp only [List.filterMap_eq_nil_iff]
  refine ⟨?_, ?_, ?_⟩ <;> intro call member <;>
    obtain ⟨_, rfl⟩ | ⟨_, rfl⟩ := mem_endReaderCalls member <;> rfl

/-- The descriptor that was opened is closed by `_AcceptorInit` or by the exit callback, and by
both if only `listen` fails. -/
theorem acceptorSocketCalls_closed (outcomes : AcceptorOutcomes) :
    (acceptorSocketCalls outcomes).filterMap AcceptorCall.closed ++
        (if outcomes.leftSocket = -1 then [] else [outcomes.leftSocket]) =
      (acceptorSocketCalls outcomes).filterMap AcceptorCall.opened ↔
      ¬ outcomes.OnlyListenFails := by
  obtain ⟨newReader, socket, fcntl, setsockopt, bind, listen, reallocated⟩ := outcomes
  cases socket with
  | none => simp [acceptorSocketCalls, AcceptorOutcomes.leftSocket, AcceptorOutcomes.OnlyListenFails]
  | some socket =>
      have valid : (socket : Int) ≠ -1 := by omega
      cases fcntl <;> cases setsockopt <;> cases bind <;> cases listen <;>
        simp [acceptorSocketCalls, AcceptorOutcomes.leftSocket, AcceptorOutcomes.OnlyListenFails,
          AcceptorCall.closed, AcceptorCall.opened, List.filterMap_cons, valid]

theorem mem_acceptorSocketCalls {outcomes : AcceptorOutcomes} {call : AcceptorCall}
    (member : call ∈ acceptorSocketCalls outcomes) :
    ∃ descriptor, call = .socket descriptor ∨ call = .bind descriptor ∨
      call = .listen descriptor ∨ call = .close descriptor := by
  unfold acceptorSocketCalls at member
  split at member
  · cases member
  · next socket _ =>
      refine ⟨socket, ?_⟩
      grind

theorem acceptorSocketCalls_others (outcomes : AcceptorOutcomes) :
    (acceptorSocketCalls outcomes).filterMap AcceptorCall.created = [] ∧
      (acceptorSocketCalls outcomes).filterMap AcceptorCall.ended = [] := by
  simp only [List.filterMap_eq_nil_iff]
  refine ⟨?_, ?_⟩ <;> intro call member <;>
    obtain ⟨descriptor, rfl | rfl | rfl | rfl⟩ := mem_acceptorSocketCalls member <;> rfl

theorem acceptorExitCalls_others (acceptor : Acceptor) :
    (acceptorExitCalls acceptor).filterMap AcceptorCall.created = [] ∧
      (acceptorExitCalls acceptor).filterMap AcceptorCall.opened = [] ∧
      (acceptorExitCalls acceptor).filterMap AcceptorCall.closed =
        if acceptor.socket = -1 then [] else [acceptor.socket] := by
  obtain ⟨created, opened, closed⟩ :=
    endReaderCalls_others acceptor.readers (List.range acceptor.nbReaders)
  simp only [acceptorExitCalls, List.filterMap_append, created, opened, closed, List.append_nil]
  split <;> simp [AcceptorCall.created, AcceptorCall.opened, AcceptorCall.closed]

/-- What the exit callback ends is what the table holds. -/
theorem acceptorExitCalls_ended (acceptor : Acceptor) :
    (acceptorExitCalls acceptor).filterMap AcceptorCall.ended =
      (List.range acceptor.nbReaders).filterMap acceptor.readers := by
  simp only [acceptorExitCalls, List.filterMap_append, endReaderCalls_ended]
  split <;> simp [AcceptorCall.ended]

section Life

variable {outcomes : AcceptorOutcomes} {nbPipes : Nat} {readers : Nat → Option Nat}
  {after : Acceptor}

theorem life_readers (left : (after.nbReaders, after.readers) =
    startReaders outcomes.newReader nbPipes 0 readers) :
    (acceptorInitCalls outcomes nbPipes ++ acceptorExitCalls after).filterMap AcceptorCall.ended =
      (acceptorInitCalls outcomes nbPipes ++ acceptorExitCalls after).filterMap
        AcceptorCall.created := by
  obtain ⟨nbReaders, table⟩ := Prod.mk.inj left
  have slots := startReaders_slots outcomes.newReader nbPipes 0 readers (by simp)
  have created := startReadersCalls_created outcomes.newReader nbPipes 0 readers
  simp only [acceptorInitCalls, List.filterMap_append, acceptorExitCalls_ended,
    (startReadersCalls_others outcomes.newReader nbPipes 0).1,
    (acceptorSocketCalls_others outcomes).1, (acceptorSocketCalls_others outcomes).2,
    (acceptorExitCalls_others after).1, created, List.append_nil, List.nil_append, Nat.sub_zero,
    ← List.range_eq_range', nbReaders, table]
  apply List.filterMap_congr
  intro slot member
  exact (slots slot (List.mem_range.mp member)).1

theorem loadReader_life (slot : Nat) :
    .loadReader slot ∈ acceptorInitCalls outcomes nbPipes ++ acceptorExitCalls after ↔
      slot < after.nbReaders := by
  simp only [acceptorInitCalls, acceptorExitCalls, List.mem_append, loadReader_mem, List.mem_range]
  constructor
  · intro member
    rcases member with (stored | called) | closed | loaded
    · obtain ⟨_, _, same⟩ := mem_startReadersCalls stored
      cases same
    · obtain ⟨_, same | same | same | same⟩ := mem_acceptorSocketCalls called <;> cases same
    · split at closed <;> simp at closed
    · exact loaded
  · intro below
    exact .inr (.inr below)

theorem storeReader_life (slot : Nat) (reader : Option Nat) :
    .storeReader slot reader ∈ acceptorInitCalls outcomes nbPipes ++ acceptorExitCalls after ↔
      .storeReader slot reader ∈ startReadersCalls outcomes.newReader nbPipes 0 := by
  simp only [acceptorInitCalls, acceptorExitCalls, List.mem_append]
  constructor
  · intro member
    rcases member with (stored | called) | closed | ended
    · exact stored
    · obtain ⟨_, same | same | same | same⟩ := mem_acceptorSocketCalls called <;> cases same
    · split at closed <;> simp at closed
    · obtain ⟨_, same⟩ | ⟨_, same⟩ := mem_endReaderCalls ended <;> cases same
  · intro stored
    exact .inl (.inl stored)

theorem releasedOnce_iff (left : (after.nbReaders, after.readers) =
      startReaders outcomes.newReader nbPipes 0 readers)
    (socket : after.socket = outcomes.leftSocket) :
    ReleasedOnce nbPipes (acceptorInitCalls outcomes nbPipes ++ acceptorExitCalls after) ↔
      ¬ outcomes.OnlyListenFails := by
  obtain ⟨_, started, stopped⟩ := startReadersCalls_others outcomes.newReader nbPipes 0
  obtain ⟨_, opened, closed⟩ := acceptorExitCalls_others after
  have descriptors := acceptorSocketCalls_closed outcomes
  rw [← descriptors]
  constructor
  · intro released
    have same := released.descriptors
    simpa [acceptorInitCalls, List.filterMap_append, started, stopped, opened, closed,
      socket] using same
  · intro same
    refine ⟨life_readers left, ?_, ?_, ?_⟩
    · intro slot reader stored
      rw [storeReader_life] at stored
      simpa using storeReader_lt outcomes.newReader nbPipes 0 slot reader stored
    · intro slot
      obtain ⟨nbReaders, _⟩ := Prod.mk.inj left
      have slots := startReaders_slots outcomes.newReader nbPipes 0 readers (by simp)
      simp only [loadReader_life, storeReader_life,
        storeReader_mem outcomes.newReader nbPipes 0 readers, nbReaders]
      constructor
      · intro below
        obtain ⟨reader, created⟩ := Option.isSome_iff_exists.mp (slots slot below).2
        exact ⟨reader, Nat.zero_le _, below, created⟩
      · intro ⟨_, _, below, _⟩
        exact below
    · simpa [acceptorInitCalls, List.filterMap_append, started, stopped, opened, closed,
        socket] using same

end Life

/-- A life from a fresh acceptor releases everything once exactly if it is not `listen` alone
that fails; its calls account for what became of the sockets. -/
theorem acceptor_releases_iff (outcomes : AcceptorOutcomes) (nbPipes : Nat) (pipe : Int) :
    ∃ exited calls,
      acceptorLife outcomes (acceptorSystem nbPipes (some pipe)).acceptor = some (exited, calls) ∧
      exited.sockets = calls.foldl AcceptorCall.onSockets (fun _ => .closed) ∧
      (ReleasedOnce nbPipes calls ↔ ¬ outcomes.OnlyListenFails) := by
  obtain ⟨result, after, init, leaves⟩ :=
    acceptorInit_leaves outcomes (show (acceptorSystem nbPipes (some pipe)).acceptor.selector =
      some (newSelector pipe) from rfl) rfl
  have fresh : (acceptorSystem nbPipes (some pipe)).acceptor.Fresh := by
    refine ⟨fun selector held => ⟨pipe, ?_⟩, fun _ => rfl, rfl⟩
    exact (Option.some.inj held).symm
  have held : after.key = none ∨ after.Serving := by
    by_cases succeed : outcomes.Succeed
    · exact .inr ((acceptorInit_ok fresh init).1 succeed).2
    · exact .inl (leaves.key succeed)
  obtain ⟨exited, exits, sockets⟩ := acceptorExit_runs held
  refine ⟨exited, acceptorInitCalls outcomes nbPipes ++ acceptorExitCalls after, ?_, ?_, ?_⟩
  · simp only [acceptorLife, init, exits, Option.bind_eq_bind, Option.bind_some]
    rfl
  · rw [sockets, leaves.sockets, List.foldl_append]
    rfl
  · exact releasedOnce_iff leaves.readers leaves.socket

/-- One pipe whose reader starts, and a socket that cannot listen. -/
def listenRefused : AcceptorOutcomes :=
  { newReader := fun _ => some 7, socket := some 3, fcntl := true, setsockopt := true, bind := true
    listen := false, reallocated := true }

/-- Descriptor 3 is closed by `_AcceptorInit` and again by the exit callback. -/
theorem acceptor_closesTwice :
    ∃ exited calls,
      acceptorLife listenRefused (acceptorSystem 1 (some 9)).acceptor = some (exited, calls) ∧
      calls.filterMap AcceptorCall.closed = [3, 3] ∧ ¬ ReleasedOnce 1 calls := by
  refine ⟨_, _, rfl, rfl, fun released => ?_⟩
  exact absurd released.descriptors (by decide)

end Aio4c
