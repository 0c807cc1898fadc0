import Aio4c.SelectorPass

/-! What a call of `Register` leaves behind: when a call that fails leaves the selector
as it was, and when a key that is returned stands for the operation and the attachment
that were asked for. -/

set_option autoImplicit false

namespace Aio4c

open TransitionSystem

/-- `SelectionKeyIsOperationSuccessful`. -/
def selectionKeyIsOperationSuccessful (key : SelectionKey) : Bool :=
  decide (key.result &&& key.operation = key.operation)

/-! ## A call that fails -/

/-- What a caller sees of a call. -/
inductive SelectorReply where
  | key (key : Option Nat)
  | isLastRegistration (last : Bool)
  | selected (nbPolls : Int)
  deriving DecidableEq, Repr

def selectorReply (selector : Selector) : SelectorAction → Option (SelectorReply × Selector)
  | .register operation fd attachment reallocated => do
      let (key, selector) ← register selector operation fd attachment reallocated
      pure (.key key, selector)
  | .unregister key unregisterAll => do
      let (last, selector) ← unregister selector key unregisterAll
      pure (.isLastRegistration last, selector)
  | .select outcome =>
      let (nbPolls, selector) := select selector outcome
      some (.selected nbPolls, selector)
  | .ready repoll _ => do
      let (key, selector) ← selectionKeyReady selector repoll
      pure (.key key, selector)

/-- The replies to a sequence of calls; `none` is an access outside the tables. -/
def selectorReplies (selector : Selector) : List SelectorAction → Option (List SelectorReply)
  | [] => some []
  | action :: actions => do
      let (reply, selector) ← selectorReply selector action
      pure (reply :: (← selectorReplies selector actions))

/-- The selector is as it was, for every later sequence of calls too. -/
structure Unchanged (registry : Registry) (before after : Selector) : Prop where
  represents : after.Represents registry
  busyKeys : after.busyKeys = before.busyKeys
  polls : after.polls = before.polls
  numPolls : after.numPolls = before.numPolls
  maxPolls : after.maxPolls = before.maxPolls
  later : ∀ actions, selectorReplies after actions = selectorReplies before actions

/-- A `Register` that returns NULL leaves everything as it was. -/
def RegisterAtomic (selector : Selector) (registry : Registry) (operation : Int16) (fd : Int)
    (attachment : Nat) (reallocated : Bool) : Prop :=
  ∀ after, register selector operation fd attachment reallocated = some (none, after) →
    Unchanged registry selector after

/-- A busy key has the descriptor. -/
def Selector.Known (selector : Selector) (fd : Int) : Prop :=
  ∃ node ∈ selector.busyKeys, ∃ key ∈ selector.keys node, key.fd = fd

theorem takeFreeKey_table (selector : Selector) :
    (takeFreeKey selector).2.busyKeys = selector.busyKeys ∧
      (takeFreeKey selector).2.numPolls = selector.numPolls ∧
      (takeFreeKey selector).2.maxPolls = selector.maxPolls := by
  unfold takeFreeKey
  split
  · exact ⟨rfl, rfl, rfl⟩
  · exact ⟨rfl, rfl, rfl⟩

theorem takeFreeKey_frame (selector : Selector) {other : Nat}
    (differs : other ≠ (takeFreeKey selector).1) :
    (takeFreeKey selector).2.keys other = selector.keys other := by
  unfold takeFreeKey at differs ⊢
  split
  · next free =>
      simp only [free] at differs
      exact Function.update_of_ne differs _ _
  · rfl

theorem growPolls_table {selector grown : Selector} {reallocated : Bool}
    (wide : growPolls selector reallocated = some grown) :
    grown.keys = selector.keys ∧ grown.busyKeys = selector.busyKeys := by
  unfold growPolls at wide
  split at wide
  · simp only [Option.ite_none_right_eq_some, Option.some.injEq] at wide
    obtain ⟨_, rfl⟩ := wide
    exact ⟨rfl, rfl⟩
  · cases wide
    exact ⟨rfl, rfl⟩

/-- The table of polls is asked for more only when it is full. -/
theorem growPolls_none_iff (selector : Selector) (reallocated : Bool) :
    growPolls selector reallocated = none ↔
      selector.numPolls = selector.maxPolls ∧ reallocated = false := by
  unfold growPolls
  split
  · next full =>
      cases reallocated with
      | true => simp
      | false => simp [full]
  · next room => simp [room]

section

variable {selector after : Selector} {registry : Registry} {operation : Int16} {fd : Int}
  {attachment : Nat} {reallocated : Bool}

theorem find_none_iff : (selector.busyKeys.find? fun node =>
    (selector.keys node).any fun key => key.fd = fd) = none ↔ ¬ selector.Known fd := by
  simp [Selector.Known, Option.any_eq_true]

theorem known_of_registered (represents : selector.Represents registry)
    {registration : Registration} (registered : registry fd = some registration) :
    selector.Known fd := by
  obtain ⟨member, key, found, same⟩ := represents.finite fd registration registered
  exact ⟨registration.key, member, key, found, same⟩

/-- `Register` returns NULL for a new descriptor, a full table and a refused reallocation. -/
theorem register_null
    (registered : register selector operation fd attachment reallocated = some (none, after)) :
    ¬ selector.Known fd ∧ selector.numPolls = selector.maxPolls ∧ reallocated = false := by
  unfold register at registered
  split at registered
  · simp [Option.bind_eq_some_iff] at registered
  · next search =>
      refine ⟨find_none_iff.mp search, ?_⟩
      obtain ⟨_, numPolls, maxPolls⟩ := takeFreeKey_table selector
      dsimp only at registered
      split at registered
      · next grown =>
          obtain ⟨full, refused⟩ := (growPolls_none_iff _ _).mp grown
          exact ⟨numPolls.symm.trans (full.trans maxPolls), refused⟩
      · simp [Option.bind_eq_some_iff] at registered

/-- The key is in the busy list before the table is found to be full. -/
theorem register_full (unknown : ¬ selector.Known fd)
    (full : selector.numPolls = selector.maxPolls) :
    register selector operation fd attachment false = some (none,
      { (takeFreeKey selector).2 with
        busyKeys := selector.busyKeys ++ [(takeFreeKey selector).1] }) := by
  obtain ⟨busyKeys, numPolls, maxPolls⟩ := takeFreeKey_table selector
  have refused := (growPolls_none_iff { (takeFreeKey selector).2 with
      busyKeys := selector.busyKeys ++ [(takeFreeKey selector).1] } false).mpr
    ⟨numPolls.trans (full.trans maxPolls.symm), rfl⟩
  simp only [register, find_none_iff.mpr unknown, busyKeys, refused]

/-- `Register` is atomic exactly where it does not fail: no call that finds the table full
and gets no memory leaves the selector as it was. -/
theorem register_atomic_iff (represents : selector.Represents registry) :
    RegisterAtomic selector registry operation fd attachment reallocated ↔
      selector.Known fd ∨ selector.numPolls < selector.maxPolls ∨ reallocated = true := by
  constructor
  · intro atomic
    by_contra fails
    simp only [not_or, Bool.not_eq_true] at fails
    obtain ⟨unknown, noRoom, rfl⟩ := fails
    have full : selector.numPolls = selector.maxPolls :=
      Int.le_antisymm represents.capacity (Int.not_lt.mp noRoom)
    have same := (atomic _ (register_full unknown full)).busyKeys
    simp at same
  · intro succeeds after registered
    obtain ⟨unknown, full, refused⟩ := register_null registered
    rcases succeeds with known | room | granted
    · exact absurd known unknown
    · exact absurd full (Int.ne_of_lt room)
    · rw [refused] at granted
      cases granted

/-- What is left behind a call that failed stands for no map of registrations. -/
theorem register_full_unrepresented (represents : selector.Represents registry)
    (registered : register selector operation fd attachment reallocated = some (none, after))
    (registry' : Registry) : ¬ after.Represents registry' := by
  obtain ⟨unknown, full, rfl⟩ := register_null registered
  obtain ⟨_, numPolls, _⟩ := takeFreeKey_table selector
  rw [register_full unknown full, Option.some.injEq, Prod.mk.injEq] at registered
  obtain ⟨_, rfl⟩ := registered
  intro represents'
  have before := represents.numPolls
  have count := represents'.numPolls
  simp only [List.length_append, List.length_singleton] at count
  omega

end

/-- A new selector whose table grows. -/
theorem register_atomic_new :
    RegisterAtomic (newSelector 3) Registry.empty opRead 5 7 true ↔
      (newSelector 3).Known 5 ∨ (newSelector 3).numPolls < (newSelector 3).maxPolls ∨ true = true :=
  register_atomic_iff (newSelector_represents 3)

/-- A new selector whose table does not grow: the key stays busy without a slot. -/
theorem register_not_atomic :
    ¬ ∀ (selector : Selector) (registry : Registry) (operation : Int16) (fd : Int)
      (attachment : Nat) (reallocated : Bool), selector.Represents registry →
      RegisterAtomic selector registry operation fd attachment reallocated := by
  intro claimed
  have full : register (newSelector 3) opRead 5 7 false = _ :=
    register_full (by simp [Selector.Known, newSelector]) rfl
  have unchanged := claimed (newSelector 3) Registry.empty opRead 5 7 false
    (newSelector_represents 3) _ full
  have same := unchanged.busyKeys
  revert same
  decide

/-! ## A call that returns a key -/

/-- The key stands for the operation on the descriptor: its slot is among those that the
next `Select` hands to the kernel and asks for the operation, its success test is about the
operation, and it carries the attachment. -/
structure RegisteredFor (selector : Selector) (operation : Int16) (fd : Int) (attachment : Nat)
    (node : Nat) (key : SelectionKey) (slot : Poll) : Prop where
  found : selector.keys node = some key
  busy : node ∈ selector.busyKeys
  located : pollAt selector.polls key.poll = some slot
  watched : key.poll < selector.numPolls
  descriptor : slot.fd = fd
  asked : slot.events &&& operation = operation
  answers : ∀ result, selectionKeyIsOperationSuccessful { key with result } = true ↔
    result &&& operation = operation
  attachment : key.attachment = attachment

/-- Whenever `Register` returns a key, it stands for what was asked for. -/
def RegistersFor (selector : Selector) (operation : Int16) (fd : Int) (attachment : Nat)
    (reallocated : Bool) : Prop :=
  ∀ node after, register selector operation fd attachment reallocated = some (some node, after) →
    ∃ key slot, RegisteredFor after operation fd attachment node key slot

/-- No busy key has the descriptor with another operation or attachment. -/
def Selector.Agrees (selector : Selector) (operation : Int16) (fd : Int) (attachment : Nat) :
    Prop :=
  ∀ node ∈ selector.busyKeys, ∀ key ∈ selector.keys node, key.fd = fd →
    key.operation = operation ∧ key.attachment = attachment

/-- A mask that lies in another one and is answered for by it is that mask. -/
theorem mask_eq {registered operation : Int16} (asked : registered &&& operation = operation)
    (answered : operation &&& registered = registered) : registered = operation := by
  rw [Int16.and_comm] at answered
  exact answered.symm.trans asked

section

variable {selector after : Selector} {registry : Registry} {operation : Int16} {fd : Int}
  {attachment : Nat} {reallocated : Bool} {node : Nat}

theorem registeredFor_of_represents (represents : selector.Represents registry)
    {registration : Registration} (registered : registry fd = some registration) :
    ∃ key slot, RegisteredFor selector registration.operation fd registration.attachment
      registration.key key slot := by
  obtain ⟨member, key, found, rfl⟩ := represents.finite fd registration registered
  obtain ⟨i, key', slot, place, here⟩ := represents.slotOf member
  cases found.symm.trans here.found
  have known := here.registered
  rw [registered, Option.some.injEq] at known
  have operation : registration.operation = key.operation :=
    congrArg Registration.operation known
  have attachment : registration.attachment = key.attachment :=
    congrArg Registration.attachment known
  have inside := (List.getElem?_eq_some_iff.mp place).1
  have total := represents.numPolls
  refine ⟨key, slot,
    { found := found
      busy := member
      located := by rw [here.index, here.located]
      watched := by have := here.index; omega
      descriptor := here.descriptor
      asked := by rw [here.interest, operation, Int16.and_self]
      answers := fun result => by simp [selectionKeyIsOperationSuccessful, operation]
      attachment := attachment.symm }⟩

/-- A key that stands for an operation was registered for just that. -/
theorem RegisteredFor.operation_eq (represents : selector.Represents registry) {key : SelectionKey}
    {slot : Poll} (registered : RegisteredFor selector operation fd attachment node key slot) :
    key.operation = operation ∧ key.attachment = attachment := by
  obtain ⟨i, key', slot', _, here⟩ := represents.slotOf registered.busy
  cases registered.found.symm.trans here.found
  have located := registered.located
  rw [here.index, here.located, Option.some.injEq] at located
  have asked := registered.asked
  rw [← located, here.interest] at asked
  have answered := (registered.answers operation).mpr (Int16.and_self)
  simp only [selectionKeyIsOperationSuccessful, decide_eq_true_eq] at answered
  exact ⟨mask_eq asked answered, registered.attachment⟩

/-- A call that returns a key does the same with a table that may grow. -/
theorem register_granted
    (registered : register selector operation fd attachment reallocated = some (some node, after)) :
    register selector operation fd attachment true = some (some node, after) := by
  cases reallocated with
  | true => exact registered
  | false =>
      rw [← registered]
      unfold register at registered ⊢
      split
      · rfl
      · next search =>
          simp only [search] at registered
          have room : growPolls { (takeFreeKey selector).2 with
              busyKeys := (takeFreeKey selector).2.busyKeys ++ [(takeFreeKey selector).1] } false ≠
                none := by
            intro refused
            rw [refused] at registered
            simp at registered
          have wide := (growPolls_none_iff _ _).not.mp room
          simp only [and_true] at wide
          simp only [growPolls, if_neg wide]

theorem register_known_eq (known : selector.Known fd) :
    register selector operation fd attachment reallocated =
      register selector operation fd attachment true := by
  unfold register
  split
  · rfl
  · next search => exact absurd known (find_none_iff.mp search)

/-- The registration of a descriptor is what its busy key holds. -/
theorem agrees_iff (represents : selector.Represents registry) :
    selector.Agrees operation fd attachment ↔ ∀ registration, registry fd = some registration →
      registration.operation = operation ∧ registration.attachment = attachment := by
  constructor
  · intro agrees registration registered
    obtain ⟨key, slot, kept⟩ := registeredFor_of_represents represents registered
    obtain ⟨operation, attachment⟩ := kept.operation_eq represents
    obtain ⟨_, cell, found, same⟩ := represents.finite fd registration registered
    cases found.symm.trans kept.found
    rw [← operation, ← attachment]
    exact agrees registration.key kept.busy key found same
  · intro all node member key found same
    obtain ⟨i, cell, slot, _, here⟩ := represents.slotOf member
    cases here.found.symm.trans found
    exact all _ (same ▸ here.registered)

/-- A key that `Register` returns stands for what was asked for exactly if the descriptor
was not registered for something else. -/
theorem register_registers_iff (represents : selector.Represents registry) :
    RegistersFor selector operation fd attachment reallocated ↔
      selector.Agrees operation fd attachment := by
  constructor
  · intro registers
    rw [agrees_iff represents]
    intro registration registered
    have known := known_of_registered represents registered
    obtain ⟨after, result, represents'⟩ :=
      represents.register_known registered operation attachment
    obtain ⟨key, slot, asked⟩ := registers _ after ((register_known_eq known).trans result)
    obtain ⟨key', slot', kept⟩ :=
      registeredFor_of_represents represents' (Function.update_self _ _ _)
    cases asked.found.symm.trans kept.found
    obtain ⟨operation, attachment⟩ := asked.operation_eq represents'
    obtain ⟨operation', attachment'⟩ := kept.operation_eq represents'
    exact ⟨operation'.symm.trans operation, attachment'.symm.trans attachment⟩
  · intro agrees node after registered
    have granted := register_granted registered
    cases known : registry fd with
    | none =>
        obtain ⟨key, selector', result, _, represents'⟩ :=
          represents.register_new known operation attachment
        rw [granted, Option.some.injEq, Prod.mk.injEq, Option.some.injEq] at result
        obtain ⟨rfl, rfl⟩ := result
        exact registeredFor_of_represents represents' (Function.update_self _ _ _)
    | some registration =>
        obtain ⟨rfl, rfl⟩ := (agrees_iff represents).mp agrees registration known
        obtain ⟨selector', result, represents'⟩ := represents.register_known known
          registration.operation registration.attachment
        rw [granted, Option.some.injEq, Prod.mk.injEq, Option.some.injEq] at result
        obtain ⟨rfl, rfl⟩ := result
        have stored : Function.update registry fd (some { registration with
            count := registration.count + 1 }) fd = some { registration with
            count := registration.count + 1 } := Function.update_self _ _ _
        have kept := registeredFor_of_represents represents' stored
        exact kept

end

/-! ## Every reachable selector -/

/-- Keys that are not busy were not delivered. -/
def Selector.Rested (selector : Selector) : Prop :=
  ∀ key cell, selector.keys key = some cell → key ∉ selector.busyKeys → cell.curCount = 0

section

variable {before after : Selector} {registry : Registry}

theorem scanReady_frame {nodes : List Nat} {key : Option Nat}
    (scanned : scanReady before nodes = some (key, after)) {other : Nat} (outside : other ∉ nodes) :
    after.keys other = before.keys other := by
  induction nodes with
  | nil =>
      simp only [scanReady, Option.some.injEq, Prod.mk.injEq] at scanned
      obtain ⟨_, rfl⟩ := scanned
      rfl
  | cons node nodes ih =>
      simp only [List.mem_cons, not_or] at outside
      obtain ⟨differs, rest⟩ := outside
      simp only [scanReady, Option.bind_eq_bind, Option.bind_eq_some_iff] at scanned
      obtain ⟨cell, _, poll, _, scanned⟩ := scanned
      split at scanned
      · simp only [Option.bind_eq_some_iff, Option.pure_def, Option.some.injEq,
          Prod.mk.injEq] at scanned
        obtain ⟨polls, _, _, rfl⟩ := scanned
        exact Function.update_of_ne differs _ _
      · exact ih scanned rest

theorem scanFrom_frame {key : Option Nat} (scanned : scanFrom before = some (key, after))
    {other : Nat} (outside : other ∉ before.busyKeys) : after.keys other = before.keys other := by
  unfold scanFrom at scanned
  split at scanned
  · simp only [Option.some.injEq, Prod.mk.injEq] at scanned
    obtain ⟨_, rfl⟩ := scanned
    rfl
  · simp only [Option.bind_eq_bind, Option.bind_eq_some_iff] at scanned
    obtain ⟨cell, _, scanned⟩ := scanned
    split at scanned
    · simp only [Option.pure_def, Option.some.injEq, Prod.mk.injEq] at scanned
      obtain ⟨_, rfl⟩ := scanned
      rfl
    · exact scanReady_frame scanned fun member =>
        outside ((List.dropWhile_sublist _).subset member)

theorem selectionKeyReady_frame (busy : CurKeyBusy before) {repoll : Repoll} {key : Option Nat}
    (ready : selectionKeyReady before repoll = some (key, after)) {other : Nat}
    (outside : other ∉ before.busyKeys) : after.keys other = before.keys other := by
  unfold selectionKeyReady at ready
  split at ready
  · exact scanFrom_frame ready outside
  · next current at_ =>
      have differs : other ≠ current := by
        intro equal
        subst equal
        exact outside (busy other at_)
      simp only [Option.bind_eq_bind, Option.bind_eq_some_iff] at ready
      obtain ⟨cell, _, ready⟩ := ready
      split at ready
      · split at ready
        · split at ready
          · exact scanFrom_frame ready outside
          · split at ready
            · simp only [Option.pure_def, Option.some.injEq, Prod.mk.injEq] at ready
              obtain ⟨_, rfl⟩ := ready
              exact Function.update_of_ne differs _ _
            · obtain ⟨next, _, scanned⟩ := Option.bind_eq_some_iff.mp ready
              exact scanFrom_frame scanned outside
        · obtain ⟨next, _, scanned⟩ := Option.bind_eq_some_iff.mp ready
          exact (scanFrom_frame scanned outside).trans (Function.update_of_ne differs _ _)
      · exact scanFrom_frame ready outside

/-- From a key that is not busy there is nothing to scan. -/
theorem selectionKeyReady_dangling (linked : before.Linked) (rested : before.Rested)
    (dangles : ¬ CurKeyBusy before) {repoll : Repoll} {key : Option Nat}
    (ready : selectionKeyReady before repoll = some (key, after)) :
    after = { before with curKey := none } := by
  simp only [CurKeyBusy, Option.mem_def, not_forall, exists_prop] at dangles
  obtain ⟨current, at_, outside⟩ := dangles
  simp only [selectionKeyReady, at_, Option.bind_eq_bind, Option.bind_eq_some_iff] at ready
  obtain ⟨cell, found, ready⟩ := ready
  have unlinked : cell.node = none := by
    cases back : cell.node with
    | none => rfl
    | some node => exact absurd (linked.linked current cell node found back).2 outside
  rw [if_neg (by rw [rested current cell found outside]; decide)] at ready
  simp only [scanFrom, at_, Option.some_or, found, unlinked, Option.bind_eq_bind,
    Option.bind_some, Option.pure_def, Option.some.injEq, Prod.mk.injEq] at ready
  exact ready.2.symm

theorem register_frame {operation : Int16} {fd : Int} {attachment : Nat} {reallocated : Bool}
    {key : Option Nat}
    (registered : register before operation fd attachment reallocated = some (key, after))
    {other : Nat} (outside : other ∉ after.busyKeys) : after.keys other = before.keys other := by
  unfold register at registered
  split at registered
  · next node search =>
      simp only [countRegistration, Option.bind_eq_bind, Option.bind_eq_some_iff, Option.pure_def,
        Option.some.injEq, Prod.mk.injEq] at registered
      obtain ⟨counted, ⟨cell, _, rfl⟩, _, rfl⟩ := registered
      have differs : other ≠ node := by
        intro equal
        subst equal
        exact outside (List.mem_of_find?_eq_some search)
      exact Function.update_of_ne differs _ _
  · obtain ⟨busyKeys, _, _⟩ := takeFreeKey_table before
    dsimp only at registered
    split at registered
    · simp only [Option.some.injEq, Prod.mk.injEq] at registered
      obtain ⟨_, rfl⟩ := registered
      simp only [List.mem_append, List.mem_singleton, not_or] at outside
      exact takeFreeKey_frame before outside.2
    · next grown wide =>
        obtain ⟨keys, busy⟩ := growPolls_table wide
        simp only [countRegistration, Option.bind_eq_bind, Option.bind_eq_some_iff,
          Option.pure_def, Option.some.injEq, Prod.mk.injEq] at registered
        obtain ⟨cell, _, polls, _, counted, ⟨cell', _, rfl⟩, _, rfl⟩ := registered
        simp only [busy, List.mem_append, List.mem_singleton, not_or] at outside
        have differs := outside.2
        simp only [Function.update_of_ne differs, keys]
        exact takeFreeKey_frame before differs

theorem unregister_frame (linked : before.Linked) {key : Nat} {unregisterAll last : Bool}
    (unregistered : unregister before key unregisterAll = some (last, after)) {other : Nat}
    (outside : other ∉ before.busyKeys) :
    (after.keys other).map unplaced = (before.keys other).map unplaced := by
  simp only [unregister, Option.bind_eq_bind, Option.bind_eq_some_iff] at unregistered
  obtain ⟨cell, found, rest⟩ := unregistered
  cases unlinked : cell.node with
  | none =>
      simp only [unlinked, Option.pure_def, Option.some.injEq, Prod.mk.injEq] at rest
      obtain ⟨_, rfl⟩ := rest
      rfl
  | some node =>
      have differs : other ≠ key := by
        intro equal
        subst equal
        exact outside (linked.linked other cell node found unlinked).2
      simp only [unlinked] at rest
      by_cases counted : (!unregisterAll) = true ∧
          (if unregisterAll = true then cell.count else cell.count - 1) > 0
      · rw [if_pos counted] at rest
        simp only [Option.pure_def, Option.some.injEq, Prod.mk.injEq] at rest
        obtain ⟨_, rfl⟩ := rest
        simp only [Function.update_of_ne differs]
      · rw [if_neg counted] at rest
        simp only [Option.bind_eq_some_iff, Option.guard_eq_some', Option.pure_def,
          Option.some.injEq, Prod.mk.injEq, Prod.exists] at rest
        obtain ⟨_, _, keys, polls, shifted, slots, _, _, rfl⟩ := rest
        have kept := shiftPolls_unplaced shifted other
        rw [Function.update_of_ne differs, Function.update_of_ne differs] at kept
        exact kept

/-- A selector that the calls bring about as long as its table grows when it has to. -/
structure Selector.Sound (selector : Selector) : Prop where
  represents : ∃ registry, selector.Represents registry
  linked : selector.Linked
  rested : selector.Rested

theorem newSelector_sound (pipe : Int) : (newSelector pipe).Sound :=
  ⟨⟨_, newSelector_represents pipe⟩, newSelector_linked pipe,
    by simp [Selector.Rested, newSelector]⟩

theorem selectorStep_sound {action : SelectorAction} (sound : before.Sound)
    (granted : action.Granted) (step : SelectorStep before action after) : after.Sound := by
  obtain ⟨⟨registry, represents⟩, linked, rested⟩ := sound
  have table := selectorStep_represents represents linked granted
    (fun repoll key after ready => by
      by_cases busy : CurKeyBusy before
      · exact selectionKeyReady_represents represents busy ready
      · rw [selectionKeyReady_dangling linked rested busy ready]
        exact represents.withCurKey none) step
  unfold SelectorStep selectorStep at step
  cases action with
  | register operation fd attachment reallocated =>
      obtain ⟨⟨key, after⟩, registered, rfl⟩ := Option.map_eq_some_iff.mp step
      obtain ⟨linked', more, _⟩ := register_linked linked registered
      refine ⟨table, linked', fun other cell found outside => ?_⟩
      rw [register_frame registered outside] at found
      exact rested other cell found fun member => outside (more member)
  | unregister key unregisterAll =>
      obtain ⟨⟨last, after⟩, unregistered, rfl⟩ := Option.map_eq_some_iff.mp step
      obtain ⟨linked', _, result⟩ := unregister_linked linked unregistered
      refine ⟨table, linked', fun other cell found outside => ?_⟩
      have rests (busy : other ∉ before.busyKeys) : cell.curCount = 0 := by
        have kept := unregister_frame linked unregistered busy
        rw [found] at kept
        obtain ⟨original, found', same⟩ := Option.map_eq_some_iff.mp kept.symm
        have curCount : original.curCount = cell.curCount := by
          simpa only [unplaced] using congrArg SelectionKey.curCount same
        exact curCount.symm.trans (rested other original found' busy)
      rcases result with ⟨_, same⟩ | ⟨_, erased, cleared⟩
      · exact rests (same ▸ outside)
      · by_cases here : other = key
        · subst here
          rw [found, Option.map_some, Option.some.injEq] at cleared
          exact congrArg SelectionKey.curCount cleared
        · rw [erased] at outside
          exact rests fun member => outside ((List.mem_erase_of_ne here).mpr member)
  | select outcome =>
      have same : (select before outcome).2 = after := Option.some.inj step
      have kept : ∃ polls, (select before outcome).2 = { before with polls } := by
        unfold select
        split
        · exact ⟨_, rfl⟩
        · simp only
          split <;> exact ⟨_, rfl⟩
      obtain ⟨polls, kept⟩ := kept
      rw [kept] at same
      subst same
      exact ⟨table, linked.withCurKey before.curKey, rested⟩
  | ready repoll key =>
      simp only [Option.bind_eq_bind, Option.bind_eq_some_iff, Option.guard_eq_some',
        Option.pure_def, Option.some.injEq, Prod.exists] at step
      obtain ⟨returned, selector, ready, _, _, rfl⟩ := step
      by_cases busy : CurKeyBusy before
      · obtain ⟨linked', same, _⟩ := selectionKeyReady_linked linked busy ready
        refine ⟨table, linked', fun other cell found outside => ?_⟩
        rw [same] at outside
        rw [selectionKeyReady_frame busy ready outside] at found
        exact rested other cell found outside
      · rw [selectionKeyReady_dangling linked rested busy ready] at table ⊢
        exact ⟨table, linked.withCurKey none, rested⟩

end

theorem newSelector_reaches_sound {pipe : Int} {actions : List SelectorAction} {state : Selector}
    (granted : ∀ action ∈ actions, action.Granted)
    (run : Run SelectorStep (newSelector pipe) actions state) : Selector.Sound state := by
  apply run.keeps_allowed granted
  · intro before action after granted sound step
    exact selectorStep_sound sound granted step
  · exact newSelector_sound pipe

/-- In every selector that calls bring about whose table grew when it had to, `Register`
returns a key for what was asked for exactly if the descriptor is free or registered with
the same operation and attachment. -/
theorem newSelector_registers_iff {pipe : Int} {actions : List SelectorAction} {state : Selector}
    (granted : ∀ action ∈ actions, action.Granted)
    (run : Run SelectorStep (newSelector pipe) actions state) (operation : Int16) (fd : Int)
    (attachment : Nat) (reallocated : Bool) :
    RegistersFor state operation fd attachment reallocated ↔
      state.Agrees operation fd attachment := by
  obtain ⟨registry, represents⟩ := (newSelector_reaches_sound granted run).represents
  exact register_registers_iff represents

/-- A second descriptor beside a registered one. -/
theorem newSelector_registers_second :
    ∃ state, Run SelectorStep (newSelector 3) [.register opRead 5 7 true] state ∧
      (RegistersFor state opWrite 6 8 true ↔ Selector.Agrees state opWrite 6 8) := by
  obtain ⟨state, _, run⟩ := exists_run_of_execute SelectorStep selectorStep (newSelector 3)
    [.register opRead 5 7 true] (fun _ _ _ step => step) (by decide)
  exact ⟨state, run,
    newSelector_registers_iff (by simp [SelectorAction.Granted]) run opWrite 6 8 true⟩

/-- A descriptor that is registered for reading and then for writing. -/
theorem newSelector_registers_merged :
    ¬ ∀ (pipe : Int) (actions : List SelectorAction) (state : Selector) (operation : Int16)
      (fd : Int) (attachment : Nat) (reallocated : Bool),
      Run SelectorStep (newSelector pipe) actions state →
      RegistersFor state operation fd attachment reallocated := by
  intro claimed
  obtain ⟨state, reached, run⟩ := exists_run_of_execute SelectorStep selectorStep (newSelector 3)
    [.register opRead 5 7 true] (fun _ _ _ step => step) (by decide)
  obtain ⟨registry, represents⟩ :=
    (newSelector_reaches_sound (by simp [SelectorAction.Granted]) run).represents
  have agrees := (register_registers_iff represents).mp (claimed 3 _ state opWrite 5 8 true run)
  have first : (execute selectorStep (newSelector 3) [.register opRead 5 7 true]).map
      (fun state => decide (0 ∈ state.busyKeys) && (state.keys 0).any fun key =>
        decide (key.fd = 5 ∧ key.operation = opRead)) = some true := by decide
  rw [reached, Option.map_some, Option.some.injEq, Bool.and_eq_true, decide_eq_true_eq,
    Option.any_eq_true] at first
  obtain ⟨member, key, found, fields⟩ := first
  obtain ⟨fd, operation⟩ := of_decide_eq_true fields
  have same := (agrees 0 member key found fd).1
  rw [operation] at same
  exact absurd same (by decide)

end Aio4c
