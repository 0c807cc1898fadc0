import Aio4c.Library.CountOnce
import Aio4c.SelectorRegistration

/-! The two builds of `_Select`, one on `poll` and one on `select`, before one kernel. A
kernel knows for each descriptor whether it is readable, writable or in error. -/

set_option autoImplicit false

namespace Aio4c

open CountOnce

/-- `AIO4C_OP_ERROR` (`POLLERR`). -/
def opError : Int16 := 8

inductive ReadyFlag where
  | read
  | write
  | error
  deriving DecidableEq, Repr

def readyFlags : List ReadyFlag := [.read, .write, .error]

abbrev Readiness := Int → ReadyFlag → Bool

/-- The slots in use: `polls[0]` to `polls[numPolls - 1]`. -/
def Selector.table (selector : Selector) : List Poll := selector.polls.take selector.numPolls.toNat

/-! ## The build with `poll` -/

/-- What `poll` leaves in `revents`: the requested flags that are ready, and an error. -/
def pollReport (ready : Readiness) (poll : Poll) : Int16 :=
  (if poll.events &&& opRead ≠ 0 ∧ ready poll.fd .read = true then opRead else 0) |||
    (if poll.events &&& opWrite ≠ 0 ∧ ready poll.fd .write = true then opWrite else 0) |||
    (if ready poll.fd .error = true then opError else 0)

/-- `poll`: the number of slots with a report, and the reports. -/
def pollCall (ready : Readiness) (table : List Poll) : Int × (Nat → Int16) :=
  (table.countP fun poll => decide (pollReport ready poll ≠ 0),
    fun i => (table[i]?.map (pollReport ready)).getD 0)

/-- `_Select` with `AIO4C_HAVE_POLL`. -/
def pollSelect (ready : Readiness) (selector : Selector) : Int × Selector :=
  select selector (some (pollCall ready selector.table))

/-! ## The build with `select` -/

namespace SelectBuild

/-- `AIO4C_OP_READ` without `AIO4C_HAVE_POLL`. -/
def opRead : Int16 := 1

/-- `AIO4C_OP_WRITE` without `AIO4C_HAVE_POLL`. -/
def opWrite : Int16 := 2

/-- `AIO4C_OP_ERROR` without `AIO4C_HAVE_POLL`. -/
def opError : Int16 := 4

/-- A slot with the same interests in the codes of this build. -/
def recode (poll : Poll) : Poll :=
  { poll with events :=
      (if poll.events &&& Aio4c.opRead ≠ 0 then opRead else 0) |||
        (if poll.events &&& Aio4c.opWrite ≠ 0 then opWrite else 0) }

/-- `rSet`, `wSet` and `eSet` with the memory behind them. -/
abbrev FdSets := ReadyFlag → Int → Bool

/-- `FD_ZERO` of the three sets: it does not reach beyond `FD_SETSIZE`. -/
def fdZero (fdSetSize : Int) (memory : FdSets) : FdSets := fun flag fd =>
  if 0 ≤ fd ∧ fd < fdSetSize then false else memory flag fd

def fdSet (sets : FdSets) (flag : ReadyFlag) (fd : Int) : FdSets :=
  Function.update sets flag (Function.update (sets flag) fd true)

/-- One round of the loop that builds the sets, with `maxFd`. -/
def addDescriptor (fdSetSize : Int) (state : FdSets × Int) (poll : Poll) : FdSets × Int :=
  if poll.fd ≥ fdSetSize then state
  else
    let sets := if poll.events &&& opRead ≠ 0 then fdSet state.1 .read poll.fd else state.1
    let sets := if poll.events &&& opWrite ≠ 0 then fdSet sets .write poll.fd else sets
    let fdAdded := poll.events &&& opRead ≠ 0 ∨ poll.events &&& opWrite ≠ 0
    if fdAdded then
      (fdSet sets .error poll.fd, if poll.fd > state.2 then poll.fd else state.2)
    else (sets, state.2)

/-- The sets that are passed to `select`, and `maxFd` before its increment. -/
def buildSets (fdSetSize : Int) (memory : FdSets) (pipe : Int) (table : List Poll) : FdSets × Int :=
  table.foldl (addDescriptor fdSetSize) (fdSet (fdZero fdSetSize memory) .read pipe, pipe)

/-- `select`: the bits below `nfds` that stay are those of ready descriptors. -/
def selectLeaves (ready : Readiness) (nfds : Int) (sets : FdSets) : FdSets := fun flag fd =>
  if 0 ≤ fd ∧ fd < nfds then sets flag fd && ready fd flag else sets flag fd

/-- The value of `select`: the total number of bits left. -/
def selectCount (nfds : Int) (sets : FdSets) : Nat :=
  (readyFlags.map fun flag => (List.range nfds.toNat).countP fun fd : Nat => sets flag fd).sum

/-- One round of the loop over the results. -/
def readSets (sets : FdSets) (poll : Poll) : Poll :=
  { poll with revents :=
      (if sets .read poll.fd then opRead else 0) ||| (if sets .write poll.fd then opWrite else 0) |||
        (if sets .error poll.fd then opError else 0) }

/-- The value returned, the table left, and every descriptor given to `FD_ISSET`. -/
structure Result where
  nbPolls : Int
  table : List Poll
  tested : List Int

/-- `_Select` without `AIO4C_HAVE_POLL`. -/
def select (ready : Readiness) (fdSetSize : Int) (memory : FdSets) (pipe : Int)
    (table : List Poll) : Result :=
  let built := buildSets fdSetSize memory pipe table
  let left := selectLeaves ready (built.2 + 1) built.1
  let nbPolls : Int := selectCount (built.2 + 1) left
  { nbPolls := if left .read pipe then nbPolls - 1 else nbPolls
    table := table.map (readSets left)
    tested := pipe :: table.flatMap fun poll => [poll.fd, poll.fd, poll.fd] }

end SelectBuild

/-! ## What the two have in common -/

/-- A table as `Register` and `Unregister` keep it: the slot of the pipe, then one slot for each
registered descriptor, with an interest. -/
structure Selector.WellFormed (selector : Selector) : Prop where
  size : selector.numPolls = selector.table.length
  pipe : ∃ slot slots, selector.table = slot :: slots ∧ slot.fd = selector.pipe ∧
    slot.events = opRead
  distinct : (selector.table.map Poll.fd).Nodup
  valid : ∀ poll ∈ selector.table, 0 ≤ poll.fd
  interests : ∀ poll ∈ selector.table, poll.events &&& opRead ≠ 0 ∨ poll.events &&& opWrite ≠ 0

/-- The selector with the slots that the build with `select` does not ignore. -/
def Selector.restricted (selector : Selector) (fdSetSize : Int) : Selector :=
  { selector with
    polls := selector.table.filter fun poll => decide (poll.fd < fdSetSize)
    numPolls := (selector.table.filter fun poll => decide (poll.fd < fdSetSize)).length }

/-- A key, which owns a slot behind the first one, has positive `revents`. -/
def ReadyKey (table : List Poll) (fd : Int) : Prop :=
  ∃ poll ∈ table.tail, poll.fd = fd ∧ 0 < poll.revents

/-- Of the flags a slot requests and the error flag, at most one is ready. -/
def Poll.ReadyOnce (ready : Readiness) (poll : Poll) : Prop :=
  ¬ (poll.events &&& opRead ≠ 0 ∧ ready poll.fd .read = true ∧
      poll.events &&& opWrite ≠ 0 ∧ ready poll.fd .write = true) ∧
    ¬ (ready poll.fd .error = true ∧
      (poll.events &&& opRead ≠ 0 ∧ ready poll.fd .read = true ∨
        poll.events &&& opWrite ≠ 0 ∧ ready poll.fd .write = true))

instance (ready : Readiness) (poll : Poll) : Decidable (poll.ReadyOnce ready) :=
  inferInstanceAs (Decidable (_ ∧ _))

/-- The build with `select` returns the count and leaves the ready keys of the build with
`poll`, and tests no descriptor beyond the sets. -/
structure BackEndsAgree (ready : Readiness) (fdSetSize : Int) (memory : SelectBuild.FdSets)
    (selector : Selector) : Prop where
  count : (SelectBuild.select ready fdSetSize memory selector.pipe
      (selector.table.map SelectBuild.recode)).nbPolls =
    (pollSelect ready (selector.restricted fdSetSize)).1
  keys : ∀ fd, ReadyKey (SelectBuild.select ready fdSetSize memory selector.pipe
      (selector.table.map SelectBuild.recode)).table fd ↔
    ReadyKey (pollSelect ready (selector.restricted fdSetSize)).2.table fd
  tests : ∀ fd ∈ (SelectBuild.select ready fdSetSize memory selector.pipe
      (selector.table.map SelectBuild.recode)).tested, fd < fdSetSize

/-! ## Flags and codes -/

/-- A slot requests a flag; errors are reported unasked. -/
def Poll.requests (poll : Poll) : ReadyFlag → Bool
  | .read => decide (poll.events &&& opRead ≠ 0)
  | .write => decide (poll.events &&& opWrite ≠ 0)
  | .error => true

def Poll.signals (ready : Readiness) (flag : ReadyFlag) (poll : Poll) : Bool :=
  poll.requests flag && ready poll.fd flag

theorem pollReport_eq (ready : Readiness) (poll : Poll) :
    pollReport ready poll =
      (if poll.signals ready .read then opRead else 0) |||
        (if poll.signals ready .write then opWrite else 0) |||
        (if poll.signals ready .error then opError else 0) := by
  simp [pollReport, Poll.signals, Poll.requests]

theorem pollReport_ne_zero (ready : Readiness) (poll : Poll) :
    decide (pollReport ready poll ≠ 0) = readyFlags.any fun flag => poll.signals ready flag := by
  rw [pollReport_eq]
  simp only [readyFlags, List.any_cons, List.any_nil]
  cases poll.signals ready .read <;> cases poll.signals ready .write <;>
    cases poll.signals ready .error <;> decide

theorem pollReport_pos (ready : Readiness) (poll : Poll) :
    0 < pollReport ready poll ↔ (readyFlags.any fun flag => poll.signals ready flag) = true := by
  rw [pollReport_eq]
  simp only [readyFlags, List.any_cons, List.any_nil]
  cases poll.signals ready .read <;> cases poll.signals ready .write <;>
    cases poll.signals ready .error <;> decide

/-- Only the pipe's readiness sets the bit that the wake-up is read from. -/
theorem pollReport_read (ready : Readiness) {poll : Poll} (events : poll.events = opRead) :
    pollReport ready poll &&& opRead ≠ 0 ↔ ready poll.fd .read = true := by
  have own : poll.signals ready .read = ready poll.fd .read := by
    rw [Poll.signals, Poll.requests, events]
    rfl
  rw [pollReport_eq, ← own]
  cases poll.signals ready .read <;> cases poll.signals ready .write <;>
    cases poll.signals ready .error <;> decide

theorem readyOnce_iff (ready : Readiness) (poll : Poll) :
    poll.ReadyOnce ready ↔ (readyFlags.countP fun flag => poll.signals ready flag) ≤ 1 := by
  have read : poll.events &&& opRead ≠ 0 ∧ ready poll.fd .read = true ↔
      poll.signals ready .read = true := by simp [Poll.signals, Poll.requests]
  have write : poll.events &&& opWrite ≠ 0 ∧ ready poll.fd .write = true ↔
      poll.signals ready .write = true := by simp [Poll.signals, Poll.requests]
  have error : ready poll.fd .error = true ↔ poll.signals ready .error = true := by
    simp [Poll.signals, Poll.requests]
  rw [Poll.ReadyOnce, ← and_assoc, read, write, error]
  cases first : poll.signals ready .read <;> cases second : poll.signals ready .write <;>
    cases third : poll.signals ready .error <;>
    simp [readyFlags, first, second, third]

namespace SelectBuild

/-- What a slot asks of the sets. -/
def wants (poll : Poll) : ReadyFlag → Bool
  | .read => decide (poll.events &&& opRead ≠ 0)
  | .write => decide (poll.events &&& opWrite ≠ 0)
  | .error => decide (poll.events &&& opRead ≠ 0 ∨ poll.events &&& opWrite ≠ 0)

theorem wants_recode {poll : Poll}
    (interest : poll.events &&& Aio4c.opRead ≠ 0 ∨ poll.events &&& Aio4c.opWrite ≠ 0)
    (flag : ReadyFlag) : wants (recode poll) flag = poll.requests flag := by
  by_cases read : poll.events &&& Aio4c.opRead = 0 <;>
    by_cases write : poll.events &&& Aio4c.opWrite = 0
  · simp [read, write] at interest
  all_goals
    cases flag <;>
      simp only [wants, recode, Poll.requests, ne_eq, read, write, not_true_eq_false,
        not_false_eq_true, if_true, if_false] <;>
      decide

theorem readSets_pos (sets : FdSets) (poll : Poll) :
    0 < (readSets sets poll).revents ↔
      (readyFlags.any fun flag => sets flag poll.fd) = true := by
  simp only [readSets, readyFlags, List.any_cons, List.any_nil]
  cases sets .read poll.fd <;> cases sets .write poll.fd <;> cases sets .error poll.fd <;> decide

/-! ## The sets that are built -/

theorem fdSet_apply (sets : FdSets) (flag : ReadyFlag) (fd : Int) (other : ReadyFlag)
    (value : Int) :
    fdSet sets flag fd other value = (sets other value || decide (other = flag ∧ fd = value)) := by
  by_cases sameFlag : other = flag
  · subst sameFlag
    by_cases sameFd : fd = value
    · subst sameFd
      simp [fdSet]
    · simp [fdSet, sameFd, Function.update_of_ne (Ne.symm sameFd)]
  · simp [fdSet, sameFlag]

theorem addDescriptor_sets (fdSetSize : Int) (state : FdSets × Int) (poll : Poll)
    (flag : ReadyFlag) (fd : Int) :
    (addDescriptor fdSetSize state poll).1 flag fd =
      (state.1 flag fd ||
        decide (poll.fd = fd) && (decide (poll.fd < fdSetSize) && wants poll flag)) := by
  by_cases ignored : poll.fd ≥ fdSetSize
  · simp [addDescriptor, ignored, Int.not_lt.mpr ignored]
  · have inside : poll.fd < fdSetSize := Int.not_le.mp ignored
    by_cases read : poll.events &&& opRead = 0 <;> by_cases write : poll.events &&& opWrite = 0 <;>
      cases flag <;> simp [addDescriptor, ignored, inside, read, write, wants, fdSet_apply]

theorem addDescriptor_maxFd (fdSetSize : Int) (state : FdSets × Int) (poll : Poll) :
    state.2 ≤ (addDescriptor fdSetSize state poll).2 ∧
      (poll.fd < fdSetSize → wants poll .error = true →
        poll.fd ≤ (addDescriptor fdSetSize state poll).2) ∧
      (state.2 < fdSetSize → (addDescriptor fdSetSize state poll).2 < fdSetSize) := by
  by_cases ignored : poll.fd ≥ fdSetSize
  · simp only [addDescriptor, if_pos ignored]
    exact ⟨Int.le_refl _, fun inside => absurd ignored (Int.not_le.mpr inside), fun below => below⟩
  · simp only [addDescriptor, if_neg ignored, wants, decide_eq_true_eq]
    split
    · simp only
      split <;> omega
    · next idle =>
        exact ⟨Int.le_refl _, fun _ added => absurd added idle, fun below => below⟩

theorem addDescriptors_sets (fdSetSize : Int) (state : FdSets × Int) (table : List Poll)
    (flag : ReadyFlag) (fd : Int) :
    (table.foldl (addDescriptor fdSetSize) state).1 flag fd =
      (state.1 flag fd || table.any fun poll =>
        decide (poll.fd = fd) && (decide (poll.fd < fdSetSize) && wants poll flag)) := by
  induction table generalizing state with
  | nil => simp
  | cons poll table ih => rw [List.foldl_cons, ih, addDescriptor_sets, List.any_cons, Bool.or_assoc]

theorem addDescriptors_maxFd (fdSetSize : Int) (state : FdSets × Int) (table : List Poll) :
    state.2 ≤ (table.foldl (addDescriptor fdSetSize) state).2 ∧
      (∀ poll ∈ table, poll.fd < fdSetSize → wants poll .error = true →
        poll.fd ≤ (table.foldl (addDescriptor fdSetSize) state).2) ∧
      (state.2 < fdSetSize → (table.foldl (addDescriptor fdSetSize) state).2 < fdSetSize) := by
  induction table generalizing state with
  | nil => exact ⟨Int.le_refl _, by simp, fun below => below⟩
  | cons poll table ih =>
      obtain ⟨grows, covers, inside⟩ := addDescriptor_maxFd fdSetSize state poll
      obtain ⟨grows', covers', inside'⟩ := ih (addDescriptor fdSetSize state poll)
      rw [List.foldl_cons]
      refine ⟨Int.le_trans grows grows', ?_, fun below => inside' (inside below)⟩
      intro other member
      rcases List.mem_cons.mp member with rfl | later
      · exact fun below added => Int.le_trans (covers below added) grows'
      · exact covers' other later

end SelectBuild

/-! ## A table without ignored descriptors -/

/-- The sets that `select` leaves. -/
def Selector.leftSets (selector : Selector) (ready : Readiness) (fdSetSize : Int)
    (memory : SelectBuild.FdSets) : SelectBuild.FdSets :=
  SelectBuild.selectLeaves ready
    ((SelectBuild.buildSets fdSetSize memory selector.pipe
      (selector.table.map SelectBuild.recode)).2 + 1)
    (SelectBuild.buildSets fdSetSize memory selector.pipe
      (selector.table.map SelectBuild.recode)).1

namespace Selector.WellFormed

variable {selector : Selector}

theorem eq_of_fd (wellFormed : selector.WellFormed) {poll other : Poll}
    (member : poll ∈ selector.table) (member' : other ∈ selector.table)
    (same : poll.fd = other.fd) : poll = other :=
  List.inj_on_of_nodup_map wellFormed.distinct member member' same

theorem distinct_toNat (wellFormed : selector.WellFormed) :
    (selector.table.map fun poll => poll.fd.toNat).Nodup := by
  apply List.Nodup.map_on ?_ (List.Nodup.of_map _ wellFormed.distinct)
  intro poll member other member' same
  have first := wellFormed.valid poll member
  have second := wellFormed.valid other member'
  exact wellFormed.eq_of_fd member member' (by omega)

theorem pipe_slot (wellFormed : selector.WellFormed) :
    ∃ slot ∈ selector.table, slot.fd = selector.pipe ∧ slot.requests .read = true := by
  obtain ⟨slot, slots, shape, fd, events⟩ := wellFormed.pipe
  refine ⟨slot, by simp [shape], fd, ?_⟩
  rw [Poll.requests, events]
  rfl

/-- What the first loop puts into a set, with the pipe, are the requests of the table. -/
theorem built_sets (wellFormed : selector.WellFormed) {fdSetSize : Int}
    (inside : ∀ poll ∈ selector.table, poll.fd < fdSetSize) (memory : SelectBuild.FdSets)
    {fd : Int} (lower : 0 ≤ fd) (upper : fd < fdSetSize) (flag : ReadyFlag) :
    (SelectBuild.buildSets fdSetSize memory selector.pipe
        (selector.table.map SelectBuild.recode)).1 flag fd =
      selector.table.any fun poll => decide (poll.fd = fd) && poll.requests flag := by
  have wanted : ((selector.table.map SelectBuild.recode).any fun poll =>
      decide (poll.fd = fd) && (decide (poll.fd < fdSetSize) && SelectBuild.wants poll flag)) =
      selector.table.any fun poll => decide (poll.fd = fd) && poll.requests flag := by
    rw [List.any_map, Bool.eq_iff_iff, List.any_eq_true, List.any_eq_true]
    refine exists_congr fun poll => and_congr_right fun member => ?_
    have below : (SelectBuild.recode poll).fd < fdSetSize := inside poll member
    simp only [Function.comp_apply, below, decide_true, Bool.true_and,
      SelectBuild.wants_recode (wellFormed.interests poll member)]
    rfl
  rw [SelectBuild.buildSets, SelectBuild.addDescriptors_sets, wanted]
  simp only [SelectBuild.fdSet_apply, SelectBuild.fdZero, if_pos (And.intro lower upper),
    Bool.false_or, Bool.or_eq_right_iff_imp, decide_eq_true_eq]
  intro ⟨read, pipe⟩
  obtain ⟨slot, member, own, requests⟩ := wellFormed.pipe_slot
  exact List.any_eq_true.mpr ⟨slot, member, by simp [own, pipe, read, requests]⟩

/-- Every descriptor of the table is below `nfds`, and `nfds` is inside the sets. -/
theorem built_maxFd (wellFormed : selector.WellFormed) {fdSetSize : Int}
    (inside : ∀ poll ∈ selector.table, poll.fd < fdSetSize) (memory : SelectBuild.FdSets) :
    (∀ poll ∈ selector.table, poll.fd ≤ (SelectBuild.buildSets fdSetSize memory selector.pipe
        (selector.table.map SelectBuild.recode)).2) ∧
      (SelectBuild.buildSets fdSetSize memory selector.pipe
        (selector.table.map SelectBuild.recode)).2 < fdSetSize := by
  obtain ⟨_, covers, bounded⟩ := SelectBuild.addDescriptors_maxFd fdSetSize
    (SelectBuild.fdSet (SelectBuild.fdZero fdSetSize memory) .read selector.pipe, selector.pipe)
    (selector.table.map SelectBuild.recode)
  obtain ⟨slot, member, own, _⟩ := wellFormed.pipe_slot
  refine ⟨fun poll listed => ?_, bounded (own ▸ inside slot member)⟩
  refine covers (SelectBuild.recode poll) (List.mem_map_of_mem listed) (inside poll listed) ?_
  rw [SelectBuild.wants_recode (wellFormed.interests poll listed)]
  rfl

variable {ready : Readiness} {fdSetSize : Int} {memory : SelectBuild.FdSets}

theorem left_eq (wellFormed : selector.WellFormed)
    (inside : ∀ poll ∈ selector.table, poll.fd < fdSetSize) {fd : Int} (lower : 0 ≤ fd)
    (upper : fd < (SelectBuild.buildSets fdSetSize memory selector.pipe
      (selector.table.map SelectBuild.recode)).2 + 1) (flag : ReadyFlag) :
    selector.leftSets ready fdSetSize memory flag fd =
      selector.table.any fun poll => decide (poll.fd = fd) && poll.signals ready flag := by
  have within := (wellFormed.built_maxFd inside memory).2
  rw [Selector.leftSets, SelectBuild.selectLeaves, if_pos ⟨lower, upper⟩,
    wellFormed.built_sets inside memory lower (by omega), Bool.eq_iff_iff]
  simp only [Bool.and_eq_true, List.any_eq_true, decide_eq_true_eq, Poll.signals]
  constructor
  · intro ⟨⟨poll, member, same, requests⟩, isReady⟩
    exact ⟨poll, member, same, requests, same ▸ isReady⟩
  · intro ⟨poll, member, same, requests, isReady⟩
    exact ⟨⟨poll, member, same, requests⟩, same ▸ isReady⟩

theorem left_slot (wellFormed : selector.WellFormed)
    (inside : ∀ poll ∈ selector.table, poll.fd < fdSetSize) {poll : Poll}
    (member : poll ∈ selector.table) (flag : ReadyFlag) :
    selector.leftSets ready fdSetSize memory flag poll.fd = poll.signals ready flag := by
  have covered := (wellFormed.built_maxFd inside memory).1 poll member
  rw [wellFormed.left_eq inside (wellFormed.valid poll member) (by omega), Bool.eq_iff_iff]
  simp only [List.any_eq_true, Bool.and_eq_true, decide_eq_true_eq]
  constructor
  · intro ⟨other, member', same, signals⟩
    exact wellFormed.eq_of_fd member' member same ▸ signals
  · intro signals
    exact ⟨poll, member, rfl, signals⟩

/-- The value of `select` counts each slot once for every flag it signals. -/
theorem left_count (wellFormed : selector.WellFormed)
    (inside : ∀ poll ∈ selector.table, poll.fd < fdSetSize) :
    SelectBuild.selectCount ((SelectBuild.buildSets fdSetSize memory selector.pipe
        (selector.table.map SelectBuild.recode)).2 + 1) (selector.leftSets ready fdSetSize memory) =
      (readyFlags.map fun flag => selector.table.countP (Poll.signals ready flag)).sum := by
  unfold SelectBuild.selectCount
  refine congrArg List.sum (List.map_congr_left fun flag _ => ?_)
  rw [← countP_range_eq selector.table (fun poll => poll.fd.toNat) _ (Poll.signals ready flag)
    wellFormed.distinct_toNat]
  · apply List.countP_congr
    intro fd member
    have below := List.mem_range.mp member
    rw [wellFormed.left_eq inside (by omega) (by omega)]
    simp only [List.any_eq_true, Bool.and_eq_true, decide_eq_true_eq]
    refine exists_congr fun poll => and_congr_right fun listed => and_congr_left fun _ => ?_
    have valid := wellFormed.valid poll listed
    omega
  · intro poll member _
    have covered := (wellFormed.built_maxFd inside memory).1 poll member
    have valid := wellFormed.valid poll member
    omega

end Selector.WellFormed

theorem pollCall_slots (ready : Readiness) (table : List Poll) :
    (table.mapIdx fun i poll => if (i : Int) < table.length then
        { poll with revents := (pollCall ready table).2 i } else poll) =
      table.map fun poll => { poll with revents := pollReport ready poll } := by
  apply List.ext_getElem (by simp)
  intro i _ below
  rw [List.length_map] at below
  rw [List.getElem_mapIdx, List.getElem_map, if_pos (by omega)]
  simp [pollCall, below]

/-- What the build with `poll` makes of a whole table. -/
theorem pollSelect_table (ready : Readiness) {selector : Selector} {slot : Poll} {slots : List Poll}
    (polls : selector.polls = slot :: slots) (numPolls : selector.numPolls = (slot :: slots).length)
    (events : slot.events = opRead) :
    (pollSelect ready selector).1 =
        ((slot :: slots).countP fun poll => readyFlags.any fun flag => poll.signals ready flag) -
          (if ready slot.fd .read = true then 1 else 0) ∧
      (pollSelect ready selector).2.table.tail =
        slots.map fun poll => { poll with revents := pollReport ready poll } := by
  have whole : selector.table = slot :: slots := by
    rw [Selector.table, polls, numPolls]
    exact List.take_length
  have reports := pollCall_slots ready (slot :: slots)
  have count : (pollCall ready (slot :: slots)).1 =
      ((slot :: slots).countP fun poll => readyFlags.any fun flag => poll.signals ready flag) := by
    simp only [pollCall, pollReport_ne_zero]
  have wakes : (pollCall ready (slot :: slots)).2 0 &&& opRead ≠ 0 ↔
      ready slot.fd .read = true := pollReport_read ready events
  rw [pollSelect, whole, Aio4c.select, polls, numPolls, reports, count]
  simp only [wakes]
  split
  · refine ⟨rfl, ?_⟩
    simp [Selector.table]
  · refine ⟨by simp, ?_⟩
    simp [Selector.table]

theorem Selector.restricted_table {selector : Selector} {fdSetSize : Int}
    (inside : ∀ poll ∈ selector.table, poll.fd < fdSetSize) :
    (selector.restricted fdSetSize).polls = selector.table ∧
      (selector.restricted fdSetSize).numPolls = selector.table.length := by
  have whole : (selector.table.filter fun poll => decide (poll.fd < fdSetSize)) = selector.table := by
    apply List.filter_eq_self.mpr
    intro poll member
    exact decide_eq_true (inside poll member)
  exact ⟨whole, by simp only [Selector.restricted, whole]⟩

namespace Selector.WellFormed

variable {selector : Selector} {ready : Readiness} {fdSetSize : Int} {memory : SelectBuild.FdSets}

/-- The ready keys of the two builds are those with a flag they signal. -/
theorem select_keys (wellFormed : selector.WellFormed)
    (inside : ∀ poll ∈ selector.table, poll.fd < fdSetSize) (fd : Int) :
    ReadyKey (SelectBuild.select ready fdSetSize memory selector.pipe
        (selector.table.map SelectBuild.recode)).table fd ↔
      ReadyKey (pollSelect ready (selector.restricted fdSetSize)).2.table fd := by
  obtain ⟨slot, slots, shape, own, events⟩ := wellFormed.pipe
  obtain ⟨polls, numPolls⟩ := Selector.restricted_table inside
  obtain ⟨_, reports⟩ := pollSelect_table ready (polls.trans shape) (shape ▸ numPolls) events
  have signalled : ∀ poll ∈ slots,
      (0 < (SelectBuild.readSets (selector.leftSets ready fdSetSize memory)
          (SelectBuild.recode poll)).revents ↔ 0 < pollReport ready poll) := by
    intro poll member
    have listed : poll ∈ selector.table := by simp [shape, member]
    have sets : ∀ flag, selector.leftSets ready fdSetSize memory flag (SelectBuild.recode poll).fd =
        poll.signals ready flag := wellFormed.left_slot inside listed
    rw [SelectBuild.readSets_pos, pollReport_pos]
    simp only [sets]
  have table : (SelectBuild.select ready fdSetSize memory selector.pipe
      (selector.table.map SelectBuild.recode)).table.tail =
      slots.map fun poll => SelectBuild.readSets (selector.leftSets ready fdSetSize memory)
        (SelectBuild.recode poll) := by
    change ((selector.table.map SelectBuild.recode).map
      (SelectBuild.readSets (selector.leftSets ready fdSetSize memory))).tail = _
    rw [shape]
    simp
  simp only [ReadyKey, reports, table, List.mem_map, exists_exists_and_eq_and]
  exact exists_congr fun poll => and_congr_right fun member =>
    and_congr Iff.rfl (signalled poll member)

/-- The counts agree exactly if no slot has two bits in the sets that are left. -/
theorem select_count (wellFormed : selector.WellFormed)
    (inside : ∀ poll ∈ selector.table, poll.fd < fdSetSize) :
    (SelectBuild.select ready fdSetSize memory selector.pipe
        (selector.table.map SelectBuild.recode)).nbPolls =
      (pollSelect ready (selector.restricted fdSetSize)).1 ↔
      ∀ poll ∈ selector.table, poll.ReadyOnce ready := by
  obtain ⟨slot, slots, shape, own, events⟩ := wellFormed.pipe
  obtain ⟨polls, numPolls⟩ := Selector.restricted_table inside
  obtain ⟨count, _⟩ := pollSelect_table ready (polls.trans shape) (shape ▸ numPolls) events
  have woken : selector.leftSets ready fdSetSize memory .read selector.pipe =
      ready selector.pipe .read := by
    rw [← own, wellFormed.left_slot inside (by simp [shape]), Poll.signals, Poll.requests, events]
    rfl
  have bits : (SelectBuild.select ready fdSetSize memory selector.pipe
      (selector.table.map SelectBuild.recode)).nbPolls =
      ((readyFlags.map fun flag => selector.table.countP (Poll.signals ready flag)).sum : Nat) -
        (if ready selector.pipe .read = true then 1 else 0) := by
    have counted := @left_count selector ready fdSetSize memory wellFormed inside
    have value : (SelectBuild.select ready fdSetSize memory selector.pipe
        (selector.table.map SelectBuild.recode)).nbPolls =
        if selector.leftSets ready fdSetSize memory .read selector.pipe then
          (SelectBuild.selectCount _ (selector.leftSets ready fdSetSize memory) : Int) - 1
        else SelectBuild.selectCount _ (selector.leftSets ready fdSetSize memory) := rfl
    rw [value, counted, woken]
    split <;> simp
  rw [bits, count, ← shape, own]
  simp only [readyOnce_iff]
  rw [← sum_countP_eq_iff readyFlags (Poll.signals ready) selector.table]
  constructor <;> intro equal <;> omega

theorem select_tests (wellFormed : selector.WellFormed) :
    (∀ fd ∈ (SelectBuild.select ready fdSetSize memory selector.pipe
        (selector.table.map SelectBuild.recode)).tested, fd < fdSetSize) ↔
      ∀ poll ∈ selector.table, poll.fd < fdSetSize := by
  obtain ⟨slot, slots, shape, own, _⟩ := wellFormed.pipe
  simp only [SelectBuild.select, List.mem_cons, List.mem_flatMap, List.mem_map]
  constructor
  · intro tests poll member
    exact tests poll.fd (.inr ⟨SelectBuild.recode poll, ⟨poll, member, rfl⟩, .inl rfl⟩)
  · intro inside fd tested
    rcases tested with rfl | ⟨_, ⟨poll, member, rfl⟩, same⟩
    · exact own ▸ inside slot (by simp [shape])
    · have equal : fd = poll.fd := by simpa [SelectBuild.recode] using same
      exact equal ▸ inside poll member

end Selector.WellFormed

/-! ## The table of a selector that represents a registry -/

namespace Selector.Represents

variable {selector : Selector} {registry : Registry}

theorem table_length (represents : selector.Represents registry) :
    selector.table.length = 1 + selector.busyKeys.length := by
  have total := represents.numPolls
  have capacity := represents.capacity
  have length := represents.table
  rw [Selector.table, List.length_take]
  omega

/-- The first slot is the pipe's, each other one belongs to a key. -/
theorem table_slot (represents : selector.Represents registry) {i : Nat} {poll : Poll}
    (found : selector.table[i]? = some poll) :
    (i = 0 ∧ poll.fd = selector.pipe ∧ poll.events = opRead) ∨
      ∃ k node key, i = k + 1 ∧ selector.busyKeys[k]? = some node ∧
        KeySlot selector registry k node key poll := by
  have total := represents.numPolls
  have size := represents.table_length
  have below := (List.getElem?_eq_some_iff.mp found).1
  rw [Selector.table, List.getElem?_take_of_lt (by omega)] at found
  cases i with
  | zero =>
      obtain ⟨first, located, own, events⟩ := represents.pipe
      simp only [pollAt, Int.le_refl, if_true, Int.toNat_zero] at located
      have same : poll = first := Option.some.inj (found.symm.trans located)
      exact .inl ⟨rfl, same ▸ own, same ▸ events⟩
  | succ k =>
      obtain ⟨node, place⟩ : ∃ node, selector.busyKeys[k]? = some node :=
        ⟨_, List.getElem?_eq_getElem (by omega)⟩
      obtain ⟨key, slot, here⟩ := represents.slots k node place
      have located := here.located
      rw [pollAt, if_pos (by omega)] at located
      have same : slot = poll := Option.some.inj (located.symm.trans found)
      exact .inr ⟨k, node, key, rfl, place, same ▸ here⟩

theorem table_distinct (represents : selector.Represents registry)
    (apart : ∀ fd registration, registry fd = some registration → fd ≠ selector.pipe) :
    (selector.table.map Poll.fd).Nodup := by
  rw [List.nodup_iff_pairwise_ne, List.pairwise_map, List.pairwise_iff_getElem]
  intro i j below below' before same
  rcases represents.table_slot (List.getElem?_eq_getElem below') with
    ⟨zero, _⟩ | ⟨l, other, key', rfl, place', there⟩
  · omega
  · rcases represents.table_slot (List.getElem?_eq_getElem below) with
      ⟨_, own, _⟩ | ⟨k, node, key, rfl, place, here⟩
    · rw [own, there.descriptor] at same
      exact apart _ _ there.registered same.symm
    · have fds : key'.fd = key.fd := by rw [← there.descriptor, ← here.descriptor, same]
      have nodes := here.fd_injective there fds
      subst nodes
      have indices := (List.getElem?_inj (List.getElem?_eq_some_iff.mp place).1
        represents.busyNodup).mp (place.trans place'.symm)
      omega

/-- A registry of valid descriptors makes a well-formed table. -/
theorem wellFormed (represents : selector.Represents registry) (pipe : 0 ≤ selector.pipe)
    (valid : ∀ fd registration, registry fd = some registration → 0 ≤ fd ∧ fd ≠ selector.pipe ∧
      (registration.operation &&& opRead ≠ 0 ∨ registration.operation &&& opWrite ≠ 0)) :
    selector.WellFormed := by
  have total := represents.numPolls
  have size := represents.table_length
  refine ⟨by omega, ?_, represents.table_distinct fun fd registration known =>
    (valid fd registration known).2.1, ?_, ?_⟩
  · cases shape : selector.table with
    | nil =>
        rw [shape, List.length_nil] at size
        omega
    | cons slot slots =>
        rcases represents.table_slot (show selector.table[0]? = some slot by simp [shape]) with
          ⟨_, own, events⟩ | ⟨k, _, _, successor, _⟩
        · exact ⟨slot, slots, rfl, own, events⟩
        · omega
  · intro poll member
    obtain ⟨i, found⟩ := List.mem_iff_getElem?.mp member
    rcases represents.table_slot found with ⟨_, own, _⟩ | ⟨k, node, key, _, _, here⟩
    · exact own ▸ pipe
    · exact here.descriptor ▸ (valid _ _ here.registered).1
  · intro poll member
    obtain ⟨i, found⟩ := List.mem_iff_getElem?.mp member
    rcases represents.table_slot found with ⟨_, _, events⟩ | ⟨k, node, key, _, _, here⟩
    · rw [events]
      exact .inl (by decide)
    · rw [here.interest]
      exact (valid _ _ here.registered).2.2

end Selector.Represents

/-! ## The comparison -/

/-- The two builds agree exactly if every descriptor, the pipe's too, is below `FD_SETSIZE`,
and no descriptor is ready for two of the flags it signals. -/
theorem backEnds_agree_iff {selector : Selector} (wellFormed : selector.WellFormed)
    (ready : Readiness) (fdSetSize : Int) (memory : SelectBuild.FdSets) :
    BackEndsAgree ready fdSetSize memory selector ↔
      ∀ poll ∈ selector.table, poll.fd < fdSetSize ∧ poll.ReadyOnce ready := by
  constructor
  · intro agree
    have inside := wellFormed.select_tests.mp agree.tests
    intro poll member
    exact ⟨inside poll member, (wellFormed.select_count inside).mp agree.count poll member⟩
  · intro condition
    have inside : ∀ poll ∈ selector.table, poll.fd < fdSetSize :=
      fun poll member => (condition poll member).1
    exact ⟨(wellFormed.select_count inside).mpr fun poll member => (condition poll member).2,
      wellFormed.select_keys inside, wellFormed.select_tests.mpr inside⟩

/-- A table with the pipe and one key, which waits on descriptor 5 to be read. -/
def oneReader : Selector :=
  { newSelector 3 with
    polls := [⟨3, opRead, 0⟩, ⟨5, opRead, 0⟩]
    numPolls := 2, maxPolls := 2 }

theorem oneReader_wellFormed : oneReader.WellFormed :=
  ⟨rfl, ⟨_, _, rfl, rfl, rfl⟩, by decide, by decide, by decide⟩

/-- Descriptor 5 can be read. -/
def readable : Readiness := fun fd flag => decide (fd = 5 ∧ flag = .read)

theorem backEnds_agree_readable :
    oneReader.WellFormed ∧ BackEndsAgree readable 1024 (fun _ _ => false) oneReader :=
  ⟨oneReader_wellFormed,
    (backEnds_agree_iff oneReader_wellFormed readable 1024 fun _ _ => false).mpr (by decide)⟩

/-- Descriptor 5 can be read and is in error: `select` leaves two bits for it. -/
theorem backEnds_disagree :
    oneReader.WellFormed ∧
      ¬ BackEndsAgree (fun fd flag => decide (fd = 5 ∧ flag ≠ .write)) 1024 (fun _ _ => false)
        oneReader := by
  refine ⟨oneReader_wellFormed, fun agree => ?_⟩
  exact absurd agree.count (by decide)

end Aio4c
