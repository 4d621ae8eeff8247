import Radvd.Schedule

/-!
# An iteration of the main loop

`main_loop` waits with `ppoll` until the earliest deadline, and then handles what
the descriptors have, or the timer if they have nothing, or neither of both if a
signal interrupted the wait. An iteration is a sequence of the steps of
`Radvd.Schedule` (`LoopState.Iterates`).

So a timer whose deadline has passed is only handled in an iteration that finds
nothing to read (`servesExpired_iff`), and packets that keep arriving hold it up
for as long as they do (`starves_flooded`).
-/

namespace Radvd

open Wire Runs

/-! ## The interface to expire next -/

/-- The loop of `find_iface_by_time`, with the places in the list. -/
def nextIfaceFrom (now : Timespec) (timeout : Int) (next : Nat × Interface) (position : Nat) :
    List Interface → Nat × Interface
  | [] => next
  | iface :: rest =>
      let t := narrowToInt (nextTimeMsec now iface)
      if timeout > t then nextIfaceFrom now t (position, iface) (position + 1) rest
      else nextIfaceFrom now timeout next (position + 1) rest

/-- The variable `next_iface_to_expire` of `main_loop`. -/
def nextIfaceToExpire (now : Timespec) : List Interface → Option (Nat × Interface)
  | [] => none
  | iface :: rest =>
      some (nextIfaceFrom now (narrowToInt (nextTimeMsec now iface)) (0, iface) 1 rest)

section

variable {now : Timespec} {ifaces : List Interface}

theorem nextIfaceFrom_snd (timeout : Int) (next : Nat × Interface) (position : Nat) :
    (nextIfaceFrom now timeout next position ifaces).2 =
      findIfaceByTimeFrom now timeout next.2 ifaces := by
  induction ifaces generalizing timeout next position with
  | nil => rfl
  | cons iface rest ih =>
      unfold nextIfaceFrom findIfaceByTimeFrom
      dsimp only
      split <;> rw [ih]

theorem nextIfaceToExpire_snd :
    (nextIfaceToExpire now ifaces).map Prod.snd = findIfaceByTime now ifaces := by
  cases ifaces with
  | nil => rfl
  | cons iface rest => exact congrArg some (nextIfaceFrom_snd _ _ _)

/-- The interface is at its place in the list, the time to its deadline is the
least, and it is the first of these. -/
structure Earliest (now : Timespec) (ifaces : List Interface) (next : Nat × Interface) : Prop where
  placed : ifaces[next.1]? = some next.2
  least : ∀ other ∈ ifaces,
    narrowToInt (nextTimeMsec now next.2) ≤ narrowToInt (nextTimeMsec now other)
  first : ∀ position other, position < next.1 → ifaces[position]? = some other →
    narrowToInt (nextTimeMsec now next.2) < narrowToInt (nextTimeMsec now other)

theorem earliest_nextIfaceFrom {passed : List Interface} {next : Nat × Interface}
    (earliest : Earliest now passed next) :
    Earliest now (passed ++ ifaces)
      (nextIfaceFrom now (narrowToInt (nextTimeMsec now next.2)) next passed.length ifaces) := by
  induction ifaces generalizing passed next with
  | nil =>
      rw [List.append_nil]
      exact earliest
  | cons iface rest ih =>
      have longer : (passed ++ [iface]).length = passed.length + 1 := List.length_append
      have bound := (List.getElem?_eq_some_iff.mp earliest.placed).1
      rw [List.append_cons]
      unfold nextIfaceFrom
      dsimp only
      rw [← longer]
      split
      · rename_i earlier
        apply @ih (passed ++ [iface]) (passed.length, iface)
        constructor
        · simp
        · intro other member
          rcases List.mem_append.mp member with old | new
          · exact earlier.le.trans (earliest.least other old)
          · rw [List.mem_singleton.mp new]
        · intro position other lower placed
          rw [List.getElem?_append_left lower] at placed
          have old := earliest.least other (List.mem_of_getElem? placed)
          exact lt_of_lt_of_le earlier old
      · rename_i notEarlier
        apply @ih (passed ++ [iface]) next
        constructor
        · rw [List.getElem?_append_left bound]
          exact earliest.placed
        · intro other member
          rcases List.mem_append.mp member with old | new
          · exact earliest.least other old
          · rw [List.mem_singleton.mp new]
            exact not_lt.mp notEarlier
        · intro position other lower placed
          rw [List.getElem?_append_left (lower.trans bound)] at placed
          exact earliest.first position other lower placed

theorem earliest_nextIfaceToExpire {next : Nat × Interface}
    (found : nextIfaceToExpire now ifaces = some next) : Earliest now ifaces next := by
  cases ifaces with
  | nil => cases found
  | cons iface rest =>
      cases found
      have single : Earliest now [iface] (0, iface) := by
        constructor
        · rfl
        · intro other member
          rw [List.mem_singleton.mp member]
        · intro position other lower
          exact absurd lower (Nat.not_lt_zero position)
      exact earliest_nextIfaceFrom single

end

/-! ## Deadlines that have passed -/

/-- No time to a deadline reads as negative once it is narrowed to an `int`, and
none that reads as 0 stands before the first deadline that has passed. -/
structure DeadlinesTell (now : Timespec) (ifaces : List Interface) : Prop where
  nonneg : ∀ iface ∈ ifaces, nextTimeMsec now iface % 4294967296 < 2147483648
  zero : ∀ front iface back, ifaces = front ++ iface :: back → nextTimeMsec now iface ≠ 0 →
    nextTimeMsec now iface % 4294967296 = 0 → ∃ earlier ∈ front, nextTimeMsec now earlier = 0

section

variable {now later : Timespec} {iface : Interface} {ifaces : List Interface}

theorem narrowToInt_nonneg_iff {value : Nat} :
    0 ≤ narrowToInt value ↔ value % 4294967296 < 2147483648 := by
  unfold narrowToInt Int.bmod
  dsimp only
  split <;> omega

theorem narrowToInt_eq_zero_iff {value : Nat} : narrowToInt value = 0 ↔ value % 4294967296 = 0 := by
  unfold narrowToInt Int.bmod
  dsimp only
  split <;> omega

theorem nextTimeMsec_eq_zero_iff :
    nextTimeMsec now iface = 0 ↔ timespecdiff iface.times.nextMulticast now ≤ 0 := by
  unfold nextTimeMsec
  dsimp only
  split <;> omega

/-- The time to a deadline does not grow. -/
theorem timespecdiff_le_of_before {deadline : Timespec} (valid : now.Valid)
    (laterValid : later.Valid) (before : now.Before later) :
    timespecdiff deadline later ≤ timespecdiff deadline now := by
  have truncated : ∀ value : Int, value.tdiv (1000 * 1000) =
      if 0 ≤ value then value / 1000000 else -(-value / 1000000) := by
    intro value
    split
    · rename_i nonneg
      exact Int.tdiv_eq_ediv_of_nonneg nonneg
    · rename_i negative
      rw [← Int.tdiv_eq_ediv_of_nonneg (by omega), Int.neg_tdiv, neg_neg]
      rfl
  simp only [Timespec.Valid, Timespec.Before, timespecdiff, truncated] at *
  split_ifs <;> omega

theorem nextTimeMsec_eq_zero_of_before (valid : now.Valid) (laterValid : later.Valid)
    (before : now.Before later) (passed : nextTimeMsec now iface = 0) :
    nextTimeMsec later iface = 0 := by
  rw [nextTimeMsec_eq_zero_iff] at passed ⊢
  exact (timespecdiff_le_of_before valid laterValid before).trans passed

/-- Where some deadline has passed, that of the interface to expire next has
passed exactly if the deadlines tell. -/
theorem passed_iff_deadlinesTell (passed : ∃ iface ∈ ifaces, nextTimeMsec now iface = 0)
    {next : Nat × Interface} (earliest : Earliest now ifaces next) :
    nextTimeMsec now next.2 = 0 ↔ DeadlinesTell now ifaces := by
  rcases passed with ⟨due, dueMem, dueZero⟩
  constructor
  · intro nextZero
    have readsZero : narrowToInt (nextTimeMsec now next.2) = 0 := by
      rw [nextZero]
      rfl
    constructor
    · intro iface member
      rw [← narrowToInt_nonneg_iff, ← readsZero]
      exact earliest.least iface member
    · rintro front iface back rfl ahead reads
      have placed : (front ++ iface :: back)[front.length]? = some iface := by simp
      rcases lt_trichotomy next.1 front.length with lower | same | higher
      · have inFront := earliest.placed
        rw [List.getElem?_append_left lower] at inFront
        exact ⟨next.2, List.mem_of_getElem? inFront, nextZero⟩
      · have here := earliest.placed
        rw [same, placed, Option.some.injEq] at here
        rw [here] at ahead
        exact absurd nextZero ahead
      · have less := earliest.first _ _ higher placed
        rw [readsZero, narrowToInt_eq_zero_iff.mpr reads] at less
        exact absurd less (lt_irrefl 0)
  · intro tell
    have dueReads : narrowToInt (nextTimeMsec now due) = 0 := by
      rw [dueZero]
      rfl
    have atMost := earliest.least due dueMem
    have nextMem := List.mem_of_getElem? earliest.placed
    have atLeast := narrowToInt_nonneg_iff.mpr (tell.nonneg _ nextMem)
    have reads : narrowToInt (nextTimeMsec now next.2) = 0 := by omega
    by_contra ahead
    rcases List.getElem?_eq_some_iff.mp earliest.placed with ⟨bound, here⟩
    have split : ifaces = ifaces.take next.1 ++ next.2 :: ifaces.drop (next.1 + 1) := by
      rw [← here, List.getElem_cons_drop, List.take_append_drop]
    rcases tell.zero _ _ _ split ahead (narrowToInt_eq_zero_iff.mp reads) with
      ⟨earlier, earlierMem, earlierZero⟩
    rcases List.getElem?_of_mem earlierMem with ⟨position, placed⟩
    have lower : position < next.1 := by
      have bound := (List.getElem?_eq_some_iff.mp placed).1
      rw [List.length_take] at bound
      omega
    rw [List.getElem?_take_of_lt lower] at placed
    have less := earliest.first position earlier lower placed
    rw [reads, earlierZero] at less
    exact absurd less (by decide)

end

/-! ## What an iteration is given -/

/-- What `ppoll` reports of a descriptor; `error` stands for `POLLERR`, `POLLHUP`
and `POLLNVAL`. -/
structure Revents where
  pollin : Bool
  error : Bool
  deriving DecidableEq, Repr

def Revents.reported (revents : Revents) : Bool :=
  revents.pollin || revents.error

/-- What `recv_rs_ra` returns, with the interface index of `pkt_info`. -/
structure Received where
  msg : Memory
  len : Int
  addr : In6Addr
  pktInfo : Option Nat
  hoplimit : Int

/-- What the main loop hands to `process`. -/
def Received.packet (received : Received) : Option Packet :=
  match received.pktInfo with
  | none => none
  | some ifindex =>
      if received.len > 0 then
        some ⟨received.msg, received.len.toNat, received.addr, ifindex, received.hoplimit⟩
      else none

/-- The flags that the signal handlers have set after `ppoll`. -/
structure Signals where
  sigint : Bool
  sigterm : Bool
  sighup : Bool
  sigusr1 : Bool
  deriving DecidableEq, Repr

/-- The answers of the system in one iteration. -/
structure IterationEnv where
  /-- The clock at `find_iface_by_time`. -/
  now : Timespec
  /-- The clock when the time to wait is computed. -/
  waitTime : Timespec
  netlink : Revents
  icmpv6 : Revents
  /-- A signal is handled before a descriptor is ready and the time is up. -/
  interrupted : Bool
  msgs : List NetlinkMsg
  received : Received
  processEnv : ProcessEnv
  timerEnv : TimerEnv
  signals : Signals
  /-- The interfaces that are read at SIGHUP. -/
  reloaded : List Interface
  setup : Nat → SetupEnv
  kickoff : Nat → KickoffEnv
  now_valid : now.Valid
  waitTime_valid : waitTime.Valid
  before : now.Before waitTime

namespace IterationEnv

/-- The number of descriptors that have something to report. -/
def count (env : IterationEnv) : Int :=
  (if env.netlink.reported then 1 else 0) + (if env.icmpv6.reported then 1 else 0)

/-- `ppoll`: a time that is not valid is an error, and so is a signal as long as no
descriptor is ready. Where there is no time to wait for, it does not return 0. -/
def ppoll (env : IterationEnv) (tsp : Option Timespec) : Int :=
  if ∃ ts ∈ tsp, ¬ts.Valid then -1
  else if env.count > 0 then env.count
  else if env.interrupted then -1
  else 0

/-- The descriptors, the one for netlink first. -/
def serveFds (env : IterationEnv) : List DaemonEvent :=
  (if env.netlink.pollin then [.netlink env.msgs] else []) ++
    (if env.icmpv6.error then []
    else if env.icmpv6.pollin then
      env.received.packet.toList.map fun packet => .receive packet env.processEnv
    else [])

/-- What is handled between `ppoll` and the signals. -/
def serve (env : IterationEnv) (ifaces : List Interface) : List DaemonEvent :=
  let next := nextIfaceToExpire env.now ifaces
  let tsp := next.map fun next => pollTimespec (narrowToInt (nextTimeMsec env.waitTime next.2))
  let rc := env.ppoll tsp
  if rc > 0 then env.serveFds
  else if rc = 0 then next.toList.map fun next => .timer next.1 env.timerEnv
  else []

/-- Whether the main loop ends. -/
def leaves (env : IterationEnv) : Bool :=
  env.signals.sigint || env.signals.sigterm

/-- What is done about the other signals. -/
def serveSignals (env : IterationEnv) : List LoopEvent :=
  if env.leaves then []
  else
    (if env.signals.sighup then
      .reload env.reloaded :: (List.range env.reloaded.length).map fun position =>
        .daemon (.start position (env.setup position) (env.kickoff position))
    else []) ++
    (if env.signals.sigusr1 then [.reset] else [])

/-- An iteration. -/
def events (env : IterationEnv) (ifaces : List Interface) : List LoopEvent :=
  (env.serve ifaces).map .daemon ++ env.serveSignals

end IterationEnv

/-- An iteration takes the loop from one state to another. -/
def LoopState.Iterates (state : LoopState) (env : IterationEnv) (next : LoopState) : Prop :=
  Run LoopState.Step state (env.events state.daemon.ifaces) next

/-! ## Timers and packets -/

namespace IterationEnv

/-- There is nothing to read, and no signal interrupts the wait. -/
structure Quiet (env : IterationEnv) : Prop where
  netlink : env.netlink.reported = false
  icmpv6 : env.icmpv6.reported = false
  uninterrupted : env.interrupted = false

/-- `timer_handler` runs for an interface whose deadline had passed at the start of
the iteration. -/
def ServesExpired (env : IterationEnv) (ifaces : List Interface) : Prop :=
  ∃ position timer iface, .daemon (.timer position timer) ∈ env.events ifaces ∧
    ifaces[position]? = some iface ∧ nextTimeMsec env.now iface = 0

variable {env : IterationEnv} {ifaces : List Interface}

theorem count_pos_iff :
    env.count > 0 ↔ env.netlink.reported = true ∨ env.icmpv6.reported = true := by
  unfold count
  cases env.netlink.reported <;> cases env.icmpv6.reported <;> decide

theorem ppoll_eq_zero_iff {tsp : Option Timespec} :
    env.ppoll tsp = 0 ↔ (∀ ts ∈ tsp, ts.Valid) ∧ env.Quiet := by
  have pos := @count_pos_iff env
  unfold ppoll
  split_ifs with invalid reported interrupted
  · rcases invalid with ⟨ts, member, invalid⟩
    simp only [false_iff]
    exact fun zero => invalid (zero.1 ts member)
  · have ready := pos.mp reported
    constructor
    · intro zero
      omega
    · rintro ⟨-, quiet⟩
      rw [quiet.netlink, quiet.icmpv6] at ready
      simp at ready
  · simp only [false_iff]
    rintro ⟨-, quiet⟩
    rw [quiet.uninterrupted] at interrupted
    cases interrupted
  · have valid : ∀ ts ∈ tsp, ts.Valid := by
      intro ts member
      by_contra wrong
      exact invalid ⟨ts, member, wrong⟩
    simp only [true_iff]
    rw [pos] at reported
    simp only [not_or, Bool.not_eq_true] at reported
    exact ⟨valid, reported.1, reported.2, by simpa using interrupted⟩

theorem timer_notMem_serveFds (position : Nat) (timer : TimerEnv) :
    DaemonEvent.timer position timer ∉ env.serveFds := by
  unfold serveFds
  intro listed
  rcases List.mem_append.mp listed with netlink | icmpv6
  · split at netlink
    · cases List.mem_singleton.mp netlink
    · cases netlink
  · split_ifs at icmpv6
    · cases icmpv6
    · rcases List.mem_map.mp icmpv6 with ⟨packet, -, wrong⟩
      cases wrong
    · cases icmpv6

theorem timer_mem_serve_iff {position : Nat} {timer : TimerEnv} :
    .timer position timer ∈ env.serve ifaces ↔
      ∃ iface, nextIfaceToExpire env.now ifaces = some (position, iface) ∧
        timer = env.timerEnv ∧
        env.ppoll (some (pollTimespec (narrowToInt (nextTimeMsec env.waitTime iface)))) = 0 := by
  unfold serve
  dsimp only
  rcases nextIfaceToExpire env.now ifaces with _ | ⟨place, next⟩
  · simp only [reduceCtorEq, false_and, exists_false, iff_false]
    split_ifs
    · exact timer_notMem_serveFds position timer
    · exact List.not_mem_nil
    · exact List.not_mem_nil
  · simp only [Option.map_some, Option.some.injEq, Prod.mk.injEq]
    split_ifs with ready timeUp
    · apply iff_of_false (timer_notMem_serveFds position timer)
      rintro ⟨iface, ⟨-, rfl⟩, -, zero⟩
      rw [zero] at ready
      exact absurd ready (lt_irrefl 0)
    · constructor
      · intro listed
        cases List.mem_singleton.mp listed
        exact ⟨next, ⟨rfl, rfl⟩, rfl, timeUp⟩
      · rintro ⟨iface, ⟨rfl, rfl⟩, rfl, -⟩
        exact List.mem_singleton_self _
    · apply iff_of_false List.not_mem_nil
      rintro ⟨iface, ⟨-, rfl⟩, -, zero⟩
      exact timeUp zero

theorem timer_mem_events_iff {position : Nat} {timer : TimerEnv} :
    .daemon (.timer position timer) ∈ env.events ifaces ↔
      .timer position timer ∈ env.serve ifaces := by
  have noTimer : LoopEvent.daemon (.timer position timer) ∉ env.serveSignals := by
    unfold serveSignals
    intro listed
    split at listed
    · cases listed
    · rcases List.mem_append.mp listed with sighup | sigusr1
      · split at sighup
        · rcases List.mem_cons.mp sighup with wrong | started
          · cases wrong
          · rcases List.mem_map.mp started with ⟨place, -, wrong⟩
            cases wrong
        · cases sighup
      · split at sigusr1
        · cases List.mem_singleton.mp sigusr1
        · cases sigusr1
  unfold events
  constructor
  · intro listed
    rcases List.mem_append.mp listed with served | signalled
    · rcases List.mem_map.mp served with ⟨event, member, same⟩
      cases same
      exact member
    · exact absurd signalled noTimer
  · intro member
    exact List.mem_append_left _ (List.mem_map_of_mem member)

/-- With something to read, the descriptors are served and no timer is. -/
theorem serve_of_reported {next : Nat × Interface}
    (found : nextIfaceToExpire env.now ifaces = some next)
    (zero : nextTimeMsec env.waitTime next.2 = 0) (reported : env.count > 0) :
    env.serve ifaces = env.serveFds := by
  have valid : ¬∃ ts ∈ some (pollTimespec (narrowToInt 0)), ¬ts.Valid := by
    rintro ⟨ts, member, wrong⟩
    cases member
    exact wrong (by decide)
  unfold serve ppoll
  simp only [found, Option.map_some, zero]
  rw [if_neg valid, if_pos reported, if_pos reported]

/-- The timer that an iteration handles is that of the interface to expire next. -/
theorem servesExpired_iff_next {next : Nat × Interface}
    (found : nextIfaceToExpire env.now ifaces = some next) :
    env.ServesExpired ifaces ↔ env.Quiet ∧ nextTimeMsec env.now next.2 = 0 := by
  have placed := (earliest_nextIfaceToExpire found).placed
  unfold ServesExpired
  simp only [timer_mem_events_iff, timer_mem_serve_iff]
  constructor
  · rintro ⟨position, timer, iface, ⟨other, same, -, polled⟩, here, zero⟩
    rw [found] at same
    cases same
    rw [placed, Option.some.injEq] at here
    rw [here]
    exact ⟨(ppoll_eq_zero_iff.mp polled).2, zero⟩
  · rintro ⟨quiet, zero⟩
    refine ⟨next.1, env.timerEnv, next.2, ⟨next.2, found, rfl, ?_⟩, placed, zero⟩
    rw [nextTimeMsec_eq_zero_of_before env.now_valid env.waitTime_valid env.before zero]
    apply ppoll_eq_zero_iff.mpr
    refine ⟨?_, quiet⟩
    intro ts member
    cases member
    decide

theorem exists_nextIfaceToExpire {now : Timespec} {iface : Interface} (member : iface ∈ ifaces) :
    ∃ next, nextIfaceToExpire now ifaces = some next := by
  cases ifaces with
  | nil => cases member
  | cons first rest => exact ⟨_, rfl⟩

/-- Where a deadline has passed at its start, an iteration handles the timer of an
expired interface exactly if there is nothing to read, no signal interrupts the
wait and the deadlines tell. -/
theorem servesExpired_iff (passed : ∃ iface ∈ ifaces, nextTimeMsec env.now iface = 0) :
    env.ServesExpired ifaces ↔ env.Quiet ∧ DeadlinesTell env.now ifaces := by
  rcases passed with ⟨due, dueMem, dueZero⟩
  rcases exists_nextIfaceToExpire dueMem with ⟨next, found⟩
  have tell := passed_iff_deadlinesTell ⟨due, dueMem, dueZero⟩ (earliest_nextIfaceToExpire found)
  rw [servesExpired_iff_next found, tell]

end IterationEnv

/-! ## Deadlines in a run -/

open IterationEnv

theorem deadlinesTell_of_bounded {now : Timespec} {ifaces : List Interface}
    (bounded : ∀ iface ∈ ifaces, timespecdiff iface.times.nextMulticast now ≤ 2147483647) :
    DeadlinesTell now ifaces := by
  have small : ∀ iface ∈ ifaces, nextTimeMsec now iface < 2147483648 := by
    intro iface member
    have bound := bounded iface member
    unfold nextTimeMsec
    dsimp only
    split <;> omega
  constructor
  · intro iface member
    have bound := small iface member
    omega
  · rintro front iface back rfl ahead reads
    have bound := small iface (by simp)
    omega

/-- In a run from loaded interfaces in which the intervals fit, only packets and
signals keep a timer from being handled. -/
theorem mainLoop_servesExpired_iff {start last : LoopState} {events : List LoopEvent}
    (loaded : ∀ iface ∈ start.daemon.ifaces, iface.Loaded)
    (run : Run (Guarded LoopState.Step LoopEvent.FittingIntervals) start events last)
    {env : IterationEnv} (before : last.clock.Before env.now)
    (passed : ∃ iface ∈ last.daemon.ifaces, nextTimeMsec env.now iface = 0) :
    env.ServesExpired last.daemon.ifaces ↔ env.Quiet := by
  have paced : last.Paced := by
    apply run.invariant
    · intro state event next step
      exact fun paced => (paced_step step paced).1
    · exact fun iface member => (loaded iface member).timely
  have tell : DeadlinesTell env.now last.daemon.ifaces := by
    apply deadlinesTell_of_bounded
    intro iface member
    exact (paced iface member).deadline env.now env.now_valid before
  rcases passed with ⟨due, dueMem, dueZero⟩
  rcases exists_nextIfaceToExpire dueMem with ⟨next, found⟩
  have zero := (passed_iff_deadlinesTell ⟨due, dueMem, dueZero⟩
    (earliest_nextIfaceToExpire found)).mpr tell
  rw [servesExpired_iff_next found]
  exact and_iff_left zero

/-! ## Packets that keep arriving -/

/-- A solicitation on an interface that is not among those of the daemon. -/
def foreignRs : Received where
  msg := fun offset => if offset = 0 then ndRouterSolicit else 0
  len := 8
  addr := linkLocalAddr
  pktInfo := some 9
  hoplimit := 255

/-- An iteration at `now` that has such a packet to read. -/
def IterationEnv.flooded (now : Timespec) (valid : now.Valid) : IterationEnv where
  now := now
  waitTime := now
  netlink := ⟨false, false⟩
  icmpv6 := ⟨true, false⟩
  interrupted := false
  msgs := []
  received := foreignRs
  processEnv := .ethernet now
  timerEnv := .ethernet now
  signals := ⟨false, false, false, false⟩
  reloaded := []
  setup := fun _ => .ethernet
  kickoff := fun _ => .ethernet now
  now_valid := valid
  waitTime_valid := valid
  before := .refl now

theorem step_foreign {daemon : Daemon} {packet : Packet} {env : ProcessEnv}
    (foreign : findIfaceByIndex daemon.ifaces packet.ifindex = none) :
    daemon.step (.receive packet env) = .unchanged daemon := by
  change (process env packet daemon).value = _
  rw [value_process, foreign]
  split <;> rfl

/-- The clock at the beginning of the iterations. -/
def floodClock : Nat → Timespec
  | 0 => ⟨1000, 0⟩
  | n + 1 => ⟨7000 + n, 0⟩

theorem floodClock_valid (n : Nat) : (floodClock n).Valid := by
  cases n <;> simp [floodClock, Timespec.Valid]
  omega

theorem floodClock_before (n : Nat) : (floodClock n).Before (floodClock (n + 1)) := by
  cases n <;> simp [floodClock, Timespec.Before]

/-- A missing device whose deadline is at 7000 s. -/
def waitingIface : Interface :=
  rescheduleIface ⟨1000, 0⟩ (idle 600) (randBetween (-1) 600 0)

def waiting (n : Nat) : LoopState :=
  ⟨⟨[waitingIface], false⟩, floodClock n⟩

theorem passed_waiting (n : Nat) : nextTimeMsec (floodClock (n + 1)) waitingIface = 0 := by
  have deadline : waitingIface.times.nextMulticast = ⟨7000, 0⟩ := by with_unfolding_all decide
  rw [nextTimeMsec_eq_zero_iff, deadline]
  simp [timespecdiff, floodClock]

theorem nextIfaceToExpire_waiting (n : Nat) (now : Timespec) :
    nextIfaceToExpire now (waiting n).daemon.ifaces = some (0, waitingIface) := rfl

def IterationEnv.floodedAt (n : Nat) : IterationEnv :=
  .flooded (floodClock n) (floodClock_valid n)

theorem events_floodedAt (n : Nat) :
    (IterationEnv.floodedAt (n + 1)).events (waiting n).daemon.ifaces =
      [.daemon (.receive ⟨foreignRs.msg, 8, linkLocalAddr, 9, 255⟩
        (.ethernet (floodClock (n + 1))))] := by
  have served : (IterationEnv.floodedAt (n + 1)).serve (waiting n).daemon.ifaces =
      (IterationEnv.floodedAt (n + 1)).serveFds := by
    apply serve_of_reported (nextIfaceToExpire_waiting n _)
    · exact passed_waiting n
    · exact count_pos_iff.mpr (.inr rfl)
  unfold IterationEnv.events
  rw [served]
  rfl

theorem iterates_floodedAt (n : Nat) :
    (waiting n).Iterates (.floodedAt (n + 1)) (waiting (n + 1)) := by
  unfold LoopState.Iterates
  rw [events_floodedAt]
  apply Run.cons _ (.nil _)
  constructor
  · constructor
    · rw [step_foreign rfl]
      rfl
    · rw [step_foreign rfl]
      rfl
  · exact floodClock_valid (n + 1)
  · exact floodClock_before n
  · intro reading member
    rw [List.mem_singleton.mp member]
    exact ⟨floodClock_valid (n + 1), .refl _⟩

/-- An interface as it is loaded gets to a state in which its deadline passes, and
from then on iterations that find a packet to read never handle its timer. -/
theorem starves_flooded :
    (intervalDefaults 600).Loaded ∧
      (∃ events, Run LoopState.Step ⟨⟨[intervalDefaults 600], false⟩, ⟨90, 0⟩⟩ events (waiting 0)) ∧
      ∀ n, ∃ env, (waiting n).Iterates env (waiting (n + 1)) ∧
        (∃ iface ∈ (waiting n).daemon.ifaces, nextTimeMsec env.now iface = 0) ∧
        env.leaves = false ∧ env.signals.sighup = false ∧
        ¬env.ServesExpired (waiting n).daemon.ifaces := by
  refine ⟨⟨rfl, rfl⟩, ⟨_, .cons (step_missing 600 (by decide))
    (.cons (@step_idle 600 ⟨90, 0⟩ ⟨1000, 0⟩ (by decide) (by decide)) (.nil _))⟩, ?_⟩
  intro n
  refine ⟨_, iterates_floodedAt n, ⟨_, List.mem_singleton_self _, passed_waiting n⟩, rfl, rfl, ?_⟩
  rw [servesExpired_iff_next (nextIfaceToExpire_waiting n _)]
  rintro ⟨quiet, -⟩
  have nothing := quiet.icmpv6
  cases nothing

/-- The same iteration with nothing to read. -/
def IterationEnv.quietAt (n : Nat) : IterationEnv :=
  { floodedAt n with icmpv6 := ⟨false, false⟩ }

theorem servesExpired_quietAt :
    (IterationEnv.quietAt 1).ServesExpired (waiting 0).daemon.ifaces := by
  have zero : nextTimeMsec (IterationEnv.quietAt 1).now waitingIface = 0 := passed_waiting 0
  apply (servesExpired_iff ⟨_, List.mem_singleton_self _, zero⟩).mpr
  refine ⟨⟨rfl, rfl, rfl⟩, deadlinesTell_of_bounded ?_⟩
  intro iface member
  rw [List.mem_singleton.mp member]
  exact (nextTimeMsec_eq_zero_iff.mp zero).trans (by decide)

end Radvd
