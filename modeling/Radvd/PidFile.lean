import Radvd.Dump.Text
import Radvd.Library.LockFile

/-!
# The pid file

Instances of `radvd` that start and stop at the same time, from
`open_and_lock_pid_file` to the `unlink` at the end of `main`. Each has the file
open in as many processes as it has forked, and its lock is given back when the
last of them is gone.

At most one instance has the lock of the file that has the name, and the number in
this file is its own, if each of them locks the file that has the name
(`single_instance`). One that opens the file before another removes it, and locks
it after that, locks a file without a name (`two_instances`).
-/

namespace Radvd

open Wire Runs Dump LockFile

/-! ## The number in the file -/

def isWhite (octet : UInt8) : Bool :=
  octet = 32 || (9 ≤ octet && octet ≤ 13)

/-- The conversion `%d` of `fscanf`. -/
def scanInt (text : Bytes) : Option Int :=
  let rest := text.dropWhile isWhite
  let negative := rest.head? = some 45
  let digits := (if negative || rest.head? = some 43 then rest.tail else rest).takeWhile isDigit
  if digits = [] then none
  else
    let value : Nat := digits.foldl (fun value octet => 10 * value + (octet.toNat - 48)) 0
    some (if negative then -value else value)

theorem isDigit_of_mem_decimal {value : Nat} {octet : UInt8} (member : octet ∈ decimal value) :
    isDigit octet = true := by
  rcases List.mem_map.mp member with ⟨character, inDigits, rfl⟩
  have bounds := digit_bounds inDigits
  have small : (UInt8.ofNat character.toNat).toNat = character.toNat := by
    rw [UInt8.toNat_ofNat']
    omega
  simp only [isDigit, Bool.and_eq_true, decide_eq_true_eq, UInt8.le_iff_toNat_le, small]
  exact bounds

theorem foldl_decimal (value : Nat) :
    (decimal value).foldl (fun value octet => 10 * value + (octet.toNat - 48)) 0 = value := by
  have digits : ∀ (characters : List Char) (start : Nat),
      (∀ character ∈ characters, character.toNat < 256) →
      (characters.map fun character => UInt8.ofNat character.toNat).foldl
          (fun value octet => 10 * value + (octet.toNat - 48)) start =
        Nat.ofDigitChars 10 characters start := by
    intro characters
    induction characters with
    | nil => simp
    | cons character characters ih =>
        intro start small
        rw [List.forall_mem_cons] at small
        rw [List.map_cons, List.foldl_cons, ih _ small.2, Nat.ofDigitChars_cons,
          UInt8.toNat_ofNat_of_lt' small.1]
        rfl
  rw [decimal, digits]
  · exact Nat.ofDigitChars_ten_toDigits
  · intro character member
    have bounds := digit_bounds member
    omega

/-- The number is read back, whatever an earlier instance left behind it. -/
theorem scanInt_decimal (value : Nat) (rest : Bytes) :
    scanInt (decimal value ++ newline :: rest) = some (value : Int) := by
  rcases shape : decimal value with _ | ⟨first, digits⟩
  · exact absurd (List.map_eq_nil_iff.mp shape) Nat.toDigits_ne_nil
  have all : ∀ octet ∈ first :: digits, isDigit octet = true := by
    intro octet member
    rw [← shape] at member
    exact isDigit_of_mem_decimal member
  have sign : first ≠ 45 ∧ first ≠ 43 ∧ isWhite first = false := by
    have head := all first (List.mem_cons_self ..)
    simp only [isDigit, Bool.and_eq_true, decide_eq_true_eq, UInt8.le_iff_toNat_le] at head
    have lower : 48 ≤ first.toNat := head.1
    refine ⟨?_, ?_, ?_⟩
    · rintro rfl
      exact absurd lower (by decide)
    · rintro rfl
      exact absurd lower (by decide)
    · rw [isWhite, Bool.or_eq_false_iff, Bool.and_eq_false_iff]
      refine ⟨decide_eq_false ?_, .inr (decide_eq_false ?_)⟩
      · rintro rfl
        exact absurd lower (by decide)
      · rw [UInt8.le_iff_toNat_le]
        change ¬first.toNat ≤ 13
        omega
  have skipped : (first :: (digits ++ newline :: rest)).dropWhile isWhite =
      first :: (digits ++ newline :: rest) :=
    List.dropWhile_cons_of_neg (by simp [sign.2.2])
  have taken : (first :: digits ++ newline :: rest).takeWhile isDigit = first :: digits := by
    rw [List.takeWhile_append_of_pos all, List.takeWhile_cons_of_neg (by decide), List.append_nil]
  have folded := foldl_decimal value
  rw [shape] at folded
  unfold scanInt
  rw [List.cons_append, skipped]
  simp only [List.head?_cons, Option.some.injEq, sign.1, sign.2.1, decide_false, Bool.or_self,
    Bool.false_eq_true, if_false]
  rw [← List.cons_append, taken, folded]
  simp

/-! ## Instances -/

/-- How far `main` has come. While it writes the pid file, `target` is the file that
`write_pid_file` has opened. -/
inductive Phase where
  | starting
  | opened
  | locked
  /-- This is the child that `daemonp` has forked. -/
  | detached
  | writing (target : Nat)
  | ending (target : Nat)
  | written
  | checked
  | running
  | removed
  | gone
  deriving DecidableEq, Repr

/-- The process that runs `main` to its end, with the file behind `pidfd` and the
number of other processes that have inherited this descriptor. -/
structure Instance where
  phase : Phase
  pid : Nat
  pidfd : Nat
  others : Nat
  deriving DecidableEq, Repr

structure Instances where
  files : Files UInt8 Nat
  member : Nat → Instance

/-- The system calls on the pid file, and the forks, with what the system answers:
the pid of the child, the number of octets that are written, and whether the name
can be removed. -/
inductive PidFileCall where
  | openFile
  | lock
  | daemonize (child : Nat)
  | openAgain
  | writePid (count : Nat)
  | writeNewline (count : Nat)
  | check
  | forkPrivsep
  | unlink (permitted : Bool)
  | exit
  /-- The parent or the privileged process ends. -/
  | otherExits
  deriving DecidableEq, Repr

namespace Instances

def put (state : Instances) (i : Nat) (self : Instance) (files : Files UInt8 Nat) : Instances :=
  ⟨files, Function.update state.member i self⟩

/-- The process ends, for whatever reason. -/
def leave (state : Instances) (i : Nat) (files : Files UInt8 Nat) : Instances :=
  state.put i { state.member i with phase := .gone }
    (if (state.member i).others = 0 then files.release i else files)

/-- A `write` of the text, which ends the process if it is not written in full. -/
def writes (state : Instances) (i target offset : Nat) (text : Bytes) (count : Nat)
    (next : Phase) : Instances :=
  let files := state.files.write target offset (text.take count)
  if text.length ≤ count then state.put i { state.member i with phase := next } files
  else state.leave i files

/-- The number in the file that has the name. -/
def recorded (state : Instances) : Option Int :=
  state.files.named.bind fun file => scanInt (state.files.content file)

def step (state : Instances) (i : Nat) (call : PidFileCall) : Option Instances :=
  let self := state.member i
  match self.phase, call with
  | .starting, .openFile =>
      some (state.put i { self with phase := .opened, pidfd := state.files.openCreate.1 }
        state.files.openCreate.2)
  | .opened, .lock =>
      match state.files.tryLock self.pidfd i with
      | some files => some (state.put i { self with phase := .locked } files)
      | none => some (state.leave i state.files)
  | .locked, .daemonize child =>
      some (state.put i { self with phase := .detached, pid := child, others := self.others + 1 }
        state.files)
  | .locked, .openAgain | .detached, .openAgain =>
      some (state.put i { self with phase := .writing state.files.openCreate.1 }
        state.files.openCreate.2)
  | .writing target, .writePid count =>
      some (state.writes i target 0 (decimal self.pid) count (.ending target))
  | .ending target, .writeNewline count =>
      some (state.writes i target (decimal self.pid).length [newline] count .written)
  | .written, .check =>
      if state.recorded = some (self.pid : Int) then
        some (state.put i { self with phase := .checked } state.files)
      else some (state.leave i state.files)
  | .checked, .forkPrivsep =>
      some (state.put i { self with phase := .running, others := self.others + 1 } state.files)
  | .running, .unlink permitted =>
      some (state.put i { self with phase := .removed }
        (if permitted then state.files.unlink else state.files))
  | .gone, .exit => none
  | _, .exit => some (state.leave i state.files)
  | phase, .otherExits =>
      if self.others = 0 then none
      else
        some (state.put i { self with others := self.others - 1 }
          (if phase = .gone ∧ self.others = 1 then state.files.release i else state.files))
  | _, _ => none

def Step (state : Instances) (event : Nat × PidFileCall) (next : Instances) : Prop :=
  state.step event.1 event.2 = some next

end Instances

/-! ## One instance at a time -/

/-- The lock is held, and the name is not removed yet. -/
def Phase.active : Phase → Bool
  | .starting | .opened | .removed | .gone => false
  | _ => true

/-- The file that is being written. -/
def Phase.target : Phase → Option Nat
  | .writing target | .ending target => some target
  | _ => none

/-- What has been written to the beginning of the file. -/
def Phase.text (pid : Nat) : Phase → Bytes
  | .ending _ => decimal pid
  | .written | .checked | .running => decimal pid ++ [newline]
  | _ => []

structure Keeps (files : Files UInt8 Nat) (i : Nat) (keeper : Instance) : Prop where
  owns : Owns files i keeper.pidfd
  target : ∀ target ∈ keeper.phase.target, target = keeper.pidfd
  text : keeper.phase.text keeper.pid <+: files.content keeper.pidfd

section

variable {files : Files UInt8 Nat} {i j : Nat} {keeper : Instance}

theorem Keeps.release (keeps : Keeps files j keeper) (differ : i ≠ j) :
    Keeps (files.release i) j keeper :=
  ⟨keeps.owns.release differ, keeps.target, keeps.text⟩

theorem Keeps.openCreate (keeps : Keeps files j keeper) :
    Keeps files.openCreate.2 j keeper := by
  rw [openCreate_of_named keeps.owns.named]
  exact keeps

theorem Keeps.tryLock {locked : Files UInt8 Nat} {target : Nat}
    (keeps : Keeps files j keeper) (done : files.tryLock target i = some locked) :
    Keeps locked j keeper := by
  refine ⟨keeps.owns.tryLock done, keeps.target, ?_⟩
  rw [content_tryLock done]
  exact keeps.text

end

namespace Instances

/-- Every active instance owns the file that has the name, and has written its
number there. -/
def Consistent (state : Instances) : Prop :=
  ∀ i, (state.member i).phase.active = true → Keeps state.files i (state.member i)

/-- A file that is locked is the one that has the name. -/
def LocksNamed (state : Instances) (event : Nat × PidFileCall) : Prop :=
  event.2 = .lock → (state.member event.1).phase = .opened →
    state.files.holder (state.member event.1).pidfd = none →
      state.files.named = some (state.member event.1).pidfd

instance (state : Instances) (event : Nat × PidFileCall) : Decidable (LocksNamed state event) :=
  inferInstanceAs (Decidable (_ → _ → _ → _))

variable {state next : Instances} {i j : Nat} {self : Instance} {files : Files UInt8 Nat}
  {call : PidFileCall}

theorem Consistent.unique (consistent : state.Consistent)
    (active : (state.member i).phase.active = true)
    (activeOther : (state.member j).phase.active = true) : i = j :=
  (consistent i active).owns.unique (consistent j activeOther).owns

theorem Consistent.put (consistent : state.Consistent)
    (others : ∀ j, j ≠ i → (state.member j).phase.active = true →
      Keeps state.files j (state.member j) → Keeps files j (state.member j))
    (own : self.phase.active = true → Keeps files i self) : (state.put i self files).Consistent := by
  intro j active
  by_cases same : j = i
  · subst same
    simp only [Instances.put, Function.update_self] at active ⊢
    exact own active
  · simp only [Instances.put, Function.update_of_ne same] at active ⊢
    exact others j same active (consistent j active)

/-- While an instance is active, nothing it does concerns another active one. -/
theorem Consistent.put_of_active (consistent : state.Consistent)
    (active : (state.member i).phase.active = true)
    (own : self.phase.active = true → Keeps files i self) :
    (state.put i self files).Consistent := by
  apply consistent.put _ own
  intro j differ activeOther
  exact absurd (consistent.unique activeOther active) differ

theorem Consistent.leave_of_active (consistent : state.Consistent)
    (active : (state.member i).phase.active = true) : (state.leave i files).Consistent :=
  consistent.put_of_active active (fun gone => absurd gone Bool.false_ne_true)

theorem Consistent.leave (consistent : state.Consistent) :
    (state.leave i state.files).Consistent := by
  apply consistent.put
  · intro j differ _ keeps
    split
    · exact keeps.release (Ne.symm differ)
    · exact keeps
  · exact fun gone => absurd gone Bool.false_ne_true

theorem Consistent.lock {locked : Files UInt8 Nat} (consistent : state.Consistent)
    (named : state.files.named = some (state.member i).pidfd)
    (done : state.files.tryLock (state.member i).pidfd i = some locked) :
    (state.put i { state.member i with phase := .locked } locked).Consistent := by
  apply consistent.put
  · intro j _ _ keeps
    exact keeps.tryLock done
  · intro _
    exact ⟨owns_of_tryLock named done, fun _ none => absurd none (by simp [Phase.target]),
      List.nil_prefix⟩

theorem Consistent.openAgain (consistent : state.Consistent)
    (active : (state.member i).phase.active = true) :
    (state.put i { state.member i with phase := .writing state.files.openCreate.1 }
      state.files.openCreate.2).Consistent := by
  apply consistent.put_of_active active
  intro _
  have owns := (consistent i active).owns
  rw [openCreate_of_named owns.named]
  refine ⟨owns, ?_, List.nil_prefix⟩
  rintro target ⟨⟩
  rfl

theorem Consistent.writes {target offset : Nat} {text : Bytes} (phase : Phase) (count : Nat)
    (consistent : state.Consistent) (active : (state.member i).phase.active = true)
    (writing : (state.member i).phase.target = some target)
    (place : offset = ((state.member i).phase.text (state.member i).pid).length)
    (targets : ∀ other ∈ phase.target, other = target)
    (continues : phase.text (state.member i).pid =
      (state.member i).phase.text (state.member i).pid ++ text) :
    (state.writes i target offset text count phase).Consistent := by
  have keeps := consistent i active
  have same : target = (state.member i).pidfd := keeps.target target writing
  unfold Instances.writes
  dsimp only
  split
  · rename_i full
    apply consistent.put_of_active active
    intro _
    refine ⟨keeps.owns.write, ?_, ?_⟩
    · intro other member
      rw [targets other member, same]
    · rw [continues, same, place, List.take_of_length_le full]
      exact prefix_write keeps.text
  · exact consistent.leave_of_active active

/-- The phase of an active instance changes, and nothing else that matters. -/
theorem Consistent.proceed {next : Instance} (consistent : state.Consistent)
    (active : (state.member i).phase.active = true)
    (sameFile : next.pidfd = (state.member i).pidfd) (noTarget : next.phase.target = none)
    (sameText : next.phase.text next.pid <+:
      (state.member i).phase.text (state.member i).pid) :
    (state.put i next state.files).Consistent := by
  have keeps := consistent i active
  apply consistent.put_of_active active
  intro _
  refine ⟨?_, ?_, ?_⟩
  · rw [sameFile]
    exact keeps.owns
  · intro target member
    rw [noTarget] at member
    cases member
  · rw [sameFile]
    exact sameText.trans keeps.text

theorem Consistent.otherExits (consistent : state.Consistent) :
    (state.put i { state.member i with others := (state.member i).others - 1 }
      (if (state.member i).phase = .gone ∧ (state.member i).others = 1 then
        state.files.release i else state.files)).Consistent := by
  apply consistent.put
  · intro j differ _ keeps
    split
    · exact keeps.release (Ne.symm differ)
    · exact keeps
  · intro active
    have keeps := consistent i active
    rw [if_neg]
    · exact ⟨keeps.owns, keeps.target, keeps.text⟩
    · rintro ⟨gone, -⟩
      rw [show (state.member i).phase = .gone from gone] at active
      cases active

theorem Consistent.step {event : Nat × PidFileCall}
    (step : Guarded Step LocksNamed state event next) (consistent : state.Consistent) :
    next.Consistent := by
  rcases event with ⟨i, call⟩
  rcases step with ⟨named, step⟩
  unfold Step Instances.step at step
  dsimp only at step
  split at step
  case h_1 =>
    cases step
    apply consistent.put
    · intro j _ _ keeps
      exact keeps.openCreate
    · exact fun active => absurd active Bool.false_ne_true
  case h_2 opened =>
    split at step
    · rename_i files done
      cases step
      have free : state.files.holder (state.member i).pidfd = none := by
        unfold Files.tryLock at done
        split at done
        · assumption
        · cases done
      exact consistent.lock (named rfl opened free) done
    · cases step
      exact consistent.leave
  case h_3 locked =>
    cases step
    exact consistent.proceed (by rw [locked]; rfl) rfl rfl List.nil_prefix
  case h_4 locked =>
    cases step
    exact consistent.openAgain (by rw [locked]; rfl)
  case h_5 detached =>
    cases step
    exact consistent.openAgain (by rw [detached]; rfl)
  case h_6 target count writing =>
    cases step
    apply consistent.writes (.ending target) count
    · rw [writing]
      rfl
    · rw [writing]
      rfl
    · rw [writing]
      rfl
    · rintro _ ⟨⟩
      rfl
    · rw [writing]
      rfl
  case h_7 target count ending =>
    cases step
    apply consistent.writes .written count
    · rw [ending]
      rfl
    · rw [ending]
      rfl
    · rw [ending]
      rfl
    · rintro _ ⟨⟩
    · rw [ending]
      rfl
  case h_8 written =>
    split at step
    · cases step
      exact consistent.proceed (by rw [written]; rfl) rfl rfl
        (by rw [written]; exact List.prefix_rfl)
    · cases step
      exact consistent.leave
  case h_9 checked =>
    cases step
    exact consistent.proceed (by rw [checked]; rfl) rfl rfl (by rw [checked]; exact List.prefix_rfl)
  case h_10 running =>
    cases step
    apply consistent.put_of_active (by rw [running]; rfl)
    exact fun active => absurd active Bool.false_ne_true
  case h_11 => cases step
  case h_12 =>
    cases step
    exact consistent.leave
  case h_13 =>
    split at step
    · cases step
    · cases step
      exact consistent.otherExits
  case h_14 => cases step

/-- Instances that have not been started, and whatever was left of earlier ones. -/
def Initial (state : Instances) : Prop :=
  ∀ i, (state.member i).phase = .starting

theorem Initial.consistent (initial : state.Initial) : state.Consistent := by
  intro i active
  rw [initial i] at active
  cases active

/-- The number is in the file from the time it has been written in full. -/
def Phase.Recorded (phase : Phase) : Prop :=
  phase = .written ∨ phase = .checked ∨ phase = .running

theorem Phase.Recorded.active {phase : Phase} (recorded : Phase.Recorded phase) :
    phase.active = true := by
  rcases recorded with rfl | rfl | rfl <;> rfl

theorem Phase.Recorded.text {phase : Phase} (recorded : Phase.Recorded phase) (pid : Nat) :
    phase.text pid = decimal pid ++ [newline] := by
  rcases recorded with rfl | rfl | rfl <;> rfl

theorem Consistent.recorded_eq (consistent : state.Consistent)
    (recorded : Phase.Recorded (state.member i).phase) :
    state.recorded = some ((state.member i).pid : Int) := by
  have keeps := consistent i recorded.active
  have text := recorded.text (state.member i).pid
  rcases text ▸ keeps.text with ⟨rest, shape⟩
  rw [Instances.recorded, keeps.owns.named, Option.bind_some, ← shape, List.append_assoc]
  exact scanInt_decimal _ _

/-- If every instance locks the file that has the name, at most one is between the
lock and the removal of the name, and the number in the file is its own, so that
`check_pid_file` does not end it. -/
theorem single_instance {start last : Instances} {events : List (Nat × PidFileCall)}
    (run : Run (Guarded Step LocksNamed) start events last) (initial : start.Initial) :
    (∀ i j, (last.member i).phase.active = true → (last.member j).phase.active = true → i = j) ∧
      ∀ i, Phase.Recorded (last.member i).phase →
        last.recorded = some ((last.member i).pid : Int) := by
  have consistent : last.Consistent := by
    apply run.invariant _ initial.consistent
    intro state event next step consistent
    exact consistent.step step
  exact ⟨fun i j => consistent.unique, fun i => consistent.recorded_eq⟩

/-- No file has been created yet. -/
def fresh : Instances where
  files := ⟨none, 0, fun _ => [], fun _ => none⟩
  member i := ⟨.starting, 100 + i, 0, 0⟩

/-- What an instance that does not fork into the background does until it runs. -/
def startup (i : Nat) : List (Nat × PidFileCall) :=
  [.openFile, .lock, .openAgain, .writePid 3, .writeNewline 1, .check, .forkPrivsep].map (i, ·)

/-- Instance 1 finds the file locked by instance 0. Instance 2 starts after this one
has removed the file and has ended. -/
def handover : List (Nat × PidFileCall) :=
  startup 0 ++ [(1, .openFile), (1, .lock), (0, .unlink true), (0, .exit), (0, .otherExits)] ++
    startup 2

theorem single_instance_fresh :
    ∃ last, Run (Guarded Step LocksNamed) fresh handover last ∧
      (last.member 0).phase = .gone ∧ (last.member 1).phase = .gone ∧
      (last.member 2).phase = .running ∧ last.recorded = some 102 := by
  have members : (handover.foldlM (fun state event =>
      if LocksNamed state event then step state event.1 event.2 else none) fresh).map
        (fun last => ((last.member 0).phase, (last.member 1).phase, (last.member 2).phase,
          (last.member 2).pid)) = some (.gone, .gone, .running, 102) := by
    decide
  rcases Option.map_eq_some_iff.mp members with ⟨last, done, known⟩
  simp only [Prod.mk.injEq] at known
  rcases known with ⟨zero, one, two, pid⟩
  have run : Run (Guarded Step LocksNamed) fresh handover last := guarded_of_foldlM done
  have single := single_instance run (fun _ => rfl)
  have recorded := single.2 2 (.inr (.inr two))
  rw [pid] at recorded
  exact ⟨last, run, zero, one, two, recorded⟩

/-- Instance 1 opens the file before instance 0 removes it, and locks it after that;
instance 2 creates another file. -/
def overlap : List (Nat × PidFileCall) :=
  startup 0 ++ [(1, .openFile), (0, .unlink true), (0, .exit), (0, .otherExits)] ++
    (startup 1).tail ++ startup 2

theorem two_instances :
    ∃ last, Run Step fresh overlap last ∧
      (last.member 1).phase = .running ∧ (last.member 2).phase = .running := by
  have phases : (overlap.foldlM (fun state event => step state event.1 event.2) fresh).map
      (fun last => ((last.member 1).phase, (last.member 2).phase)) =
        some (.running, .running) := by
    decide
  rcases Option.map_eq_some_iff.mp phases with ⟨last, done, both⟩
  rw [Prod.mk.injEq] at both
  exact ⟨last, run_of_foldlM done, both⟩

end Instances

end Radvd
