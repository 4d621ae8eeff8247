import Radvd.Privsep

/-!
# The privsep pipe

The unprivileged process makes a sequence of calls, the privileged one runs its
loop, and the kernel moves the octets between them in pieces of any size, in
the order in which they were written, with any interruptions.

At any time the loop has carried out the first of the commands that were
written, each once and in their order, with the names cut to 15 octets. Once it
has stopped it has carried out all that were written in full, and it stops
after finitely many steps other than interruptions (`privsep_delivers`).
-/

namespace Radvd

open Wire Pipe Runs Dump

/-! ## The two processes -/

/-- A call of one of the four functions; the name is a character string. -/
structure PrivsepCall where
  type : PrivsepType
  iface : Bytes
  text : 0 ∉ iface
  val : UInt32

def PrivsepCall.command (call : PrivsepCall) : PrivsepCommand :=
  privsepCommand call.type call.iface call.val

def PrivsepCall.issue (order : ByteOrder) (call : PrivsepCall) :
    List WriteAnswer → Progress Writen WriteAnswer Int :=
  match call.type with
  | .setInterfaceLinkmtu => privsepInterfaceLinkmtu order call.iface call.val
  | .setInterfaceCurhlim => privsepInterfaceCurhlim order call.iface call.val
  | .setInterfaceReachtime => privsepInterfaceReachtime order call.iface call.val
  | .setInterfaceRetranstimer => privsepInterfaceRetranstimer order call.iface call.val

/-- The calls in their order, with the results of those that have returned. -/
def privsepCalls (order : ByteOrder) :
    List PrivsepCall → List Int → List WriteAnswer →
      Progress (Writen × List Int) WriteAnswer (List Int)
  | [], rets, answers => .returned rets answers
  | call :: calls, rets, answers =>
      match call.issue order answers with
      | .waiting pending => .waiting (pending, rets)
      | .returned ret unused => privsepCalls order calls (rets ++ [ret]) unused

def privsepEnds (order : ByteOrder) (env : FileEnv) (calls : List PrivsepCall) : Ends UInt8 where
  offers written :=
    match privsepCalls order calls [] written with
    | .waiting (pending, _) => some (pending.buf.take pending.count)
    | .returned _ _ => none
  wants read :=
    match privsepReadLoop order env read [] with
    | .waiting (pending, _) => some pending.count
    | .returned _ _ => none

/-- What the privileged process does when it carries out the calls one after the
other, with the names as they fit in a command. -/
def carryOut (env : FileEnv) (calls : List PrivsepCall) : List PrivsepAction :=
  calls.foldl (fun done call => privsepSet env call.type (call.iface.take 15) call.val done) []

/-- The first `issued` calls have written their commands in full and returned zero. -/
inductive Issues (order : ByteOrder) (calls issued : List PrivsepCall)
    (written : List WriteAnswer) : Prop where
  | waiting {pending : Writen}
      (waits : privsepCalls order calls [] written =
        .waiting (pending, List.replicate issued.length 0))
  | finished (all : issued = calls)
      (returned : privsepCalls order calls [] written =
        .returned (List.replicate issued.length 0) [])

/-- Something other than an interruption can happen, without the unprivileged
process ending before its calls have returned. -/
def Advances (order : ByteOrder) (env : FileEnv) (calls : List PrivsepCall)
    (state : State UInt8) : Prop :=
  ∃ event next, Step (privsepEnds order env calls) state event next ∧
    event.isInterrupt = false ∧
    (event = .close → ∃ rets, privsepCalls order calls [] state.written = .returned rets [])

/-- The loop has carried out the first `received` calls and can go on, or it has
stopped at the end of the stream, after all commands that were written in full. -/
inductive CarriesOut (order : ByteOrder) (env : FileEnv) (calls issued received : List PrivsepCall)
    (state : State UInt8) : Prop where
  | waiting {pending : Readn}
      (waits : privsepReadLoop order env state.read [] = .waiting (pending, carryOut env received))
      (advances : Advances order env calls state)
  | stopped (closed : state.closed = true) (all : received = issued) {ret : Int}
      (noError : 0 ≤ ret)
      (returned : privsepReadLoop order env state.read [] =
        .returned (carryOut env received ++ readnNote ret) [])

/-! ## Names -/

theorem getElem_strlcpy_zero {iface : Bytes} {index : Nat} (bound : index < ifnamsiz) :
    (strlcpy (Vector.replicate ifnamsiz 0) iface)[index] =
      if index < min iface.length 15 then iface.getD index 0 else 0 := by
  have last : ifnamsiz - 1 = 15 := rfl
  rw [strlcpy, Vector.getElem_ofFn, last]
  split
  · rfl
  · split_ifs
    · rfl
    · exact Vector.getElem_replicate _

theorem toList_strlcpy_zero (iface : Bytes) :
    ((strlcpy (Vector.replicate ifnamsiz 0) iface).set (ifnamsiz - 1) 0).toList =
      iface.take 15 ++ List.replicate (16 - min 15 iface.length) 0 := by
  apply List.ext_getElem
  · simp [ifnamsiz]
  · intro index bound bound'
    have inside : index < ifnamsiz := by simpa using bound
    have last : ifnamsiz - 1 = 15 := rfl
    rw [Vector.getElem_toList, Vector.getElem_set, getElem_strlcpy_zero inside]
    rcases Nat.lt_or_ge index (min 15 iface.length) with early | late
    · have taken : index < (iface.take 15).length := by rwa [List.length_take]
      rw [if_neg (by omega), if_pos (by omega), List.getElem_append_left taken, List.getElem_take]
      simp [List.getD_eq_getElem?_getD, (by omega : index < iface.length)]
    · have taken : (iface.take 15).length ≤ index := by rwa [List.length_take]
      rw [List.getElem_append_right taken, List.getElem_replicate]
      split
      · rfl
      · rw [if_neg (by omega)]

theorem name_privsepCommand {type : PrivsepType} {iface : Bytes} {val : UInt32}
    (text : 0 ∉ iface) : (privsepCommand type iface val).name = iface.take 15 := by
  have kept : ∀ octet ∈ iface.take 15, decide (octet ≠ 0) = true := by
    intro octet member
    apply decide_eq_true
    rintro rfl
    exact text (List.mem_of_mem_take member)
  rw [PrivsepCommand.name, privsepCommand, toList_strlcpy_zero,
    List.takeWhile_append_of_pos kept, List.takeWhile_replicate]
  simp

theorem privsepSwitch_command {env : FileEnv} {call : PrivsepCall} {done : List PrivsepAction} :
    privsepSwitch env call.command done =
      privsepSet env call.type (call.iface.take 15) call.val done := by
  have type : PrivsepType.ofInt32? call.command.type = some call.type :=
    PrivsepType.ofInt32?_toInt32 call.type
  unfold privsepSwitch
  rw [type]
  dsimp only
  rw [PrivsepCall.command, name_privsepCommand call.text]
  rfl

/-! ## The unprivileged process -/

section

variable {order : ByteOrder} {calls issued later : List PrivsepCall} {call : PrivsepCall}
  {rets : List Int} {written answers : List WriteAnswer} {pending : Writen}

/-- The calls that remain when a `write` of one of them is pending. -/
def resumeCalls (order : ByteOrder) (pending : Writen) (later : List PrivsepCall)
    (rets : List Int) (answers : List WriteAnswer) :
    Progress (Writen × List Int) WriteAnswer (List Int) :=
  match writen pending answers with
  | .waiting pending => .waiting (pending, rets)
  | .returned ret unused =>
      privsepCalls order later (rets ++ [if ret ≠ sizeofPrivsepCommand then -1 else 0]) unused

theorem issue_eq : call.issue order answers =
    privsepInterface order call.type call.iface call.val answers := by
  unfold PrivsepCall.issue
  cases call.type <;> rfl

theorem privsepCalls_cons : privsepCalls order (call :: later) rets answers =
    resumeCalls order ⟨call.command.bytes order, sizeofPrivsepCommand, 0⟩ later rets answers := by
  rw [privsepCalls, issue_eq, privsepInterface, resumeCalls, PrivsepCall.command]
  cases writen ⟨(privsepCommand call.type call.iface call.val).bytes order, sizeofPrivsepCommand, 0⟩
    answers with
  | waiting pending => rfl
  | returned ret unused => rfl

theorem resumeCalls_interrupted (positive : 0 < pending.count) :
    resumeCalls order pending later rets (.interrupted :: answers) =
      resumeCalls order pending later rets answers := by
  rw [resumeCalls, writen_interrupted positive, resumeCalls]

theorem resumeCalls_accepted {count : Nat} (positive : 0 < count) (le : count ≤ pending.count) :
    resumeCalls order pending later rets (.accepted count :: answers) =
      resumeCalls order ⟨pending.buf.drop count, pending.count - count, pending.n + count⟩ later
        rets answers := by
  rw [resumeCalls, writen_accepted positive le, resumeCalls]

theorem resumeCalls_of_count_eq_zero (count : pending.count = 0)
    (n : pending.n = sizeofPrivsepCommand) :
    resumeCalls order pending later rets answers =
      privsepCalls order later (rets ++ [0]) answers := by
  rw [resumeCalls, writen_of_count_eq_zero count, n]
  rfl

theorem resumeCalls_nil (positive : 0 < pending.count) :
    resumeCalls order pending later rets [] = .waiting (pending, rets) := by
  rw [resumeCalls, writen_nil positive]

/-- The process is between two calls, or in one of which `front` is written. -/
inductive Writing (order : ByteOrder) (calls issued : List PrivsepCall) (front : Bytes)
    (written : List WriteAnswer) : Prop where
  | waiting {call : PrivsepCall} {later : List PrivsepCall} {rest : Bytes}
      (split : calls = issued ++ call :: later)
      (bytes : call.command.bytes order = front ++ rest) (nonempty : rest ≠ [])
      (resumes : ∀ more, privsepCalls order calls [] (written ++ more) =
        resumeCalls order ⟨rest, rest.length, front.length⟩ later
          (List.replicate issued.length 0) more)
  | finished (all : issued = calls) (front_eq : front = [])
      (returned : privsepCalls order calls [] written =
        .returned (List.replicate issued.length 0) [])

theorem Writing.start (split : calls = issued ++ later)
    (resumes : ∀ more, privsepCalls order calls [] (written ++ more) =
      privsepCalls order later (List.replicate issued.length 0) more) :
    Writing order calls issued [] written := by
  cases later with
  | nil =>
      refine .finished (by rw [split, List.append_nil]) rfl ?_
      have here := resumes []
      rwa [List.append_nil, privsepCalls] at here
  | cons call later =>
      have length := call.command.length_bytes order
      refine .waiting split (List.nil_append _).symm ?_ ?_
      · apply List.ne_nil_of_length_pos
        rw [length]
        decide
      · intro more
        rw [resumes more, privsepCalls_cons, length]
        rfl

theorem Writing.initial (order : ByteOrder) (calls : List PrivsepCall) :
    Writing order calls [] [] [] :=
  .start rfl fun _ => rfl

theorem Writing.offers {front offered : Bytes} {env : FileEnv}
    (writing : Writing order calls issued front written)
    (offers : (privsepEnds order env calls).offers written = some offered) :
    ∃ call later, calls = issued ++ call :: later ∧
      call.command.bytes order = front ++ offered ∧ offered ≠ [] ∧
      ∀ more, privsepCalls order calls [] (written ++ more) =
        resumeCalls order ⟨offered, offered.length, front.length⟩ later
          (List.replicate issued.length 0) more := by
  cases writing with
  | @waiting call later rest split bytes nonempty resumes =>
      have here := resumes []
      rw [List.append_nil, resumeCalls_nil (List.length_pos_iff.mpr nonempty)] at here
      simp only [privsepEnds, here, List.take_length, Option.some.injEq] at offers
      subst offers
      exact ⟨call, later, split, bytes, nonempty, resumes⟩
  | finished all front_eq returned =>
      simp only [privsepEnds, returned] at offers
      cases offers

theorem Writing.accept {front offered : Bytes} {env : FileEnv} {count : Nat}
    (writing : Writing order calls issued front written)
    (offers : (privsepEnds order env calls).offers written = some offered)
    (positive : 0 < count) (le : count ≤ offered.length) :
    ∃ issued' front', Writing order calls issued' front' (written ++ [.accepted count]) ∧
      (issued'.map (·.command.bytes order)).flatten ++ front' =
        (issued.map (·.command.bytes order)).flatten ++ front ++ offered.take count := by
  rcases writing.offers offers with ⟨call, later, split, bytes, nonempty, resumes⟩
  have moved : ∀ more, privsepCalls order calls [] (written ++ [.accepted count] ++ more) =
      resumeCalls order
        ⟨offered.drop count, offered.length - count, front.length + count⟩ later
        (List.replicate issued.length 0) more := by
    intro more
    rw [List.append_assoc, resumes, List.singleton_append, resumeCalls_accepted positive le]
  have length := congrArg List.length bytes
  rw [call.command.length_bytes order, List.length_append] at length
  rcases Nat.lt_or_eq_of_le le with part | whole
  · have cut : call.command.bytes order =
        front ++ offered.take count ++ offered.drop count := by
      rw [List.append_assoc, List.take_append_drop, bytes]
    refine ⟨issued, front ++ offered.take count, .waiting split cut ?_ ?_, ?_⟩
    · apply List.ne_nil_of_length_pos
      rw [List.length_drop]
      omega
    · intro more
      rw [moved more, List.length_drop, List.length_append, List.length_take_of_le le]
    · rw [List.append_assoc]
  · have next : calls = issued ++ [call] ++ later := by
      rw [split, List.append_assoc, List.singleton_append]
    refine ⟨issued ++ [call], [], .start next ?_, ?_⟩
    · intro more
      rw [moved more, resumeCalls_of_count_eq_zero (by simp [whole]) (by simp [whole, length]),
        List.length_append, List.length_singleton, List.replicate_succ']
    · rw [List.take_of_length_le (Nat.le_of_eq whole.symm)]
      simp [bytes]

theorem Writing.interrupt {front offered : Bytes} {env : FileEnv}
    (writing : Writing order calls issued front written)
    (offers : (privsepEnds order env calls).offers written = some offered) :
    Writing order calls issued front (written ++ [.interrupted]) := by
  rcases writing.offers offers with ⟨call, later, split, bytes, nonempty, resumes⟩
  refine .waiting split bytes nonempty ?_
  intro more
  rw [List.append_assoc, resumes, List.singleton_append,
    resumeCalls_interrupted (List.length_pos_iff.mpr nonempty)]

theorem Writing.issues {front : Bytes} (writing : Writing order calls issued front written) :
    Issues order calls issued written := by
  cases writing with
  | waiting split bytes nonempty resumes =>
      have here := resumes []
      rw [List.append_nil, resumeCalls_nil (List.length_pos_iff.mpr nonempty)] at here
      exact .waiting here
  | finished all front_eq returned => exact .finished all returned

theorem Writing.isPrefix {front : Bytes} (writing : Writing order calls issued front written) :
    issued <+: calls := by
  cases writing with
  | waiting split => exact ⟨_, split.symm⟩
  | finished all => exact all ▸ List.prefix_rfl

theorem Writing.short {front : Bytes} (writing : Writing order calls issued front written) :
    front.length < sizeofPrivsepCommand := by
  cases writing with
  | @waiting call later rest split bytes nonempty =>
      have length := congrArg List.length bytes
      have positive := List.length_pos_iff.mpr nonempty
      rw [call.command.length_bytes order, List.length_append] at length
      omega
  | finished all front_eq =>
      rw [front_eq]
      decide

end

/-! ## The privileged process -/

section

variable {order : ByteOrder} {env : FileEnv} {answers more : List (ReadAnswer UInt8)}
  {pending : Readn} {done : List PrivsepAction} {records : List Bytes} {buf : Bytes}

/-- The rest of the loop when a `read` for one of the commands is pending. -/
def resumeLoop (order : ByteOrder) (env : FileEnv) (pending : Readn) (done : List PrivsepAction)
    (answers : List (ReadAnswer UInt8)) :
    Progress (Readn × List PrivsepAction) (ReadAnswer UInt8) (List PrivsepAction) :=
  match readn pending answers with
  | .waiting pending => .waiting (pending, done)
  | .returned (ret, cmd) unused =>
      if ret ≠ sizeofPrivsepCommand then .returned (done ++ readnNote ret) unused
      else
        privsepReadLoop order env unused
          (privsepSwitch env (.ofBytes order cmd) (done ++ readnNote ret))

theorem privsepReadLoop_eq_resumeLoop : privsepReadLoop order env answers done =
    resumeLoop order env ⟨[], sizeofPrivsepCommand, 0⟩ done answers := by
  unfold resumeLoop
  cases result : readn ⟨[], sizeofPrivsepCommand, 0⟩ answers with
  | waiting pending => exact privsepReadLoop_of_waiting result
  | returned value unused => exact privsepReadLoop_of_returned result

theorem resumeLoop_nil (positive : 0 < pending.count) :
    resumeLoop order env pending done [] = .waiting (pending, done) := by
  rw [resumeLoop, readn_nil positive]

theorem resumeLoop_interrupted (positive : 0 < pending.count) :
    resumeLoop order env pending done (.interrupted :: more) =
      resumeLoop order env pending done more := by
  rw [resumeLoop, readn_interrupted positive, resumeLoop]

theorem resumeLoop_data {items : Bytes} (nonempty : items ≠ [])
    (le : items.length ≤ pending.count) :
    resumeLoop order env pending done (.data items :: more) =
      resumeLoop order env
        ⟨pending.buf ++ items, pending.count - items.length, pending.n + items.length⟩ done more := by
  rw [resumeLoop, readn_data nonempty le, resumeLoop]

theorem resumeLoop_end (positive : 0 < pending.count) (short : pending.n < sizeofPrivsepCommand) :
    resumeLoop order env pending done (.data [] :: more) =
      .returned (done ++ readnNote pending.n) more := by
  rw [resumeLoop, readn_end positive]
  dsimp only
  rw [if_pos]
  omega

theorem resumeLoop_of_count_eq_zero (count : pending.count = 0)
    (n : pending.n = sizeofPrivsepCommand) :
    resumeLoop order env pending done more =
      privsepReadLoop order env more (privsepSwitch env (.ofBytes order pending.buf) done) := by
  have note : readnNote (sizeofPrivsepCommand : Nat) = [] := rfl
  rw [resumeLoop, readn_of_count_eq_zero count, n]
  dsimp only
  rw [if_neg (not_not.mpr rfl), note, List.append_nil]

def carryOutRecords (order : ByteOrder) (env : FileEnv) (records : List Bytes) :
    List PrivsepAction :=
  records.foldl (fun done record => privsepSwitch env (.ofBytes order record) done) []

/-- The octets handed over are these records and a part of the next one. -/
structure Gathers (records : List Bytes) (buf : Bytes) (answers : List (ReadAnswer UInt8)) :
    Prop where
  sizes : ∀ record ∈ records, record.length = sizeofPrivsepCommand
  short : buf.length < sizeofPrivsepCommand
  given_eq : given answers = records.flatten ++ buf

/-- The loop is in `readn` or has seen the end of the stream. -/
inductive Reading (order : ByteOrder) (env : FileEnv) (records : List Bytes) (buf : Bytes)
    (answers : List (ReadAnswer UInt8)) : Prop where
  | waiting (gathers : Gathers records buf answers)
      (weight_eq : (answers.map ReadAnswer.weight).sum = (given answers).length)
      (resumes : ∀ more, privsepReadLoop order env (answers ++ more) [] =
        resumeLoop order env ⟨buf, sizeofPrivsepCommand - buf.length, buf.length⟩
          (carryOutRecords order env records) more)
  | stopped (gathers : Gathers records buf answers)
      (weight_eq : (answers.map ReadAnswer.weight).sum = (given answers).length + 1)
      (ended : .data [] ∈ answers)
      (returned : privsepReadLoop order env answers [] =
        .returned (carryOutRecords order env records ++ readnNote buf.length) [])

theorem Reading.initial (order : ByteOrder) (env : FileEnv) : Reading order env [] [] [] := by
  refine .waiting ⟨?_, by decide, rfl⟩ rfl ?_
  · intro record member
    exact absurd member List.not_mem_nil
  · intro more
    exact privsepReadLoop_eq_resumeLoop

theorem Reading.gathers (reading : Reading order env records buf answers) :
    Gathers records buf answers := by
  cases reading with
  | waiting gathers => exact gathers
  | stopped gathers => exact gathers

theorem Reading.wants {calls : List PrivsepCall} {wanted : Nat}
    (reading : Reading order env records buf answers)
    (wants : (privsepEnds order env calls).wants answers = some wanted) :
    wanted = sizeofPrivsepCommand - buf.length ∧
      (answers.map ReadAnswer.weight).sum = (given answers).length ∧
      ∀ more, privsepReadLoop order env (answers ++ more) [] =
        resumeLoop order env ⟨buf, sizeofPrivsepCommand - buf.length, buf.length⟩
          (carryOutRecords order env records) more := by
  cases reading with
  | waiting gathers weight_eq resumes =>
      have here := resumes []
      rw [List.append_nil, resumeLoop_nil (Nat.sub_pos_of_lt gathers.short)] at here
      simp only [privsepEnds, here, Option.some.injEq] at wants
      exact ⟨wants.symm, weight_eq, resumes⟩
  | stopped gathers weight_eq ended returned =>
      simp only [privsepEnds, returned] at wants
      cases wants

theorem Reading.interrupt {calls : List PrivsepCall} {wanted : Nat}
    (reading : Reading order env records buf answers)
    (wants : (privsepEnds order env calls).wants answers = some wanted) :
    Reading order env records buf (answers ++ [.interrupted]) := by
  rcases reading.wants wants with ⟨_, weight_eq, resumes⟩
  rcases reading.gathers with ⟨sizes, short, given_eq⟩
  refine .waiting ⟨sizes, short, ?_⟩ ?_ ?_
  · simpa [ReadAnswer.items] using given_eq
  · simpa [ReadAnswer.weight, ReadAnswer.items] using weight_eq
  · intro more
    rw [List.append_assoc, resumes, List.singleton_append,
      resumeLoop_interrupted (Nat.sub_pos_of_lt short)]

theorem Reading.finish {calls : List PrivsepCall} {wanted : Nat}
    (reading : Reading order env records buf answers)
    (wants : (privsepEnds order env calls).wants answers = some wanted) :
    Reading order env records buf (answers ++ [.data []]) := by
  rcases reading.wants wants with ⟨_, weight_eq, resumes⟩
  rcases reading.gathers with ⟨sizes, short, given_eq⟩
  refine .stopped ⟨sizes, short, ?_⟩ ?_ ?_ ?_
  · simpa [ReadAnswer.items] using given_eq
  · simpa [ReadAnswer.weight, ReadAnswer.items] using weight_eq
  · exact List.mem_append_right _ List.mem_cons_self
  · rw [resumes, resumeLoop_end (Nat.sub_pos_of_lt short) short]

theorem Reading.deliver {calls : List PrivsepCall} {wanted : Nat} {items : Bytes}
    (reading : Reading order env records buf answers)
    (wants : (privsepEnds order env calls).wants answers = some wanted)
    (nonempty : items ≠ []) (le : items.length ≤ wanted) :
    ∃ records' buf', Reading order env records' buf' (answers ++ [.data items]) := by
  rcases reading.wants wants with ⟨rfl, weight_eq, resumes⟩
  rcases reading.gathers with ⟨sizes, short, given_eq⟩
  have weight : ((answers ++ [ReadAnswer.data items]).map ReadAnswer.weight).sum =
      (given (answers ++ [ReadAnswer.data items])).length := by
    cases items with
    | nil => exact absurd rfl nonempty
    | cons first others => simp [ReadAnswer.weight, ReadAnswer.items, weight_eq]
  have moved : ∀ more, privsepReadLoop order env (answers ++ [.data items] ++ more) [] =
      resumeLoop order env
        ⟨buf ++ items, sizeofPrivsepCommand - buf.length - items.length,
          buf.length + items.length⟩ (carryOutRecords order env records) more := by
    intro more
    rw [List.append_assoc, resumes, List.singleton_append, resumeLoop_data nonempty le]
  rcases Nat.lt_or_eq_of_le le with part | whole
  · refine ⟨records, buf ++ items, .waiting ⟨sizes, ?_, ?_⟩ weight ?_⟩
    · rw [List.length_append]
      omega
    · rw [given_append, given_eq, given_singleton, List.append_assoc]
      rfl
    · intro more
      rw [moved, List.length_append, Nat.sub_sub]
  · refine ⟨records ++ [buf ++ items], [], .waiting ⟨?_, by decide, ?_⟩ weight ?_⟩
    · intro record member
      rcases List.mem_append.mp member with before | now
      · exact sizes record before
      · rw [List.mem_singleton.mp now, List.length_append]
        omega
    · rw [given_append, given_eq, given_singleton]
      simp [ReadAnswer.items]
    · intro more
      rw [moved, resumeLoop_of_count_eq_zero (by simp only [whole]; omega)
        (by simp only [whole]; omega), privsepReadLoop_eq_resumeLoop, carryOutRecords,
        carryOutRecords, List.foldl_append]
      rfl

end

/-! ## Both together -/

section

variable {order : ByteOrder} {env : FileEnv} {calls issued : List PrivsepCall}
  {state next : State UInt8} {event : Event} {events : List Event}

/-- The octets of the commands. -/
def octets (order : ByteOrder) (calls : List PrivsepCall) : List Bytes :=
  calls.map (·.command.bytes order)

theorem length_of_mem_octets : ∀ record ∈ octets order calls,
    record.length = sizeofPrivsepCommand := by
  intro record member
  rcases List.mem_map.mp member with ⟨call, _, rfl⟩
  exact call.command.length_bytes order

theorem length_flatten_octets :
    (octets order calls).flatten.length = sizeofPrivsepCommand * calls.length := by
  induction calls with
  | nil => rfl
  | cons call calls ih =>
      have tail : (octets order (call :: calls)).flatten =
          call.command.bytes order ++ (octets order calls).flatten := rfl
      rw [tail, List.length_append, ih, call.command.length_bytes order, List.length_cons,
        Nat.mul_succ, Nat.add_comm]

theorem exists_received {records : List Bytes} (le : records <+: octets order issued) :
    ∃ received, received <+: issued ∧ records = octets order received := by
  rcases le with ⟨later, whole⟩
  rcases List.map_eq_append_iff.mp whole.symm with ⟨received, others, split, same, _⟩
  exact ⟨received, ⟨others, split.symm⟩, same.symm⟩

theorem octets_injective_of_isPrefix {received : List PrivsepCall} (le : received <+: issued)
    (same : octets order received = octets order issued) : received = issued := by
  apply le.eq_of_length
  have length := congrArg List.length same
  simpa [octets] using length

theorem carryOutRecords_octets :
    carryOutRecords order env (octets order calls) = carryOut env calls := by
  unfold carryOutRecords carryOut octets
  rw [List.foldl_map]
  congr 1
  funext done call
  rw [PrivsepCommand.ofBytes_bytes, privsepSwitch_command]

/-- The two processes as the pipe has served them. -/
structure Flows (order : ByteOrder) (env : FileEnv) (calls : List PrivsepCall)
    (state : State UInt8) : Prop where
  writes : ∃ issued front, Writing order calls issued front state.written ∧
    state.sent = (octets order issued).flatten ++ front
  reads : ∃ records buf, Reading order env records buf state.read

theorem Flows.step (step : Step (privsepEnds order env calls) state event next)
    (flows : Flows order env calls state) : Flows order env calls next := by
  rcases flows with ⟨⟨issued, front, writing, sent⟩, ⟨records, buf, reading⟩⟩
  cases step with
  | accept offers isOpen positive le =>
      rcases writing.accept offers positive le with ⟨issued', front', after, octets⟩
      refine ⟨⟨issued', front', after, ?_⟩, ⟨records, buf, reading⟩⟩
      rw [sent]
      exact octets.symm
  | interruptWrite offers isOpen =>
      exact ⟨⟨issued, front, writing.interrupt offers, sent⟩, ⟨records, buf, reading⟩⟩
  | close isOpen => exact ⟨⟨issued, front, writing, sent⟩, ⟨records, buf, reading⟩⟩
  | @deliver wanted count wants positive le held =>
      refine ⟨⟨issued, front, writing, sent⟩, reading.deliver wants ?_ ?_⟩
      · apply List.ne_nil_of_length_pos
        rw [List.length_take]
        omega
      · rw [List.length_take]
        omega
  | interruptRead wants =>
      exact ⟨⟨issued, front, writing, sent⟩, ⟨records, buf, reading.interrupt wants⟩⟩
  | finish wants isClosed empty =>
      exact ⟨⟨issued, front, writing, sent⟩, ⟨records, buf, reading.finish wants⟩⟩

theorem flows_of_run (run : Run (Step (privsepEnds order env calls)) .initial events state) :
    Flows order env calls state := by
  apply run.invariant
  · intro state event next step flows
    exact flows.step step
  · exact ⟨⟨[], [], .initial order calls, rfl⟩, ⟨[], [], .initial order env⟩⟩

theorem advances_of_waiting {front : Bytes} {pending : Readn} {done : List PrivsepAction}
    (writing : Writing order calls issued front state.written)
    (waits : privsepReadLoop order env state.read [] = .waiting (pending, done))
    (positive : 0 < pending.count) : Advances order env calls state := by
  have wants : (privsepEnds order env calls).wants state.read = some pending.count := by
    simp only [privsepEnds, waits]
  rcases held : state.contents with _ | ⟨first, others⟩
  · cases closed : state.closed with
    | true => exact ⟨.finish, _, .finish wants closed held, rfl, by simp⟩
    | false =>
        cases writing with
        | @waiting call later rest split bytes nonempty resumes =>
            have here := resumes []
            have length := List.length_pos_iff.mpr nonempty
            rw [List.append_nil, resumeCalls_nil length] at here
            have offers : (privsepEnds order env calls).offers state.written = some rest := by
              simp only [privsepEnds, here, List.take_length]
            exact ⟨.accept 1, _, .accept offers closed Nat.one_pos length, rfl, by simp⟩
        | finished all front_eq returned =>
            exact ⟨.close, _, .close closed, rfl, fun _ => ⟨_, returned⟩⟩
  · refine ⟨.deliver 1, _, .deliver wants Nat.one_pos positive ?_, rfl, by simp⟩
    rw [held]
    exact Nat.succ_le_succ (Nat.zero_le _)

theorem weight_le {front : Bytes}
    (run : Run (Step (privsepEnds order env calls)) .initial events state)
    (writing : Writing order calls issued front state.written)
    (sent : state.sent = (octets order issued).flatten ++ front) {records : List Bytes}
    {buf : Bytes} (reading : Reading order env records buf state.read) :
    state.weight ≤ 2 * (sizeofPrivsepCommand * calls.length) + 2 := by
  have sentLength : state.sent.length ≤ sizeofPrivsepCommand * calls.length := by
    rw [sent, List.length_append, length_flatten_octets]
    cases writing with
    | @waiting call later rest split bytes nonempty resumes =>
        have length := congrArg List.length bytes
        rw [call.command.length_bytes order, List.length_append] at length
        rw [split, List.length_append, List.length_cons, sizeofPrivsepCommand] at *
        omega
    | finished all front_eq returned =>
        rw [all, front_eq]
        exact Nat.le_refl _
  have given := (given_isPrefix run).length_le
  have closed : state.closed.toNat ≤ 1 := Bool.toNat_le _
  have read : (state.read.map ReadAnswer.weight).sum ≤ (Pipe.given state.read).length + 1 := by
    cases reading with
    | waiting gathers weight_eq => omega
    | stopped gathers weight_eq => omega
  unfold State.weight
  omega

/-- Whatever the kernel does, the privileged process carries out the commands of
the unprivileged one. -/
theorem privsep_delivers
    (run : Run (Step (privsepEnds order env calls)) .initial events state) :
    (∃ issued received, issued <+: calls ∧ received <+: issued ∧
      Issues order calls issued state.written ∧
      CarriesOut order env calls issued received state) ∧
    (events.filter fun event => !event.isInterrupt).length ≤ 48 * calls.length + 2 := by
  rcases flows_of_run run with ⟨⟨issued, front, writing, sent⟩, ⟨records, buf, reading⟩⟩
  have gathers := reading.gathers
  have ordered := given_isPrefix run
  rw [gathers.given_eq, sent] at ordered
  have front_short := writing.short
  rcases exists_received
      (records_isPrefix gathers.sizes length_of_mem_octets front_short ordered) with
    ⟨received, le, same⟩
  subst same
  constructor
  · refine ⟨issued, received, writing.isPrefix, le, writing.issues, ?_⟩
    cases reading with
    | waiting _ weight_eq resumes =>
        have here := resumes []
        have positive := Nat.sub_pos_of_lt gathers.short
        rw [List.append_nil, resumeLoop_nil positive, carryOutRecords_octets] at here
        exact .waiting here (advances_of_waiting writing here positive)
    | stopped _ weight_eq ended returned =>
        rcases given_eq_of_ended run ended with ⟨closed, all⟩
        rw [gathers.given_eq, sent] at all
        have unique := records_unique gathers.sizes length_of_mem_octets gathers.short
          front_short all
        rw [carryOutRecords_octets] at returned
        exact .stopped closed (octets_injective_of_isPrefix le unique.1)
          (Int.natCast_nonneg _) returned
  · have bound := Run.length_le_weight run
    have weight := weight_le run writing sent reading
    have total : 2 * (sizeofPrivsepCommand * calls.length) = 48 * calls.length := by
      rw [sizeofPrivsepCommand]
      omega
    omega

end

/-- A system in which every variable can be set. -/
def settable : FileEnv :=
  ⟨fun _ => .opened, fun _ => true, fun _ => 4⟩

/-- `eth0` with the least MTU. -/
def eth0Mtu : PrivsepCall :=
  ⟨.setInterfaceLinkmtu, ascii "eth0", by decide, 1280⟩

def eth0Curhlim : PrivsepCall :=
  ⟨.setInterfaceCurhlim, ascii "eth0", by decide, 64⟩

def eth0Octets : Bytes :=
  eth0Mtu.command.bytes .littleEndian ++ eth0Curhlim.command.bytes .littleEndian

/-- The pieces of the two commands, and the end of the stream. -/
def eth0State : State UInt8 where
  written := [.accepted 10, .accepted 14, .accepted 6, .interrupted, .accepted 18]
  sent := eth0Octets
  closed := true
  read := [.interrupted, .data (eth0Octets.take 4), .data ((eth0Octets.drop 4).take 20),
    .data (eth0Octets.drop 24), .data []]

/-- Before the second piece is read the pipe holds the rest of the first command and
the beginning of the other one. -/
theorem run_eth0 : Run (Step (privsepEnds .littleEndian settable [eth0Mtu, eth0Curhlim])) .initial
    [.accept 10, .interruptRead, .deliver 4, .accept 14, .accept 6, .deliver 20, .interruptWrite,
      .accept 18, .close, .deliver 24, .finish] eth0State := by
  refine .cons (.accept rfl rfl (by decide) (by decide)) ?_
  refine .cons (@Step.interruptRead _ _ _ 24 (by with_unfolding_all decide)) ?_
  refine .cons (@Step.deliver _ _ _ 24 4 (by with_unfolding_all decide) (by decide) (by decide)
    (by decide)) ?_
  refine .cons (.accept rfl rfl (by decide) (by decide)) ?_
  refine .cons (.accept rfl rfl (by decide) (by decide)) ?_
  refine .cons (@Step.deliver _ _ _ 20 20 (by with_unfolding_all decide) (by decide) (by decide)
    (by decide)) ?_
  refine .cons (.interruptWrite rfl rfl) ?_
  refine .cons (.accept rfl rfl (by decide) (by decide)) ?_
  refine .cons (.close rfl) ?_
  refine .cons (@Step.deliver _ _ _ 24 24 (by with_unfolding_all decide) (by decide) (by decide)
    (by decide)) ?_
  refine .cons (@Step.finish _ _ _ 24 (by with_unfolding_all decide) rfl (by decide)) ?_
  exact .nil eth0State

theorem privsep_delivers_eth0 :
    (∃ issued received, issued <+: [eth0Mtu, eth0Curhlim] ∧ received <+: issued ∧
      Issues .littleEndian [eth0Mtu, eth0Curhlim] issued eth0State.written ∧
      CarriesOut .littleEndian settable [eth0Mtu, eth0Curhlim] issued received eth0State) ∧
    privsepReadLoop .littleEndian settable eth0State.read [] =
      .returned [.openFile (ascii "/proc/sys/net/ipv6/conf/eth0/mtu"),
        .fprintf (ascii "/proc/sys/net/ipv6/conf/eth0/mtu") 1280,
        .openFile (ascii "/proc/sys/net/ipv6/conf/eth0/hop_limit"),
        .fprintf (ascii "/proc/sys/net/ipv6/conf/eth0/hop_limit") 64,
        .flog .readnReturnZero] [] :=
  ⟨(privsep_delivers run_eth0).1, by decide +kernel⟩

end Radvd
