import Radvd.Defs
import Radvd.Dump.Text
import Radvd.Transfers

/-!
# The privileged process

`privsep-linux.c`: the commands that the daemon sends through a pipe to the
process that keeps the privileges, and what that process does with them.

Both processes run the same program, so a command is stored and loaded in the
byte order of the machine (`PrivsepCommand.ofBytes_bytes`).
-/

namespace Radvd

open Wire Pipe Dump

/-! ## Commands -/

inductive PrivsepType where
  | setInterfaceLinkmtu
  | setInterfaceCurhlim
  | setInterfaceReachtime
  | setInterfaceRetranstimer
  deriving DecidableEq, Repr

def PrivsepType.toInt32 : PrivsepType → Int32
  | .setInterfaceLinkmtu => 0
  | .setInterfaceCurhlim => 1
  | .setInterfaceReachtime => 2
  | .setInterfaceRetranstimer => 3

def PrivsepType.ofInt32? (type : Int32) : Option PrivsepType :=
  if type = 0 then some .setInterfaceLinkmtu
  else if type = 1 then some .setInterfaceCurhlim
  else if type = 2 then some .setInterfaceReachtime
  else if type = 3 then some .setInterfaceRetranstimer
  else none

@[simp]
theorem PrivsepType.ofInt32?_toInt32 (type : PrivsepType) : ofInt32? type.toInt32 = some type := by
  cases type <;> rfl

def ifnamsiz : Nat := 16

structure PrivsepCommand where
  type : Int32
  iface : Vector UInt8 ifnamsiz
  val : UInt32
  deriving DecidableEq, Repr

def ByteOrder.store32 (order : ByteOrder) (value : UInt32) : Bytes :=
  match order with
  | .bigEndian => be32 value
  | .littleEndian => (be32 value).reverse

def ByteOrder.load32 (order : ByteOrder) (bytes : Bytes) : UInt32 :=
  match order with
  | .bigEndian => (Memory.ofBytes bytes).u32 0
  | .littleEndian => (Memory.ofBytes (bytes.take 4).reverse).u32 0

/-- `sizeof(struct privsep_command)` -/
def sizeofPrivsepCommand : Nat := 24

/-- The command as it lies in memory. -/
def PrivsepCommand.bytes (order : ByteOrder) (cmd : PrivsepCommand) : Bytes :=
  order.store32 cmd.type.toUInt32 ++ cmd.iface.toList ++ order.store32 cmd.val

def PrivsepCommand.ofBytes (order : ByteOrder) (bytes : Bytes) : PrivsepCommand where
  type := (order.load32 bytes).toInt32
  iface := Vector.ofFn fun index => bytes.getD (4 + index) 0
  val := order.load32 (bytes.drop 20)

@[simp]
theorem ByteOrder.length_store32 (order : ByteOrder) (value : UInt32) :
    (order.store32 value).length = 4 := by
  cases order <;> rfl

theorem ByteOrder.load32_store32 (order : ByteOrder) (value : UInt32) (rest : Bytes) :
    order.load32 (order.store32 value ++ rest) = value := by
  cases order with
  | bigEndian =>
      apply Memory.u32_of_holds
      exact (Memory.holds_append.mp (Memory.holds_ofBytes _)).1
  | littleEndian =>
      rw [load32, List.take_left' (length_store32 _ _), store32, List.reverse_reverse]
      exact Memory.u32_of_holds (Memory.holds_ofBytes _)

@[simp]
theorem PrivsepCommand.length_bytes (order : ByteOrder) (cmd : PrivsepCommand) :
    (cmd.bytes order).length = sizeofPrivsepCommand := by
  simp only [bytes, List.length_append, ByteOrder.length_store32, Vector.length_toList]
  rfl

@[simp]
theorem PrivsepCommand.ofBytes_bytes (order : ByteOrder) (cmd : PrivsepCommand) :
    ofBytes order (cmd.bytes order) = cmd := by
  have type : order.load32 (cmd.bytes order) = cmd.type.toUInt32 := by
    rw [bytes, List.append_assoc, ByteOrder.load32_store32]
  have val : order.load32 ((cmd.bytes order).drop 20) = cmd.val := by
    have rest : (cmd.bytes order).drop 20 = order.store32 cmd.val := by
      rw [bytes, List.drop_left']
      rw [List.length_append, ByteOrder.length_store32, Vector.length_toList]
      rfl
    rw [rest, ← List.append_nil (order.store32 cmd.val), ByteOrder.load32_store32]
  have iface : (Vector.ofFn fun index : Fin ifnamsiz => (cmd.bytes order).getD (4 + index) 0) =
      cmd.iface := by
    ext index bound
    have inside : 4 + index - (order.store32 cmd.type.toUInt32).length = index := by simp
    rw [Vector.getElem_ofFn, List.getD_eq_getElem?_getD, bytes, List.append_assoc,
      List.getElem?_append_right (by simp), inside,
      List.getElem?_append_left (by rwa [Vector.length_toList])]
    simp [bound]
  rw [ofBytes, type, val, iface]
  rfl

/-- The name in a command, its last octet being overwritten with NUL. -/
def PrivsepCommand.name (cmd : PrivsepCommand) : Bytes :=
  (cmd.iface.set (ifnamsiz - 1) 0).toList.takeWhile (· ≠ 0)

/-! ## The calls of the unprivileged process -/

def strlcpy {size : Nat} (dst : Vector UInt8 size) (src : Bytes) : Vector UInt8 size :=
  Vector.ofFn fun index =>
    if index < min src.length (size - 1) then src.getD index 0
    else if index = min src.length (size - 1) then 0
    else dst[index]

def privsepCommand (type : PrivsepType) (iface : Bytes) (val : UInt32) : PrivsepCommand where
  type := type.toInt32
  iface := strlcpy (Vector.replicate ifnamsiz 0) iface
  val := val

def privsepInterface (order : ByteOrder) (type : PrivsepType) (iface : Bytes) (val : UInt32)
    (answers : List WriteAnswer) : Progress Writen WriteAnswer Int :=
  match writen ⟨(privsepCommand type iface val).bytes order, sizeofPrivsepCommand, 0⟩ answers with
  | .waiting pending => .waiting pending
  | .returned ret unused => .returned (if ret ≠ sizeofPrivsepCommand then -1 else 0) unused

def privsepInterfaceLinkmtu (order : ByteOrder) (iface : Bytes) (mtu : UInt32) :
    List WriteAnswer → Progress Writen WriteAnswer Int :=
  privsepInterface order .setInterfaceLinkmtu iface mtu

def privsepInterfaceCurhlim (order : ByteOrder) (iface : Bytes) (hlim : UInt32) :
    List WriteAnswer → Progress Writen WriteAnswer Int :=
  privsepInterface order .setInterfaceCurhlim iface hlim

def privsepInterfaceReachtime (order : ByteOrder) (iface : Bytes) (rtime : UInt32) :
    List WriteAnswer → Progress Writen WriteAnswer Int :=
  privsepInterface order .setInterfaceReachtime iface rtime

def privsepInterfaceRetranstimer (order : ByteOrder) (iface : Bytes) (rettimer : UInt32) :
    List WriteAnswer → Progress Writen WriteAnswer Int :=
  privsepInterface order .setInterfaceRetranstimer iface rettimer

/-! ## Setting a variable of an interface -/

inductive PrivsepMessage where
  | readnError
  | readnReturnZero
  | notWithinBounds (type : PrivsepType) (iface : Bytes) (val : UInt32)
  | failedToSet (name : Bytes) (val : UInt32) (iface : Bytes)
  | readLoopComplete
  deriving DecidableEq, Repr

/-- What the privileged process does: it opens a file for writing, prints a
number to the file it has opened, or logs a message. -/
inductive PrivsepAction where
  | openFile (path : Bytes)
  | fprintf (path : Bytes) (val : UInt32)
  | flog (message : PrivsepMessage)
  deriving DecidableEq, Repr

inductive OpenAnswer where
  | enoent
  | failed
  | opened
  deriving DecidableEq, Repr

/-- What the system answers, after everything the process has done so far. -/
structure FileEnv where
  openFile : List PrivsepAction → OpenAnswer
  fdopen : List PrivsepAction → Bool
  fprintf : List PrivsepAction → Int

def procSysIp6Linkmtu : Bytes := ascii "/proc/sys/net/ipv6/conf/%s/mtu"

def procSysIp6Curhlim : Bytes := ascii "/proc/sys/net/ipv6/conf/%s/hop_limit"

def procSysIp6BasereachtimeMs : Bytes :=
  ascii "/proc/sys/net/ipv6/neigh/%s/base_reachable_time_ms"

def procSysIp6Basereachtime : Bytes := ascii "/proc/sys/net/ipv6/neigh/%s/base_reachable_time"

def procSysIp6RetranstimerMs : Bytes := ascii "/proc/sys/net/ipv6/neigh/%s/retrans_time_ms"

def procSysIp6Retranstimer : Bytes := ascii "/proc/sys/net/ipv6/neigh/%s/retrans_time"

/-- `strdupf` for a format whose only conversion is `%s`. -/
def strdupf : Bytes → Bytes → Bytes
  | 37 :: 115 :: format, iface => iface ++ format
  | octet :: format, iface => octet :: strdupf format iface
  | [], _ => []

def setInterfaceVar (env : FileEnv) (iface var name : Bytes) (val : UInt32)
    (done : List PrivsepAction) : Int × List PrivsepAction :=
  let spath := strdupf var iface
  let failure := PrivsepAction.flog (.failedToSet name val iface)
  if iface = [] || iface = ascii "." || iface = ascii ".." || slash ∈ iface then
    (-1, done ++ [failure])
  else
    let done := done ++ [.openFile spath]
    match env.openFile done with
    | .enoent => (-1, done)
    | .failed => (-1, done ++ [failure])
    | .opened =>
        if !env.fdopen done then
          (-1, done ++ [failure])
        else
          let done := done ++ [.fprintf spath val]
          if env.fprintf done > 0 then (0, done) else (-1, done ++ [failure])

/-! ## The privileged read loop -/

def minAdvLinkMTU : UInt32 := 1280

def maxAdvLinkMTU : UInt32 := 131072

def minAdvReachableTime : UInt32 := 100

def maxAdvReachableTime : UInt32 := 3600000

def minAdvRetransTimer : UInt32 := 10

def maxAdvRetransTimer : UInt32 := 3600000

def minAdvCurHopLimit : UInt32 := 2

def maxAdvCurHopLimit : UInt32 := 255

def userHz : UInt32 := 100

/-- The branches of the `switch` of `privsep_read_loop`. -/
def privsepSet (env : FileEnv) (type : PrivsepType) (iface : Bytes) (val : UInt32)
    (done : List PrivsepAction) : List PrivsepAction :=
  match type with
  | .setInterfaceLinkmtu =>
      if val < minAdvLinkMTU || val > maxAdvLinkMTU then
        done ++ [.flog (.notWithinBounds type iface val)]
      else
        (setInterfaceVar env iface procSysIp6Linkmtu (ascii "LinkMTU") val done).2
  | .setInterfaceCurhlim =>
      if val < minAdvCurHopLimit || val > maxAdvCurHopLimit then
        done ++ [.flog (.notWithinBounds type iface val)]
      else
        (setInterfaceVar env iface procSysIp6Curhlim (ascii "CurHopLimit") val done).2
  | .setInterfaceReachtime =>
      if val < minAdvReachableTime || val > maxAdvReachableTime then
        done ++ [.flog (.notWithinBounds type iface val)]
      else
        let (ret, done) := setInterfaceVar env iface procSysIp6BasereachtimeMs
          (ascii "BaseReachableTimer (ms)") val done
        if ret = 0 then done
        else
          (setInterfaceVar env iface procSysIp6Basereachtime (ascii "BaseReachableTimer")
            (val / 1000) done).2
  | .setInterfaceRetranstimer =>
      if val < minAdvRetransTimer || val > maxAdvRetransTimer then
        done ++ [.flog (.notWithinBounds type iface val)]
      else
        let (ret, done) := setInterfaceVar env iface procSysIp6RetranstimerMs
          (ascii "RetransTimer (ms)") val done
        if ret = 0 then done
        else
          (setInterfaceVar env iface procSysIp6Retranstimer (ascii "RetransTimer")
            (val / 1000 * userHz) done).2

def privsepSwitch (env : FileEnv) (cmd : PrivsepCommand) (done : List PrivsepAction) :
    List PrivsepAction :=
  match PrivsepType.ofInt32? cmd.type with
  | some type => privsepSet env type cmd.name cmd.val done
  | none => done

def readnNote (ret : Int) : List PrivsepAction :=
  if ret < 0 then [.flog .readnError]
  else if ret = 0 then [.flog .readnReturnZero]
  else []

def privsepReadLoop (order : ByteOrder) (env : FileEnv) (answers : List (ReadAnswer UInt8))
    (done : List PrivsepAction) :
    Progress (Readn × List PrivsepAction) (ReadAnswer UInt8) (List PrivsepAction) :=
  match _returned : readn ⟨[], sizeofPrivsepCommand, 0⟩ answers with
  | .waiting pending => .waiting (pending, done)
  | .returned (ret, cmd) unused =>
      if ret ≠ sizeofPrivsepCommand then
        .returned (done ++ readnNote ret) unused
      else
        privsepReadLoop order env unused
          (privsepSwitch env (.ofBytes order cmd) (done ++ readnNote ret))
termination_by answers.length
decreasing_by exact unused_readn_lt (by decide) _returned

section

variable {order : ByteOrder} {env : FileEnv} {answers unused : List (ReadAnswer UInt8)}
  {done : List PrivsepAction} {pending : Readn} {ret : Int} {cmd : Bytes}

theorem privsepReadLoop_of_waiting
    (waits : readn ⟨[], sizeofPrivsepCommand, 0⟩ answers = .waiting pending) :
    privsepReadLoop order env answers done = .waiting (pending, done) := by
  rw [privsepReadLoop]
  split
  · rename_i other found
    rw [waits] at found
    cases found
    rfl
  · rename_i found
    rw [waits] at found
    cases found

theorem privsepReadLoop_of_returned
    (returned : readn ⟨[], sizeofPrivsepCommand, 0⟩ answers = .returned (ret, cmd) unused) :
    privsepReadLoop order env answers done =
      if ret ≠ sizeofPrivsepCommand then .returned (done ++ readnNote ret) unused
      else
        privsepReadLoop order env unused
          (privsepSwitch env (.ofBytes order cmd) (done ++ readnNote ret)) := by
  rw [privsepReadLoop]
  split
  · rename_i found
    rw [returned] at found
    cases found
  · rename_i found
    rw [returned] at found
    cases found
    rfl

end

def privsepInit (order : ByteOrder) (env : FileEnv) (answers : List (ReadAnswer UInt8)) :
    Progress (Readn × List PrivsepAction) (ReadAnswer UInt8) (List PrivsepAction) :=
  match privsepReadLoop order env answers [] with
  | .waiting pending => .waiting pending
  | .returned done unused => .returned (done ++ [.flog .readLoopComplete]) unused

def privsepActions :
    Progress (Readn × List PrivsepAction) (ReadAnswer UInt8) (List PrivsepAction) →
      List PrivsepAction
  | .waiting (_, done) => done
  | .returned done _ => done

end Radvd
