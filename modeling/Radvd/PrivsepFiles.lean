import Mathlib.Data.List.TakeWhile
import Radvd.Privsep

/-!
# The files of the privileged process

Whatever octets come through the pipe, and in whatever pieces, the privileged
process opens no file for writing but the variables of an interface, and the
numbers it writes are those the variable admits (`confined_privsepInit`).

The name is cut off before its last octet and checked before a file is opened
(`AllConfined.setInterfaceVar`), so it is one component of the path.
-/

namespace Radvd

open Wire Pipe Dump

/-- The name of one directory entry that fits in a command. -/
structure ProperName (name : Bytes) : Prop where
  length_pos : 1 ≤ name.length
  length_le : name.length ≤ 15
  noSlash : slash ∉ name
  ne_dot : name ≠ ascii "."
  ne_dots : name ≠ ascii ".."

inductive Sysctl where
  | mtu
  | hopLimit
  | baseReachableTimeMs
  | baseReachableTime
  | retransTimeMs
  | retransTime
  deriving DecidableEq, Repr

def Sysctl.path (name : Bytes) : Sysctl → Bytes
  | .mtu => ascii "/proc/sys/net/ipv6/conf/" ++ name ++ ascii "/mtu"
  | .hopLimit => ascii "/proc/sys/net/ipv6/conf/" ++ name ++ ascii "/hop_limit"
  | .baseReachableTimeMs =>
      ascii "/proc/sys/net/ipv6/neigh/" ++ name ++ ascii "/base_reachable_time_ms"
  | .baseReachableTime =>
      ascii "/proc/sys/net/ipv6/neigh/" ++ name ++ ascii "/base_reachable_time"
  | .retransTimeMs => ascii "/proc/sys/net/ipv6/neigh/" ++ name ++ ascii "/retrans_time_ms"
  | .retransTime => ascii "/proc/sys/net/ipv6/neigh/" ++ name ++ ascii "/retrans_time"

/-- The least and the greatest number written to a variable. -/
def Sysctl.bounds : Sysctl → Nat × Nat
  | .mtu => (1280, 131072)
  | .hopLimit => (2, 255)
  | .baseReachableTimeMs => (100, 3600000)
  | .baseReachableTime => (0, 3600)
  | .retransTimeMs => (10, 3600000)
  | .retransTime => (0, 360000)

def Sysctl.Admits (sysctl : Sysctl) (val : UInt32) : Prop :=
  sysctl.bounds.1 ≤ val.toNat ∧ val.toNat ≤ sysctl.bounds.2

def PrivsepAction.Confined : PrivsepAction → Prop
  | .openFile path => ∃ name sysctl, ProperName name ∧ path = Sysctl.path name sysctl
  | .fprintf path val =>
      ∃ name sysctl, ProperName name ∧ path = Sysctl.path name sysctl ∧ sysctl.Admits val
  | .flog _ => True

/-! ## The name -/

theorem PrivsepCommand.length_name_le (cmd : PrivsepCommand) : cmd.name.length ≤ 15 := by
  rcases Nat.lt_or_ge 15 cmd.name.length with long | short
  · have kept := List.mem_takeWhile_imp (List.getElem_mem long)
    have taken := (List.takeWhile_prefix fun octet : UInt8 => decide (octet ≠ 0)).getElem long
    have last : (cmd.iface.set (ifnamsiz - 1) 0).toList.get ⟨15, by simp [ifnamsiz]⟩ = 0 := by
      rw [List.get_eq_getElem, Vector.getElem_toList]
      exact Vector.getElem_set_self _
    have zero : cmd.name[15] = 0 := taken.trans last
    rw [zero] at kept
    simp at kept
  · exact short

/-! ## The path -/

theorem strdupf_append {before after name : Bytes} (plain : 37 ∉ before) :
    strdupf (before ++ 37 :: 115 :: after) name = before ++ name ++ after := by
  induction before with
  | nil => rfl
  | cons octet before ih =>
      rw [List.mem_cons, not_or] at plain
      rw [List.cons_append, strdupf, ih plain.2]
      · rfl
      · rintro format rfl -
        exact plain.1 rfl

theorem strdupf_ascii (before after : String) {name : Bytes} (plain : 37 ∉ ascii before) :
    strdupf (ascii (before ++ ("%s" ++ after))) name = ascii before ++ name ++ ascii after := by
  have split : ascii (before ++ ("%s" ++ after)) =
      ascii before ++ 37 :: 115 :: ascii after := by
    simp [ascii]
  rw [split, strdupf_append plain]

/-- The format string of a variable. -/
def Sysctl.template : Sysctl → Bytes
  | .mtu => procSysIp6Linkmtu
  | .hopLimit => procSysIp6Curhlim
  | .baseReachableTimeMs => procSysIp6BasereachtimeMs
  | .baseReachableTime => procSysIp6Basereachtime
  | .retransTimeMs => procSysIp6RetranstimerMs
  | .retransTime => procSysIp6Retranstimer

theorem strdupf_template (name : Bytes) (sysctl : Sysctl) :
    strdupf sysctl.template name = sysctl.path name := by
  have conf : 37 ∉ ascii "/proc/sys/net/ipv6/conf/" := by decide
  have neigh : 37 ∉ ascii "/proc/sys/net/ipv6/neigh/" := by decide
  cases sysctl with
  | mtu => exact strdupf_ascii "/proc/sys/net/ipv6/conf/" "/mtu" conf
  | hopLimit => exact strdupf_ascii "/proc/sys/net/ipv6/conf/" "/hop_limit" conf
  | baseReachableTimeMs =>
      exact strdupf_ascii "/proc/sys/net/ipv6/neigh/" "/base_reachable_time_ms" neigh
  | baseReachableTime =>
      exact strdupf_ascii "/proc/sys/net/ipv6/neigh/" "/base_reachable_time" neigh
  | retransTimeMs => exact strdupf_ascii "/proc/sys/net/ipv6/neigh/" "/retrans_time_ms" neigh
  | retransTime => exact strdupf_ascii "/proc/sys/net/ipv6/neigh/" "/retrans_time" neigh

/-! ## What is done with a command -/

def AllConfined (done : List PrivsepAction) : Prop :=
  ∀ action ∈ done, action.Confined

theorem AllConfined.append {done more : List PrivsepAction} (first : AllConfined done)
    (second : AllConfined more) : AllConfined (done ++ more) := by
  intro action member
  rcases List.mem_append.mp member with before | after
  · exact first action before
  · exact second action after

theorem AllConfined.flog {done : List PrivsepAction} (confined : AllConfined done)
    (message : PrivsepMessage) : AllConfined (done ++ [.flog message]) := by
  apply confined.append
  intro action member
  rw [List.mem_singleton.mp member]
  exact trivial

theorem AllConfined.setInterfaceVar {env : FileEnv} {iface name : Bytes} {val : UInt32}
    {done : List PrivsepAction} (confined : AllConfined done) (sysctl : Sysctl)
    (length : iface.length ≤ 15) (admits : sysctl.Admits val) :
    AllConfined (setInterfaceVar env iface sysctl.template name val done).2 := by
  unfold Radvd.setInterfaceVar
  dsimp only
  split
  · exact confined.flog _
  rename_i refused
  simp only [Bool.or_eq_true, decide_eq_true_eq, not_or] at refused
  have proper : ProperName iface := by
    refine ⟨?_, length, refused.2, refused.1.1.2, refused.1.2⟩
    exact List.length_pos_iff.mpr refused.1.1.1
  have opens : AllConfined (done ++ [.openFile (strdupf sysctl.template iface)]) := by
    apply confined.append
    intro action member
    rw [List.mem_singleton.mp member]
    exact ⟨iface, sysctl, proper, strdupf_template iface sysctl⟩
  have prints : AllConfined (done ++ [.openFile (strdupf sysctl.template iface)] ++
      [.fprintf (strdupf sysctl.template iface) val]) := by
    apply opens.append
    intro action member
    rw [List.mem_singleton.mp member]
    exact ⟨iface, sysctl, proper, strdupf_template iface sysctl, admits⟩
  split
  · exact opens
  · exact opens.flog _
  · split_ifs
    · exact opens.flog _
    · exact prints
    · exact prints.flog _

theorem within_of_not_outside {lower upper val : UInt32}
    (inside : ¬(val < lower || val > upper) = true) :
    lower.toNat ≤ val.toNat ∧ val.toNat ≤ upper.toNat := by
  simp only [Bool.or_eq_true, decide_eq_true_eq, not_or, UInt32.lt_iff_toNat_lt, gt_iff_lt,
    Nat.not_lt] at inside
  exact inside

theorem AllConfined.inBounds {lower upper val : UInt32} {message : PrivsepMessage}
    {done after : List PrivsepAction} (confined : AllConfined done)
    (inside : lower.toNat ≤ val.toNat ∧ val.toNat ≤ upper.toNat → AllConfined after) :
    AllConfined (if val < lower || val > upper then done ++ [.flog message] else after) := by
  split
  · exact confined.flog message
  · exact inside (within_of_not_outside ‹_›)

theorem AllConfined.orElse {first : Int × List PrivsepAction} {second : List PrivsepAction}
    (confined : AllConfined first.2) (other : AllConfined second) :
    AllConfined (if first.1 = 0 then first.2 else second) := by
  split
  · exact confined
  · exact other

theorem AllConfined.privsepSet {env : FileEnv} {type : PrivsepType} {iface : Bytes}
    {val : UInt32} {done : List PrivsepAction} (confined : AllConfined done)
    (length : iface.length ≤ 15) : AllConfined (privsepSet env type iface val done) := by
  cases type with
  | setInterfaceLinkmtu =>
      apply confined.inBounds
      intro within
      exact confined.setInterfaceVar .mtu length within
  | setInterfaceCurhlim =>
      apply confined.inBounds
      intro within
      exact confined.setInterfaceVar .hopLimit length within
  | setInterfaceReachtime =>
      apply confined.inBounds
      intro within
      have le : val.toNat ≤ 3600000 := within.2
      have first : AllConfined (Radvd.setInterfaceVar env iface procSysIp6BasereachtimeMs
          (ascii "BaseReachableTimer (ms)") val done).2 :=
        confined.setInterfaceVar .baseReachableTimeMs length within
      apply first.orElse
      apply first.setInterfaceVar .baseReachableTime length
      refine ⟨Nat.zero_le _, ?_⟩
      change (val / 1000).toNat ≤ 3600
      rw [UInt32.toNat_div]
      exact Nat.div_le_of_le_mul le
  | setInterfaceRetranstimer =>
      apply confined.inBounds
      intro within
      have le : val.toNat ≤ 3600000 := within.2
      have first : AllConfined (Radvd.setInterfaceVar env iface procSysIp6RetranstimerMs
          (ascii "RetransTimer (ms)") val done).2 :=
        confined.setInterfaceVar .retransTimeMs length within
      apply first.orElse
      apply first.setInterfaceVar .retransTime length
      refine ⟨Nat.zero_le _, ?_⟩
      change (val / 1000 * 100).toNat ≤ 360000
      rw [UInt32.toNat_mul, UInt32.toNat_div]
      have seconds : val.toNat / 1000 ≤ 3600 := Nat.div_le_of_le_mul le
      exact (Nat.mod_le _ _).trans (Nat.mul_le_mul_right 100 seconds)

/-! ## The process -/

theorem AllConfined.privsepSwitch {env : FileEnv} {done : List PrivsepAction}
    (confined : AllConfined done) (cmd : PrivsepCommand) :
    AllConfined (privsepSwitch env cmd done) := by
  unfold Radvd.privsepSwitch
  split
  · exact confined.privsepSet cmd.length_name_le
  · exact confined

theorem AllConfined.readnNote {done : List PrivsepAction} (confined : AllConfined done)
    (ret : Int) : AllConfined (done ++ readnNote ret) := by
  unfold Radvd.readnNote
  split_ifs
  · exact confined.flog _
  · exact confined.flog _
  · rwa [List.append_nil]

theorem AllConfined.privsepReadLoop {env : FileEnv} {order : ByteOrder}
    {answers : List (ReadAnswer UInt8)} {done : List PrivsepAction}
    (confined : AllConfined done) :
    AllConfined (privsepActions (privsepReadLoop order env answers done)) := by
  induction answers, done using privsepReadLoop.induct order env with
  | case1 answers done pending waits =>
      rw [privsepReadLoop_of_waiting waits]
      exact confined
  | case2 answers done ret cmd unused returned short =>
      rw [privsepReadLoop_of_returned returned, if_pos short]
      exact confined.readnNote ret
  | case3 answers done ret cmd unused returned complete ih =>
      rw [privsepReadLoop_of_returned returned, if_neg complete]
      exact ih ((confined.readnNote ret).privsepSwitch _)

/-- Whatever the answers to the reads are, every file opened for writing is a
variable of an interface, and every number written is one that it admits. -/
theorem confined_privsepInit (order : ByteOrder) (env : FileEnv)
    (answers : List (ReadAnswer UInt8)) :
    AllConfined (privsepActions (privsepInit order env answers)) := by
  have confined : AllConfined (privsepActions (privsepReadLoop order env answers [])) :=
    AllConfined.privsepReadLoop fun action member => absurd member List.not_mem_nil
  unfold privsepInit
  split
  · rename_i pending waits
    rw [waits] at confined
    exact confined
  · rename_i done unused returned
    rw [returned] at confined
    exact confined.flog _

end Radvd
