import Radvd.Send.Messages

/-!
# Device information

`update_device_info` of `device-linux.c`, which reads the MTUs and the hardware
address of an interface and computes the size up to which `send_ra` fills its
messages.

The size is a chain of minima, maxima and subtractions on 32-bit unsigned
integers. `toNat_maxRaOptionSize` says that none of the subtractions wraps and
what the result is, and `fits_packet` composes it with the packing loop.
-/

namespace Radvd

open Wire Packing

/-- What reading an integer from a procfs entry gives. -/
inductive ProcRead where
  | missing
  | garbage
  | value (value : Int32)
  deriving DecidableEq, Repr

inductive HwType where
  | ether
  | fddi
  | arcnet
  /-- With the address length in octets, if netlink reports one. -/
  | sixlowpan (addrLen : Option Nat)
  | other
  deriving DecidableEq, Repr

/-- What the system answers to `update_device_info`. -/
structure Device where
  siocgifmtu : Option Int32
  linkmtu : ProcRead
  siocgifhwaddr : Option (HwType × Vector UInt8 16)
  deriving DecidableEq, Repr

def getInterfaceLinkmtu (device : Device) : Except Exit UInt32 :=
  match device.linkmtu with
  | .missing => .ok 1280
  | .garbage => .error .getInterfaceLinkmtu
  | .value value => .ok value.toUInt32

def HwType.linkHeader : HwType → UInt32
  | .ether => 14
  | .fddi => 22
  | .arcnet | .sixlowpan _ | .other => 0

def HwType.setSllao (type : HwType) (sllao : Sllao) : Sllao :=
  match type with
  | .ether | .fddi => { sllao with ifHwaddrLen := 48, ifPrefixLen := 64 }
  | .arcnet => { sllao with ifHwaddrLen := 8, ifPrefixLen := -1, ifMaxmtu := -1 }
  | .sixlowpan (some addrLen) => { sllao with ifHwaddrLen := addrLen * 8, ifPrefixLen := 64 }
  | .sixlowpan none => { sllao with ifHwaddrLen := -1, ifPrefixLen := -1 }
  | .other => { sllao with ifHwaddrLen := -1, ifPrefixLen := -1, ifMaxmtu := -1 }

def Interface.setMaxRaOptionSize (iface : Interface) (size : UInt32) : Interface :=
  { iface with props := { iface.props with maxRaOptionSize := size } }

def hwaddrLenBytes (ifHwaddrLen : Int) : Nat :=
  ((ifHwaddrLen + 7) / 8).toNat

def copyHwaddr (sllao : Sllao) (saData : Vector UInt8 16) : Sllao :=
  { sllao with
    ifHwaddr := Vector.ofFn fun i =>
      if i.val < hwaddrLenBytes sllao.ifHwaddrLen then saData.get i else sllao.ifHwaddr.get i }

/-- The smallest of the three MTUs, none of the last two counting below 1280. -/
def smallestMtu (advRAMTU : UInt32) (ifrMtu : Int32) (linkmtu : UInt32) : UInt32 :=
  let size := advRAMTU
  let size := min size (UInt32.ofInt (max ifrMtu.toInt 1280))
  min size (max linkmtu 1280)

/-- `update_device_info`: the interface with what was found out, and the return
code. -/
def updateDeviceInfo (device : Device) (iface : Interface) : Except Exit (Interface × Int) := do
  match device.siocgifmtu with
  | none => pure (iface, -1)
  | some ifrMtu =>
      let iface := { iface with sllao := { iface.sllao with ifMaxmtu := ifrMtu.toInt } }
      let linkmtu ← getInterfaceLinkmtu device
      let size := smallestMtu iface.advRAMTU ifrMtu linkmtu
      match device.siocgifhwaddr with
      | none => pure (iface.setMaxRaOptionSize size, -1)
      | some (type, saData) =>
          let size := size - type.linkHeader
          let iface := { iface with sllao := type.setSllao iface.sllao }
          if iface.sllao.ifHwaddrLen ≠ -1 ∧ hwaddrLenBytes iface.sllao.ifHwaddrLen > 16 then
            pure (iface.setMaxRaOptionSize size, -2)
          else
            let iface :=
              if iface.sllao.ifHwaddrLen ≠ -1 then
                { iface with sllao := copyHwaddr iface.sllao saData }
              else iface
            pure (iface.setMaxRaOptionSize (size - 40 - 16), 0)

/-- The largest IPv6 packet that needs no fragmentation. -/
def packetLimit (advRAMTU : UInt32) (ifrMtu : Int32) (linkmtu : UInt32) : Nat :=
  min advRAMTU.toNat (min (max ifrMtu.toInt 1280).toNat (max linkmtu.toNat 1280))

theorem toNat_ofInt_max (ifrMtu : Int32) :
    (UInt32.ofInt (max ifrMtu.toInt 1280)).toNat = (max ifrMtu.toInt 1280).toNat := by
  have bound := ifrMtu.toInt_lt
  rw [UInt32.ofInt, UInt32.toNat_ofNat']
  omega

theorem toNat_smallestMtu (advRAMTU : UInt32) (ifrMtu : Int32) (linkmtu : UInt32) :
    (smallestMtu advRAMTU ifrMtu linkmtu).toNat = packetLimit advRAMTU ifrMtu linkmtu := by
  simp only [smallestMtu, packetLimit, UInt32.toNat_min, UInt32.toNat_max, toNat_ofInt_max,
    min_assoc]
  rfl

theorem le_packetLimit {advRAMTU : UInt32} (ramtu : 1280 ≤ advRAMTU.toNat) (ifrMtu : Int32)
    (linkmtu : UInt32) : 1280 ≤ packetLimit advRAMTU ifrMtu linkmtu := by
  rw [packetLimit]
  omega

theorem toNat_linkHeader_le (type : HwType) : type.linkHeader.toNat ≤ 22 := by
  cases type <;> simp [HwType.linkHeader]

/-- Only netlink reports addresses that do not fit. -/
def HwType.TooLong (type : HwType) : Prop :=
  ∃ addrLen, type = .sixlowpan (some addrLen) ∧ 16 < addrLen

theorem tooLong_iff (type : HwType) (sllao : Sllao) :
    ((type.setSllao sllao).ifHwaddrLen ≠ -1 ∧
      hwaddrLenBytes (type.setSllao sllao).ifHwaddrLen > 16) ↔ type.TooLong := by
  cases type with
  | ether => simp [HwType.setSllao, hwaddrLenBytes, HwType.TooLong]
  | fddi => simp [HwType.setSllao, hwaddrLenBytes, HwType.TooLong]
  | arcnet => simp [HwType.setSllao, hwaddrLenBytes, HwType.TooLong]
  | sixlowpan addrLen =>
      cases addrLen with
      | none => simp [HwType.setSllao, HwType.TooLong]
      | some addrLen =>
          simp only [HwType.setSllao, hwaddrLenBytes, HwType.TooLong, HwType.sixlowpan.injEq,
            Option.some.injEq, exists_eq_left']
          omega
  | other => simp [HwType.setSllao, HwType.TooLong]

section

variable {device : Device} {ifrMtu : Int32} {linkmtu : UInt32} {type : HwType}
  {saData : Vector UInt8 16}

theorem updateDeviceInfo_tooLong (iface : Interface) (mtu : device.siocgifmtu = some ifrMtu)
    (read : getInterfaceLinkmtu device = .ok linkmtu)
    (hwaddr : device.siocgifhwaddr = some (type, saData)) (tooLong : type.TooLong) :
    ∃ iface', updateDeviceInfo device iface = .ok (iface', -2) ∧
      iface'.props.maxRaOptionSize =
        smallestMtu iface.advRAMTU ifrMtu linkmtu - type.linkHeader := by
  rw [updateDeviceInfo, mtu, read, hwaddr]
  simp only [Bind.bind, Except.bind]
  rw [if_pos ((tooLong_iff type _).mpr tooLong)]
  exact ⟨_, rfl, rfl⟩

theorem updateDeviceInfo_ok (iface : Interface) (mtu : device.siocgifmtu = some ifrMtu)
    (read : getInterfaceLinkmtu device = .ok linkmtu)
    (hwaddr : device.siocgifhwaddr = some (type, saData)) (short : ¬type.TooLong) :
    ∃ iface', updateDeviceInfo device iface = .ok (iface', 0) ∧
      iface'.props.maxRaOptionSize =
        smallestMtu iface.advRAMTU ifrMtu linkmtu - type.linkHeader - 40 - 16 := by
  rw [updateDeviceInfo, mtu, read, hwaddr]
  simp only [Bind.bind, Except.bind]
  rw [if_neg (mt (tooLong_iff type _).mp short)]
  exact ⟨_, rfl, by split <;> rfl⟩

end

theorem toNat_sub_linkHeader {size : UInt32} (large : 1280 ≤ size.toNat) (type : HwType) :
    (size - type.linkHeader).toNat + type.linkHeader.toNat = size.toNat := by
  have small := toNat_linkHeader_le type
  rw [UInt32.toNat_sub_of_le _ _ (UInt32.le_iff_toNat_le.mpr (by omega))]
  omega

/-- None of the subtractions wraps around. -/
theorem toNat_maxRaOptionSize {size : UInt32} (large : 1280 ≤ size.toNat) (type : HwType) :
    (size - type.linkHeader - 40 - 16).toNat + type.linkHeader.toNat + 40 + 16 = size.toNat := by
  have small := toNat_linkHeader_le type
  have first := toNat_sub_linkHeader large type
  have second : (size - type.linkHeader - 40).toNat = (size - type.linkHeader).toNat - 40 :=
    UInt32.toNat_sub_of_le _ _ (UInt32.le_iff_toNat_le.mpr (by simp; omega))
  have third : (size - type.linkHeader - 40 - 16).toNat = (size - type.linkHeader - 40).toNat - 16 :=
    UInt32.toNat_sub_of_le _ _ (UInt32.le_iff_toNat_le.mpr (by rw [second]; simp; omega))
  omega

theorem length_message_le {raHdr : Bytes} {maxRaOptionSize : Nat} {blocks run : List Bytes}
    (runMem : run ∈ pack List.length maxRaOptionSize raHdr.length blocks)
    (several : 2 ≤ (run.filter (· ≠ [])).length) :
    (message raHdr run).length ≤ maxRaOptionSize := by
  by_contra exceeds
  rw [length_message] at exceeds
  rcases eq_singleton_of_cap_lt runMem (by omega) with ⟨block, rfl⟩
  have := List.length_filter_le (· ≠ []) [block]
  simp only [List.length_singleton] at this
  omega

/-- `update_device_info` computes the size without wrapping around and leaves at
least 1202. It refuses a hardware address of more than 16 octets before it takes
the two headers off; otherwise an RA that carries several options makes an IPv6
packet within the smallest of the MTUs. -/
theorem fits_packet {device : Device} {iface : Interface} {ifrMtu : Int32} {linkmtu : UInt32}
    {type : HwType} {saData : Vector UInt8 16} (ramtuMin : 1280 ≤ iface.advRAMTU.toNat)
    (mtu : device.siocgifmtu = some ifrMtu) (read : getInterfaceLinkmtu device = .ok linkmtu)
    (hwaddr : device.siocgifhwaddr = some (type, saData)) :
    ∃ iface' ret, updateDeviceInfo device iface = .ok (iface', ret) ∧
      1202 ≤ iface'.props.maxRaOptionSize.toNat ∧
      (type.TooLong → ret = -2 ∧
        iface'.props.maxRaOptionSize.toNat + type.linkHeader.toNat =
          packetLimit iface.advRAMTU ifrMtu linkmtu) ∧
      (¬type.TooLong → ret = 0 ∧
        iface'.props.maxRaOptionSize.toNat + type.linkHeader.toNat + 40 + 16 =
          packetLimit iface.advRAMTU ifrMtu linkmtu ∧
        ∀ (info : RaHeaderInfo) (ceaseAdv : Bool) (reallySend : Nat → Bool) (raOpts : List Bytes),
          raOpts ≠ [] →
          ∀ sent ∈ (sendOptions (raHeaderBlock info ceaseAdv) iface'.props.maxRaOptionSize.toNat
            reallySend raOpts).sent,
          ∃ run, run <:+: raOpts ∧ sent = raHeaderBlock info ceaseAdv ++ run.flatten ∧
            (2 ≤ (run.filter (· ≠ [])).length →
              40 + sent.length ≤ packetLimit iface.advRAMTU ifrMtu linkmtu)) := by
  have limit := le_packetLimit ramtuMin ifrMtu linkmtu
  have header := toNat_linkHeader_le type
  rw [← toNat_smallestMtu] at limit
  by_cases tooLong : type.TooLong
  · rcases updateDeviceInfo_tooLong iface mtu read hwaddr tooLong with ⟨iface', done, size⟩
    have total := toNat_sub_linkHeader limit type
    rw [← size, toNat_smallestMtu] at total
    rw [toNat_smallestMtu] at limit
    exact ⟨iface', -2, done, by omega, fun _ => ⟨rfl, total⟩, fun short => absurd tooLong short⟩
  · rcases updateDeviceInfo_ok iface mtu read hwaddr tooLong with ⟨iface', done, size⟩
    have total := toNat_maxRaOptionSize limit type
    rw [← size, toNat_smallestMtu] at total
    rw [toNat_smallestMtu] at limit
    refine ⟨iface', 0, done, by omega, fun long => absurd long tooLong, fun _ => ⟨rfl, total, ?_⟩⟩
    intro info ceaseAdv reallySend raOpts nonempty sent sentMem
    rw [sendOptions_eq_sendBins (by simp) (by simp) nonempty] at sentMem
    rcases exists_run_of_mem_sendBins sentMem with ⟨run, runMem, rfl⟩
    refine ⟨run, infix_of_mem_pack runMem, rfl, ?_⟩
    intro several
    have := length_message_le runMem several
    omega

def Device.ethernet : Device where
  siocgifmtu := some 1500
  linkmtu := .value 1500
  siocgifhwaddr := some (.ether, Vector.replicate 16 2)

theorem fits_packet_ethernet :
    ∃ iface', updateDeviceInfo Device.ethernet (advertising 3) = .ok (iface', 0) ∧
      iface'.props.maxRaOptionSize.toNat + 14 + 40 + 16 = packetLimit 1280 1500 1500 := by
  rcases @fits_packet Device.ethernet (advertising 3) 1500 1500 .ether (Vector.replicate 16 2)
    (by decide) rfl rfl rfl with ⟨iface', ret, done, -, -, short⟩
  rcases short (by rintro ⟨addrLen, typeEq, -⟩; cases typeEq) with ⟨rfl, total, -⟩
  exact ⟨iface', done, total⟩

end Radvd
