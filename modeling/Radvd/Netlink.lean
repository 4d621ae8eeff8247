import Radvd.Dump.RoundTrip
import Radvd.Library.Records
import Radvd.Privsep
import Radvd.Send.Messages

/-!
# Address lifetimes in a netlink reply

`netlink_get_address_lifetimes` on the octets that it receives. The reply to
`RTM_GETADDR` is a sequence of messages with attributes, in the byte order of the
machine, and the buffer has room for 32768 octets of it.

The two loops find what `netlinkGetAddressLifetimes` finds in the attributes of the
messages that were received as a whole (`netlinkGetAddressLifetimesFrom_reply`). In
messages as the kernel sends them this is the greatest of the lifetimes of the
addresses on the prefix (`netlinkGetAddressLifetimesFrom_eq_greatest`).
-/

namespace Radvd

open Wire Dump Records

/-! ## The loops -/

/-- `sizeof(struct nlmsghdr)` -/
def sizeofNlmsghdr : Nat := 16

/-- `sizeof(struct rtattr)` -/
def sizeofRtattr : Nat := 4

theorem sizeofNlmsghdr_pos : 0 < sizeofNlmsghdr := by
  decide

theorem sizeofRtattr_pos : 0 < sizeofRtattr := by
  decide

/-- `NLMSG_OK` and `NLMSG_NEXT`. -/
def nlmsg (order : ByteOrder) : Layout where
  header := sizeofNlmsghdr
  length mem offset := (order.load32 (mem.slice offset 4)).toNat
  header_pos := sizeofNlmsghdr_pos

/-- `RTA_OK` and `RTA_NEXT`. -/
def rta (order : ByteOrder) : Layout where
  header := sizeofRtattr
  length mem offset := (order.load16 mem offset).toNat
  header_pos := sizeofRtattr_pos

def ifaAddress : UInt16 := 1

def ifaCacheinfo : UInt16 := 6

/-- An attribute, with the members of `struct ifa_cacheinfo` that are used. -/
def readAttr (order : ByteOrder) (mem : Memory) (tb : Record) : RtAttr :=
  let rtaType := order.load16 mem (tb.offset + 2)
  let rtaData := tb.offset + 4
  if rtaType = ifaAddress then .address (Vector.ofFn fun index => mem (rtaData + index))
  else if rtaType = ifaCacheinfo then
    .cacheinfo (order.load32 (mem.slice (rtaData + 4) 4)) (order.load32 (mem.slice rtaData 4))
  else .other

/-- The attributes from `IFA_RTA` on, `IFA_PAYLOAD` octets of them. -/
def readAttrs (order : ByteOrder) (mem : Memory) (retmsg : Record) : List RtAttr :=
  ((rta order).walk mem (retmsg.offset + 24) (retmsg.length - 24)).map (readAttr order mem)

/-- The lifetimes that are found in `len` octets of the buffer. -/
def netlinkGetAddressLifetimesFrom (order : ByteOrder) (mem : Memory) (len : Int)
    (entry : AdvPrefix) : AddressLifetimes :=
  ((nlmsg order).walk mem 0 len).foldl
    (fun lifetimes retmsg => scanAttrs entry false lifetimes (readAttrs order mem retmsg))
    ⟨0, 0, false⟩

/-- The size of the buffer. -/
def netlinkBuffer : Nat := 32768

/-! ## The reply -/

inductive AddressAttr where
  | address (addr : In6Addr)
  | cacheinfo (prefered valid : UInt32) (stamps : Vector UInt8 8)
  | other (type : UInt16) (data : Bytes)

structure AddressMessage where
  /-- The type, the flags, the sequence number and the port of the header. -/
  rest : Vector UInt8 12
  ifaddrmsg : Vector UInt8 8
  attrs : List AddressAttr

namespace AddressAttr

def type : AddressAttr → UInt16
  | .address _ => ifaAddress
  | .cacheinfo _ _ _ => ifaCacheinfo
  | .other type _ => type

def data (order : ByteOrder) : AddressAttr → Bytes
  | .address addr => addr.toList
  | .cacheinfo prefered valid stamps =>
      order.store32 prefered ++ order.store32 valid ++ stamps.toList
  | .other _ data => data

def octets (order : ByteOrder) (attr : AddressAttr) : Bytes :=
  order.store16 (4 + (attr.data order).length).toUInt16 ++ order.store16 attr.type ++
    attr.data order

/-- What the attribute says about addresses. -/
def read : AddressAttr → RtAttr
  | .address addr => .address addr
  | .cacheinfo prefered valid _ => .cacheinfo valid prefered
  | .other _ _ => .other

/-- The length fits its field, and other attributes have other types. -/
def Valid : AddressAttr → Prop
  | .other type data => type ≠ ifaAddress ∧ type ≠ ifaCacheinfo ∧ 4 + data.length < 2 ^ 16
  | _ => True

end AddressAttr

namespace AddressMessage

def payload (order : ByteOrder) (message : AddressMessage) : Bytes :=
  stream (message.attrs.map (·.octets order))

def octets (order : ByteOrder) (message : AddressMessage) : Bytes :=
  order.store32 (24 + (message.payload order).length).toUInt32 ++ message.rest.toList ++
    message.ifaddrmsg.toList ++ message.payload order

structure Valid (order : ByteOrder) (message : AddressMessage) : Prop where
  attrs : ∀ attr ∈ message.attrs, attr.Valid
  fits : 24 + (message.payload order).length < 2 ^ 32

end AddressMessage

/-! ## Reading the reply -/

section

variable {order : ByteOrder} {mem : Memory} {record : Record}

theorem length_store16 (order : ByteOrder) (value : UInt16) : (order.store16 value).length = 2 := by
  cases order <;> rfl

theorem load32_of_holds {offset : Nat} {value : UInt32}
    (stored : mem.Holds offset (order.store32 value)) :
    order.load32 (mem.slice offset 4) = value := by
  have slice := Memory.slice_of_holds stored
  rw [ByteOrder.length_store32] at slice
  have read := order.load32_store32 value []
  rwa [List.append_nil, ← slice] at read

theorem length_data_lt {attr : AddressAttr} (valid : attr.Valid) :
    4 + (attr.data order).length < 2 ^ 16 := by
  cases attr with
  | address addr => simp [AddressAttr.data]
  | cacheinfo prefered valid stamps => simp [AddressAttr.data]
  | other type data => exact valid.2.2

theorem length_octets_attr (attr : AddressAttr) :
    (attr.octets order).length = 4 + (attr.data order).length := by
  simp only [AddressAttr.octets, List.length_append, length_store16]

theorem formed_attr {attr : AddressAttr} (valid : attr.Valid) :
    (rta order).Formed (attr.octets order) where
  header_le := by
    rw [length_octets_attr]
    exact Nat.le_add_right _ _
  length_eq := by
    intro mem offset header
    have fits := @length_data_lt order _ valid
    have field : mem.Holds offset (order.store16 (4 + (attr.data order).length).toUInt16) := by
      rw [AddressAttr.octets, List.append_assoc] at header
      apply holds_front header
      rw [length_store16]
      change 2 ≤ 4
      decide
    change (order.load16 mem offset).toNat = _
    rw [load16_of_holds field, length_octets_attr, Nat.toUInt16_eq, UInt16.toNat_ofNat_of_lt' fits]

theorem readAttr_of_visits {attr : AddressAttr} (valid : attr.Valid)
    (visits : Visits mem record (attr.octets order)) :
    readAttr order mem record = attr.read := by
  have stored := visits.stored
  rw [AddressAttr.octets, Memory.holds_append, Memory.holds_append] at stored
  simp only [List.length_append, length_store16, Nat.reduceAdd] at stored
  rcases stored with ⟨⟨-, typeField⟩, data⟩
  unfold readAttr
  dsimp only
  rw [load16_of_holds typeField]
  cases attr with
  | address addr =>
      rw [if_pos (by rfl), AddressAttr.read, RtAttr.address.injEq]
      apply Vector.ext
      intro index bound
      have octet := data index (by simpa [AddressAttr.data] using bound)
      simpa [AddressAttr.data, bound] using octet.symm
  | cacheinfo prefered valid stamps =>
      rw [AddressAttr.data, Memory.holds_append, Memory.holds_append,
        ByteOrder.length_store32] at data
      rw [if_neg (by simp [AddressAttr.type, ifaAddress, ifaCacheinfo]), if_pos (by rfl),
        load32_of_holds data.1.1, load32_of_holds data.1.2]
      rfl
  | other type content =>
      rw [AddressAttr.type, if_neg valid.1, if_neg valid.2.1]
      rfl

theorem forall₂_map_read {blocks : List AddressAttr} {records : List Record}
    (valid : ∀ attr ∈ blocks, attr.Valid)
    (visits : List.Forall₂ (Visits mem) records (blocks.map (·.octets order))) :
    records.map (readAttr order mem) = blocks.map AddressAttr.read := by
  induction blocks generalizing records with
  | nil =>
      cases visits
      rfl
  | cons attr rest ih =>
      rw [List.forall_mem_cons] at valid
      cases visits with
      | cons here later => rw [List.map_cons, List.map_cons, readAttr_of_visits valid.1 here,
          ih valid.2 later]

theorem length_octets_message (message : AddressMessage) :
    (message.octets order).length = 24 + (message.payload order).length := by
  simp only [AddressMessage.octets, List.length_append, ByteOrder.length_store32,
    Vector.length_toList]

theorem readAttrs_of_visits {message : AddressMessage} (valid : message.Valid order)
    (visits : Visits mem record (message.octets order)) :
    readAttrs order mem record = message.attrs.map AddressAttr.read := by
  have stored := visits.stored
  rw [AddressMessage.octets, Memory.holds_append] at stored
  simp only [List.length_append, ByteOrder.length_store32, Vector.length_toList,
    Nat.reduceAdd] at stored
  have formed : ∀ block ∈ message.attrs.map (·.octets order), (rta order).Formed block := by
    intro block member
    rcases List.mem_map.mp member with ⟨attr, listed, rfl⟩
    exact formed_attr (valid.attrs attr listed)
  have left : (record.length : Int) - 24 = (message.payload order).length := by
    rw [visits.length, length_octets_message]
    omega
  have all : mem.Holds (record.offset + 24)
      ((message.payload order).take (message.payload order).length) := by
    rw [List.take_length]
    exact stored.2
  have walked := visits_walk formed le_rfl all
  rw [whole_stream] at walked
  rw [readAttrs, left]
  exact forall₂_map_read valid.attrs walked

theorem formed_message {message : AddressMessage} (valid : message.Valid order) :
    (nlmsg order).Formed (message.octets order) where
  header_le := by
    rw [length_octets_message]
    change 16 ≤ _
    omega
  length_eq := by
    intro mem offset header
    have field : mem.Holds offset
        (order.store32 (24 + (message.payload order).length).toUInt32) := by
      rw [AddressMessage.octets, List.append_assoc, List.append_assoc] at header
      apply holds_front header
      rw [ByteOrder.length_store32]
      change 4 ≤ 16
      decide
    change (order.load32 (mem.slice offset 4)).toNat = _
    rw [load32_of_holds field, length_octets_message, Nat.toUInt32_eq,
      UInt32.toNat_ofNat_of_lt' valid.fits]

end

theorem foldl_of_visits {order : ByteOrder} {mem : Memory} {entry : AdvPrefix}
    {messages : List AddressMessage} {records : List Record}
    (valid : ∀ message ∈ messages, message.Valid order)
    (visits : List.Forall₂ (Visits mem) records (messages.map (·.octets order)))
    (lifetimes : AddressLifetimes) :
    records.foldl (fun lifetimes retmsg =>
        scanAttrs entry false lifetimes (readAttrs order mem retmsg)) lifetimes =
      messages.foldl (fun lifetimes message =>
        scanAttrs entry false lifetimes (message.attrs.map AddressAttr.read)) lifetimes := by
  induction messages generalizing records lifetimes with
  | nil =>
      cases visits
      rfl
  | cons message rest ih =>
      rw [List.forall_mem_cons] at valid
      cases visits with
      | cons here later =>
          rw [List.foldl_cons, List.foldl_cons, readAttrs_of_visits valid.1 here]
          exact ih valid.2 later _

/-- The messages that the buffer has room for. -/
def received (order : ByteOrder) (reply : List AddressMessage) : List AddressMessage :=
  whole (fun message => (message.octets order).length) netlinkBuffer reply

/-- Of the octets of a reply the loops find the lifetimes in the messages that were
received as a whole. -/
theorem netlinkGetAddressLifetimesFrom_reply {order : ByteOrder} {mem : Memory} {kernel : Kernel}
    {reply : List AddressMessage} (valid : ∀ message ∈ reply, message.Valid order)
    (stored : mem.Holds 0 ((stream (reply.map (·.octets order))).take netlinkBuffer))
    (entry : AdvPrefix) :
    netlinkGetAddressLifetimesFrom order mem
        (min netlinkBuffer (stream (reply.map (·.octets order))).length : Nat) entry =
      netlinkGetAddressLifetimes { kernel with
        rtmGetaddr := some ((received order reply).map fun message =>
          message.attrs.map AddressAttr.read) } entry := by
  have formed : ∀ block ∈ reply.map (·.octets order), (nlmsg order).Formed block := by
    intro block member
    rcases List.mem_map.mp member with ⟨message, listed, rfl⟩
    exact formed_message (valid message listed)
  have front := holds_take stored (stream (reply.map (·.octets order))).length
  rw [List.take_take, min_comm] at front
  have walked := visits_walk formed (min_le_right _ _) front
  rw [whole_min, whole_map] at walked
  rw [netlinkGetAddressLifetimesFrom, netlinkGetAddressLifetimes]
  dsimp only
  rw [List.foldl_map]
  exact foldl_of_visits (fun message member => valid message (mem_of_mem_whole member)) walked _

/-! ## Messages of the kernel -/

/-- A message about one address, whose attribute comes before its lifetimes. -/
structure AddressReport extends AddressMessage where
  addr : In6Addr
  prefered : UInt32
  valid : UInt32
  reports : ∃ before between after, (∀ attr ∈ before ++ between ++ after, attr = RtAttr.other) ∧
    attrs.map AddressAttr.read =
      before ++ .address addr :: (between ++ .cacheinfo valid prefered :: after)

def AddressReport.octets (order : ByteOrder) (report : AddressReport) : Bytes :=
  report.toAddressMessage.octets order

/-- The reports that the buffer has room for, about addresses on the prefix. -/
def matchingReports (order : ByteOrder) (entry : AdvPrefix) (reply : List AddressReport) :
    List AddressReport :=
  (whole (fun report => (report.octets order).length) netlinkBuffer reply).filter
    fun report => prefixMatch entry report.addr

section

variable {entry : AdvPrefix} {lifetimes : AddressLifetimes} {found : Bool}

theorem scanAttrs_others {others attrs : List RtAttr} (all : ∀ attr ∈ others, attr = .other) :
    scanAttrs entry found lifetimes (others ++ attrs) =
      scanAttrs entry found lifetimes attrs := by
  induction others with
  | nil => rfl
  | cons attr rest ih =>
      rw [List.forall_mem_cons] at all
      rw [all.1, List.cons_append, scanAttrs, ih all.2]

theorem ite_eq_max (first second : UInt32) :
    (if second > first then second else first) = max first second := by
  change _ = if first ≤ second then second else first
  rcases UInt32.lt_or_le first second with less | notLess
  · rw [if_pos less, if_pos (UInt32.le_of_lt less)]
  · rw [if_neg (UInt32.not_lt.mpr notLess)]
    split
    · rename_i le
      exact UInt32.le_antisymm le notLess
    · rfl

theorem scanAttrs_report (report : AddressReport) :
    scanAttrs entry false lifetimes (report.attrs.map AddressAttr.read) =
      if prefixMatch entry report.addr then
        ⟨max lifetimes.valid report.valid, max lifetimes.preferred report.prefered, true⟩
      else lifetimes := by
  rcases report.reports with ⟨before, between, after, others, shape⟩
  simp only [List.mem_append, or_imp, forall_and] at others
  rw [shape, scanAttrs_others others.1.1, scanAttrs, scanAttrs_others others.1.2, scanAttrs]
  have done : ∀ found lifetimes, scanAttrs entry found lifetimes after = lifetimes := by
    intro found lifetimes
    have scanned := @scanAttrs_others entry lifetimes found after [] others.2
    rwa [List.append_nil] at scanned
  rw [done, done, ite_eq_max, ite_eq_max]

theorem foldl_reports (reports : List AddressReport) (lifetimes : AddressLifetimes) :
    reports.foldl (fun lifetimes report =>
        scanAttrs entry false lifetimes (report.attrs.map AddressAttr.read)) lifetimes =
      let matching := reports.filter fun report => prefixMatch entry report.addr
      ⟨(matching.map (·.valid)).foldl max lifetimes.valid,
        (matching.map (·.prefered)).foldl max lifetimes.preferred,
        lifetimes.ret || !matching.isEmpty⟩ := by
  induction reports generalizing lifetimes with
  | nil => simp
  | cons report rest ih =>
      rw [List.foldl_cons, scanAttrs_report, ih]
      by_cases matching : prefixMatch entry report.addr = true <;>
        simp [matching]

end

/-- The lifetimes that are found are the greatest ones of the addresses on the prefix
whose messages were received as a whole. -/
theorem netlinkGetAddressLifetimesFrom_eq_greatest {order : ByteOrder} {mem : Memory}
    {reply : List AddressReport} (formed : ∀ report ∈ reply, report.Valid order)
    (stored : mem.Holds 0 ((stream (reply.map (·.octets order))).take netlinkBuffer))
    (entry : AdvPrefix) :
    netlinkGetAddressLifetimesFrom order mem
        (min netlinkBuffer (stream (reply.map (·.octets order))).length : Nat) entry =
      ⟨((matchingReports order entry reply).map (·.valid)).foldl max 0,
        ((matchingReports order entry reply).map (·.prefered)).foldl max 0,
        !(matchingReports order entry reply).isEmpty⟩ := by
  have messages : reply.map (·.octets order) =
      (reply.map (·.toAddressMessage)).map (·.octets order) := by
    rw [List.map_map]
    rfl
  have formedMessages : ∀ message ∈ reply.map (·.toAddressMessage), message.Valid order := by
    intro message member
    rcases List.mem_map.mp member with ⟨report, listed, rfl⟩
    exact formed report listed
  rw [messages] at stored ⊢
  rw [@netlinkGetAddressLifetimesFrom_reply _ _ Kernel.silent _ formedMessages stored,
    netlinkGetAddressLifetimes]
  dsimp only
  rw [received, whole_map, List.map_map, List.foldl_map]
  exact foldl_reports _ _

/-- A message as the kernel sends it, with the flags of the address at its end. -/
def reportOf (addr : In6Addr) (prefered valid : UInt32) : AddressReport where
  rest := Vector.replicate 12 0
  ifaddrmsg := Vector.replicate 8 0
  attrs := [.address addr, .cacheinfo prefered valid (Vector.replicate 8 0),
    .other 8 [128, 0, 0, 0]]
  addr := addr
  prefered := prefered
  valid := valid
  reports := ⟨[], [], [.other], by simp, rfl⟩

theorem valid_reportOf (order : ByteOrder) (addr : In6Addr) (prefered valid : UInt32) :
    (reportOf addr prefered valid).Valid order where
  attrs := by simp [reportOf, AddressAttr.Valid, ifaAddress, ifaCacheinfo]
  fits := by
    simp [reportOf, AddressMessage.payload, stream, AddressAttr.octets, AddressAttr.data, align,
      length_store16]

/-- The addresses of a router: two on the documentation prefix. -/
def exampleReply : List AddressReport :=
  [reportOf linkLocalAddr 4294967295 4294967295, reportOf documentationPrefix.prefixAddr 1800 3600,
    reportOf documentationPrefix.prefixAddr 900 7200]

theorem netlinkGetAddressLifetimesFrom_exampleReply :
    netlinkGetAddressLifetimesFrom .littleEndian
        (Memory.ofBytes (stream (exampleReply.map (·.octets .littleEndian))))
        (min netlinkBuffer (stream (exampleReply.map (·.octets .littleEndian))).length : Nat)
        documentationPrefix = ⟨7200, 1800, true⟩ := by
  have formed : ∀ report ∈ exampleReply, report.Valid .littleEndian := by
    simp [exampleReply, valid_reportOf]
  rw [netlinkGetAddressLifetimesFrom_eq_greatest formed (holds_take (Memory.holds_ofBytes _) _)]
  with_unfolding_all decide

end Radvd
