import Radvd.Interface
import Radvd.Process
import Radvd.Send.Pack

/-!
# The messages of a router advertisement

What `send_ra` transmits, composed from `build_ra_options` and the packing loop:
every message can be walked by the receivers option by option, and the messages
carry every option exactly once, in order, as long as none of them outgrows the
buffer of 64 KiB.
-/

namespace Radvd

open Wire Tlv SafeBufferList Packing

/-! ## The blocks -/

section

variable {order : ByteOrder} {kernel : Kernel} {iface : Interface} {dest : In6Addr}
  {sbl : SafeBufferList} {block : Bytes}

theorem wellFormed_of_mem_blocks (parsed : iface.Parsed)
    (built : buildRaOptions order kernel iface dest = .ok sbl) (blockMem : block ∈ sbl.blocks)
    (nonempty : block ≠ []) : WellFormed block := by
  rw [blocks_of_buildRaOptions parsed built, List.mem_append] at blockMem
  rcases blockMem with inList | inTail
  · split at inList
    · exact absurd (List.mem_singleton.mp inList) nonempty
    · exact wellFormed_of_mem_listBlocks parsed inList
  · exact (wellFormed_of_mem_tailBlocks parsed inTail).1

theorem prefix_length_of_mem_blocks (parsed : iface.Parsed)
    (built : buildRaOptions order kernel iface dest = .ok sbl) (blockMem : block ∈ sbl.blocks)
    (isPrefix : block.getD 0 0 = ndOptPrefixInformation) : block.length = 32 := by
  rw [blocks_of_buildRaOptions parsed built, List.mem_append] at blockMem
  rcases blockMem with inList | inTail
  · split at inList
    · rw [List.mem_singleton.mp inList] at isPrefix
      exact absurd isPrefix (by decide)
    · exact prefix_length_of_mem_listBlocks parsed inList isPrefix
  · exact absurd isPrefix (ne_prefix_of_mem_tailBlocks inTail)

theorem blocks_eq_cons (parsed : iface.Parsed)
    (built : buildRaOptions order kernel iface dest = .ok sbl) :
    ∃ head tail, sbl.blocks = head :: tail ∧ (∀ block ∈ tail, block ≠ []) ∧
      (head = [] → tail = tailBlocks order iface) := by
  have blocks := blocks_of_buildRaOptions parsed built
  have tailFilled : ∀ block ∈ tailBlocks order iface, block ≠ [] :=
    fun block blockMem => (wellFormed_of_mem_tailBlocks parsed blockMem).1.ne_nil
  have listFilled : ∀ block ∈ listBlocks kernel iface, block ≠ [] :=
    fun block blockMem => (wellFormed_of_mem_listBlocks parsed blockMem).ne_nil
  rcases lists : listBlocks kernel iface with _ | ⟨head, rest⟩
  · exact ⟨[], tailBlocks order iface, by simpa [lists] using blocks, tailFilled, fun _ => rfl⟩
  · rw [lists] at listFilled
    refine ⟨head, rest ++ tailBlocks order iface, by simpa [lists] using blocks, ?_, ?_⟩
    · intro block blockMem
      rcases List.mem_append.mp blockMem with inRest | inTail
      · exact listFilled block (by simp [inRest])
      · exact tailFilled block inTail
    · intro empty
      exact absurd empty (listFilled head (by simp))

theorem length_le_of_mem_blocks (parsed : iface.Parsed)
    (built : buildRaOptions order kernel iface dest = .ok sbl) (blockMem : block ∈ sbl.blocks) :
    block.length ≤ 2040 := by
  by_cases empty : block = []
  · simp [empty]
  · have wellFormed := wellFormed_of_mem_blocks parsed built blockMem empty
    have := wellFormed.octet_le
    have := wellFormed.length_eq
    omega

theorem blocks_ne_nil (sbl : SafeBufferList) : sbl.blocks ≠ [] := by
  simp [blocks]

theorem sendOptions_blocks (info : RaHeaderInfo) (ceaseAdv : Bool) (maxRaOptionSize : Nat)
    (reallySend : Nat → Bool) (sbl : SafeBufferList) :
    sendOptions (raHeaderBlock info ceaseAdv) maxRaOptionSize reallySend sbl.blocks =
      sendBins (raHeaderBlock info ceaseAdv) reallySend 0
        (pack List.length maxRaOptionSize 16 sbl.blocks) :=
  sendOptions_eq_sendBins (by simp) (by simp) (blocks_ne_nil sbl) reallySend

end

/-! ## Receivers agree with the encoders -/

/-- Every block other than an empty head announces its own length, and the
option walks of both receivers, on any message that the packing loop assembles
from the blocks, visit exactly these blocks in order and end with no octet left. -/
theorem options_walk {order : ByteOrder} {kernel : Kernel} {iface : Interface} {dest : In6Addr}
    {sbl : SafeBufferList} (parsed : iface.Parsed)
    (built : buildRaOptions order kernel iface dest = .ok sbl) :
    (∀ index block, sbl.blocks[index]? = some block →
      (index = 0 ∧ block = []) ∨
        (block.length = 8 * (block.getD 1 0).toNat ∧ 1 ≤ (block.getD 1 0).toNat ∧
          (block.getD 1 0).toNat ≤ 255)) ∧
    ∀ (info : RaHeaderInfo) (ceaseAdv : Bool) (maxRaOptionSize : Nat) (reallySend : Nat → Bool),
      ∀ sent ∈ (sendOptions (raHeaderBlock info ceaseAdv) maxRaOptionSize reallySend
        sbl.blocks).sent,
      ∃ run, run <:+: sbl.blocks ∧ sent = raHeaderBlock info ceaseAdv ++ run.flatten ∧
        ∀ mem : Memory, mem.Holds 0 sent →
          VisitsExactly mem sent.length (processRaWalk mem sent.length) (run.filter (· ≠ [])) ∧
          VisitsExactly mem sent.length (printFfWalk mem sent.length) (run.filter (· ≠ [])) := by
  constructor
  · intro index block here
    have blockMem := List.mem_of_getElem? here
    by_cases empty : block = []
    · left
      rcases blocks_eq_cons parsed built with ⟨head, tail, blocksEq, filled, -⟩
      rw [blocksEq] at here
      rcases index with _ | index
      · exact ⟨rfl, empty⟩
      · rw [List.getElem?_cons_succ] at here
        exact absurd empty (filled block (List.mem_of_getElem? here))
    · have wellFormed := wellFormed_of_mem_blocks parsed built blockMem empty
      exact .inr ⟨wellFormed.length_eq, wellFormed.octet_pos, wellFormed.octet_le⟩
  · intro info ceaseAdv maxRaOptionSize reallySend sent sentMem
    rw [sendOptions_blocks] at sentMem
    rcases exists_run_of_mem_sendBins sentMem with ⟨run, runMem, rfl⟩
    have inBlocks := infix_of_mem_pack runMem
    refine ⟨run, inBlocks, rfl, ?_⟩
    have filledMem : ∀ block ∈ run.filter (· ≠ []), block ∈ sbl.blocks ∧ block ≠ [] := by
      intro block blockMem
      rw [List.mem_filter] at blockMem
      exact ⟨inBlocks.subset blockMem.1, by simpa using blockMem.2⟩
    have wellFormed : ∀ block ∈ run.filter (· ≠ []), WellFormed block := by
      intro block blockMem
      rcases filledMem block blockMem with ⟨inBlocks, filled⟩
      exact wellFormed_of_mem_blocks parsed built inBlocks filled
    have prefixLength : ∀ block ∈ run.filter (· ≠ []),
        block.getD 0 0 = ndOptPrefixInformation → block.length = 32 := by
      intro block blockMem
      exact prefix_length_of_mem_blocks parsed built (filledMem block blockMem).1
    intro mem stored
    rw [message, ← List.flatten_filter_ne_nil] at stored ⊢
    exact ⟨visitsExactly_processRaWalk rfl wellFormed prefixLength stored,
      visitsExactly_printFfWalk rfl wellFormed stored⟩

def documentationPrefix : AdvPrefix :=
  { prefixInitDefaults with
    prefixAddr := ⟨#[0x20, 0x01, 0x0d, 0xb8, 0, 0, 0, 0, 0, 0, 0, 0, 0, 0, 0, 0], rfl⟩
    prefixLen := 64 }

def advertising (count : Nat) : Interface :=
  { ifaceInitDefaults with
    advSendAdvert := true
    advPrefixList := List.replicate count documentationPrefix }

def Kernel.silent : Kernel where
  getV4addr := fun _ => none
  getifaddrs := []
  rtmGetaddr := none

theorem parsed_advertising (count : Nat) : (advertising count).Parsed where
  route_prefixLen := by simp [advertising, ifaceInitDefaults]
  dnssl_parsed := by simp [advertising, ifaceInitDefaults]
  hwaddr_le := by simp [advertising, ifaceInitDefaults]
  capport_length := by simp [advertising, ifaceInitDefaults]

theorem dnsslFits_advertising (count : Nat) : (advertising count).DnsslFits := by
  simp [Interface.DnsslFits, advertising, ifaceInitDefaults]

theorem options_walk_advertising :
    ∃ sbl, buildRaOptions .littleEndian Kernel.silent (advertising 3) In6Addr.unspecified =
        .ok sbl ∧
      ∀ index block, sbl.blocks[index]? = some block →
        (index = 0 ∧ block = []) ∨
          (block.length = 8 * (block.getD 1 0).toNat ∧ 1 ≤ (block.getD 1 0).toNat ∧
            (block.getD 1 0).toNat ≤ 255) := by
  rcases buildRaOptions_ok .littleEndian Kernel.silent In6Addr.unspecified (parsed_advertising 3)
    (dnsslFits_advertising 3) with ⟨sbl, built, -⟩
  exact ⟨sbl, built, (options_walk (parsed_advertising 3) built).1⟩

/-! ## Nothing is lost, split or reordered -/

/-- The packing loop sends the blocks as the given runs: no block is lost, and
the loop stops early only where a send fails. -/
structure SendsRuns (raHdr : Bytes) (maxRaOptionSize : Nat) (blocks : List Bytes)
    (runs : List (List Bytes)) : Prop where
  /-- Each message is the header and a run of whole blocks, and the runs are the list. -/
  complete : runs.flatten = blocks
  /-- A message that is too long contains exactly one block. -/
  single : ∀ run ∈ runs, maxRaOptionSize < (message raHdr run).length →
    ∃ block, block ≠ [] ∧ run.filter (· ≠ []) = [block]
  /-- A block opens a new message only if it did not fit in the one before. -/
  greedy : runs.IsChain fun run next =>
    ∀ block ∈ next.head?, maxRaOptionSize < (message raHdr run).length + block.length
  /-- A message without options is only sent if there are none. -/
  headerOnly : ∀ run ∈ runs, run.flatten = [] → blocks.flatten = []
  /-- If every send succeeds then all messages are sent. -/
  done : ∀ reallySend : Nat → Bool, (∀ k < runs.length, reallySend k = true) →
    sendOptions raHdr maxRaOptionSize reallySend blocks = ⟨runs.map (message raHdr), .done⟩
  /-- If a send fails then exactly the messages before it are sent. -/
  failed : ∀ (reallySend : Nat → Bool) (k : Nat), k < runs.length →
    (∀ j < k, reallySend j = true) → reallySend k = false →
    sendOptions raHdr maxRaOptionSize reallySend blocks =
      ⟨(runs.map (message raHdr)).take k, .failed⟩

/-- The greedy groups of the block lengths, each with the 16 octets of a header,
stay within the 64 KiB of a buffer. -/
def FitsBuffer (maxRaOptionSize : Nat) (lengths : List Nat) : Prop :=
  ∀ group ∈ pack id maxRaOptionSize 16 lengths, load id 16 group ≤ 64 * 1024

theorem fitsBuffer_of_le {maxRaOptionSize : Nat} {lengths : List Nat}
    (small : maxRaOptionSize ≤ 64 * 1024) (each : ∀ length ∈ lengths, 16 + length ≤ 64 * 1024) :
    FitsBuffer maxRaOptionSize lengths := by
  intro group groupMem
  by_contra exceeds
  rcases eq_singleton_of_cap_lt groupMem (by omega) with ⟨length, rfl⟩
  have lengthMem : length ∈ lengths := by
    rw [← flatten_pack id maxRaOptionSize 16 lengths]
    exact List.mem_flatten_of_mem groupMem (by simp)
  have := each length lengthMem
  simp at exceeds
  omega

theorem fitsBuffer_map_length {maxRaOptionSize : Nat} {blocks : List Bytes} :
    FitsBuffer maxRaOptionSize (blocks.map List.length) ↔
      ∀ run ∈ pack List.length maxRaOptionSize 16 blocks,
        load List.length 16 run ≤ 64 * 1024 := by
  simp only [FitsBuffer, pack_map, List.forall_mem_map, load_map, Function.id_comp]

section

variable {order : ByteOrder} {kernel : Kernel} {iface : Interface} {dest : In6Addr}
  {sbl : SafeBufferList} {maxRaOptionSize : Nat}

theorem flatten_eq_nil_of_headerOnly (parsed : iface.Parsed)
    (built : buildRaOptions order kernel iface dest = .ok sbl) (room : 1202 ≤ maxRaOptionSize)
    {run : List Bytes} (runMem : run ∈ pack List.length maxRaOptionSize 16 sbl.blocks)
    (empty : run.flatten = []) : sbl.blocks.flatten = [] := by
  rcases blocks_eq_cons parsed built with ⟨head, tail, blocksEq, filled, headEmpty⟩
  have runEmpty : ∀ block ∈ run, block = [] := by simpa [List.flatten_eq_nil_iff] using empty
  have runFilled := ne_nil_of_mem_pack runMem
  rcases run with _ | ⟨first, others⟩
  · exact absurd rfl runFilled
  have firstEmpty := runEmpty first (by simp)
  rw [blocksEq, pack_cons] at runMem
  rcases List.mem_cons.mp runMem with here | later
  · have headEq : first = head := (List.cons.inj here).1
    have othersEq := (List.cons.inj here).2
    rw [firstEmpty] at headEq
    rw [← headEq, List.length_nil, Nat.add_zero] at othersEq
    have tailEq := headEmpty headEq.symm
    rw [blocksEq, ← headEq, List.flatten_cons, List.nil_append]
    -- the first option after an empty head always fits beside it
    rcases tail with _ | ⟨next, rest⟩
    · rfl
    · have bound := (wellFormed_of_mem_tailBlocks parsed
        (show next ∈ tailBlocks order iface by rw [← tailEq]; simp)).2
      rw [fill_cons_of_le (by omega)] at othersEq
      have nextEmpty := runEmpty next (by simp [othersEq])
      exact absurd nextEmpty (filled next (by simp))
  · have inFill : first ∈ (fill List.length maxRaOptionSize (16 + head.length) tail).2 := by
      rw [← flatten_pack List.length maxRaOptionSize 16
        (fill List.length maxRaOptionSize (16 + head.length) tail).2]
      exact List.mem_flatten_of_mem later (by simp)
    have inTail : first ∈ tail := by
      rw [← fill_append List.length maxRaOptionSize (16 + head.length) tail]
      exact List.mem_append_right _ inFill
    exact absurd firstEmpty (filled first inTail)

theorem sendsRuns_pack (info : RaHeaderInfo) (ceaseAdv : Bool) (parsed : iface.Parsed)
    (built : buildRaOptions order kernel iface dest = .ok sbl) (room : 1202 ≤ maxRaOptionSize)
    (fits : FitsBuffer maxRaOptionSize (sbl.blocks.map List.length)) :
    SendsRuns (raHeaderBlock info ceaseAdv) maxRaOptionSize sbl.blocks
      (pack List.length maxRaOptionSize 16 sbl.blocks) := by
  rw [fitsBuffer_map_length] at fits
  have fitsMessage : ∀ run ∈ pack List.length maxRaOptionSize 16 sbl.blocks,
      (message (raHeaderBlock info ceaseAdv) run).length ≤ 64 * 1024 := by
    intro run runMem
    rw [length_message]
    exact fits run runMem
  constructor
  case complete => exact flatten_pack _ _ _ _
  case single =>
    intro run runMem exceeds
    rw [length_message] at exceeds
    rcases eq_singleton_of_cap_lt runMem exceeds with ⟨block, rfl⟩
    have filled : block ≠ [] := by
      rintro rfl
      simp at exceeds
      omega
    exact ⟨block, filled, by simp [filled]⟩
  case greedy =>
    apply (isChain_pack List.length maxRaOptionSize 16 sbl.blocks).imp
    intro run next exceeds block blockMem
    rw [length_message]
    exact exceeds block blockMem
  case headerOnly =>
    intro run runMem empty
    exact flatten_eq_nil_of_headerOnly parsed built room runMem empty
  case done =>
    intro reallySend succeeds
    rw [sendOptions_blocks]
    exact sendBins_done fitsMessage (by simpa using succeeds)
  case failed =>
    intro reallySend k bound succeeds fails
    rw [sendOptions_blocks]
    exact sendBins_failed fitsMessage bound (by simpa using succeeds) (by simpa using fails)

theorem not_sendsRuns (info : RaHeaderInfo) (ceaseAdv : Bool)
    (exceeds : ¬FitsBuffer maxRaOptionSize (sbl.blocks.map List.length)) :
    ¬∃ runs, SendsRuns (raHeaderBlock info ceaseAdv) maxRaOptionSize sbl.blocks runs := by
  rintro ⟨runs, sends⟩
  rw [fitsBuffer_map_length] at exceeds
  push Not at exceeds
  rcases exceeds with ⟨run, runMem, tooLong⟩
  have exited := @sendBins_exited (raHeaderBlock info ceaseAdv) (fun _ => true) 0 _
    ⟨run, runMem, by rw [length_message]; exact tooLong⟩ (fun _ => rfl)
  have sent := sends.done (fun _ => true) (fun _ _ => rfl)
  rw [sendOptions_blocks] at sent
  rw [sent] at exited
  cases exited

end

/-- The packing loop distributes the blocks over messages without losing,
splitting or reordering any, exactly if no greedy group of them outgrows the
buffer. -/
theorem sendsRuns_iff {order : ByteOrder} {kernel : Kernel} {iface : Interface}
    {dest : In6Addr} {sbl : SafeBufferList} {maxRaOptionSize : Nat} (info : RaHeaderInfo)
    (ceaseAdv : Bool) (parsed : iface.Parsed)
    (built : buildRaOptions order kernel iface dest = .ok sbl)
    (room : 1202 ≤ maxRaOptionSize) :
    (∃ runs, SendsRuns (raHeaderBlock info ceaseAdv) maxRaOptionSize sbl.blocks runs) ↔
      FitsBuffer maxRaOptionSize (sbl.blocks.map List.length) := by
  constructor
  · intro sends
    by_contra exceeds
    exact not_sendsRuns info ceaseAdv exceeds sends
  · intro fits
    exact ⟨_, sendsRuns_pack info ceaseAdv parsed built room fits⟩

theorem sendsRuns_iff_advertising :
    ∃ sbl, buildRaOptions .littleEndian Kernel.silent (advertising 3) In6Addr.unspecified =
        .ok sbl ∧
      ((∃ runs, SendsRuns (raHeaderBlock (advertising 3).raHeaderInfo false) 1202 sbl.blocks
          runs) ↔
        FitsBuffer 1202 (sbl.blocks.map List.length)) := by
  rcases buildRaOptions_ok .littleEndian Kernel.silent In6Addr.unspecified (parsed_advertising 3)
    (dnsslFits_advertising 3) with ⟨sbl, built, -⟩
  exact ⟨sbl, built, sendsRuns_iff _ _ (parsed_advertising 3) built (by decide)⟩

theorem prefixBlocks_replicate (iface : Interface) (ceaseAdv : Bool) (count : Nat) :
    prefixBlocks Kernel.silent iface ceaseAdv (List.replicate count documentationPrefix) =
      List.replicate count (prefixBlock documentationPrefix ceaseAdv) := by
  have one : advertisedPrefixes Kernel.silent iface documentationPrefix = [documentationPrefix] := by
    have literal : documentationPrefix.isLiteral = true := by decide
    simp only [advertisedPrefixes, literal, if_true]
    rfl
  induction count with
  | zero => rfl
  | succ count ih =>
      rw [prefixBlocks] at ih ⊢
      rw [List.replicate_succ, List.flatMap_cons, one, List.singleton_append, List.map_cons, ih,
        List.replicate_succ]

theorem lengths_advertising {order : ByteOrder} {count : Nat} {dest : In6Addr}
    {sbl : SafeBufferList} (positive : 0 < count)
    (built : buildRaOptions order Kernel.silent (advertising count) dest = .ok sbl) :
    sbl.blocks.map List.length = List.replicate count 32 := by
  have lists : listBlocks Kernel.silent (advertising count) =
      List.replicate count (prefixBlock documentationPrefix false) := by
    have prefixes := prefixBlocks_replicate (advertising count) false count
    simp [listBlocks, advertising, ifaceInitDefaults, rdnssBlocks, dnsslBlocks] at prefixes ⊢
    exact prefixes
  have tail : tailBlocks order (advertising count) = [] := by
    simp [tailBlocks, advertising, ifaceInitDefaults, sendsHomeAgentInfo]
  rw [blocks_of_buildRaOptions (parsed_advertising count) built, lists, tail,
    if_neg (by simp; omega)]
  simp

theorem not_fitsBuffer_replicate {maxRaOptionSize count : Nat}
    (fits : 16 + 32 * count ≤ maxRaOptionSize) (exceeds : 64 * 1024 < 16 + 32 * count) :
    ¬FitsBuffer maxRaOptionSize (List.replicate count 32) := by
  have total : load id 16 (List.replicate count 32) = 16 + 32 * count := by
    simp [load, Nat.mul_comm]
  intro fitsBuffer
  have group := fitsBuffer (List.replicate count 32) (by
    rw [pack_eq_singleton (by simp; omega) (by rw [total]; exact fits)]
    simp)
  omega

/-- With 2050 prefixes and an MTU of 128 KiB the program ends instead. -/
theorem not_sendsRuns_advertising :
    (advertising 2050).Parsed ∧
      ∃ sbl, buildRaOptions .littleEndian Kernel.silent (advertising 2050) In6Addr.unspecified =
          .ok sbl ∧
        ¬∃ runs, SendsRuns (raHeaderBlock (advertising 2050).raHeaderInfo false) 131016
          sbl.blocks runs := by
  rcases buildRaOptions_ok .littleEndian Kernel.silent In6Addr.unspecified
    (parsed_advertising 2050) (dnsslFits_advertising 2050) with ⟨sbl, built, -⟩
  refine ⟨parsed_advertising 2050, sbl, built, not_sendsRuns _ _ ?_⟩
  rw [lengths_advertising (by omega) built]
  exact not_fitsBuffer_replicate (by omega) (by omega)

end Radvd
