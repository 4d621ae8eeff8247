import Radvd.Defs
import Radvd.Library.Tlv

/-!
# The option walks of the receivers

Both receivers of router advertisements step through the options with the same
loop, `Tlv.walk` from offset 16 on. `process_ra` of the daemon leaves the loop at
an option that is shorter than the structure it is read as; `print_ff` of
`radvdump` never leaves it.
-/

namespace Radvd

open Wire Tlv

/-- Whether the loop of `process_ra` over the suffixes of a DNSSL option at
`optStr` returns from the function; the loop runs while `offset < limit`. -/
def dnsslReturns (mem : Memory) (optStr limit : Nat) (len : Int) (offset : Nat) : Bool :=
  if offset < limit then
    if (8 + offset : Int) ≥ len then true
    else
      let labelLen := (mem (optStr + 8 + offset)).toNat
      if labelLen = 0 then dnsslReturns mem optStr limit len (offset + 1)
      else if 256 < labelLen + 2 ∨ (8 + (offset + 1) + labelLen : Int) ≥ len then false
      else dnsslReturns mem optStr limit len (offset + 1 + labelLen)
  else false
termination_by limit - offset

def processRaReturns (mem : Memory) (visit : Visit) : Bool :=
  let type := mem visit.offset
  if type = ndOptMtu then visit.len < 8
  else if type = ndOptPrefixInformation then visit.len < 32
  else if type = ndOptRdnssInformation then visit.len < 8
  else if type = ndOptDnsslInformation then
    visit.len < 8 ||
      dnsslReturns mem visit.offset (((mem (visit.offset + 1)).toNat - 1) * 8) visit.len 0
  else false

def processRaWalk (mem : Memory) (len : Nat) : List Visit × End :=
  walk mem (processRaReturns mem) 16 (len - 16)

/-- The walk of `print_ff`, which it makes twice. -/
def printFfWalk (mem : Memory) (len : Nat) : List Visit × End :=
  walk mem (fun _ => false) 16 (len - 16)

theorem dnsslReturns_eq_false {mem : Memory} {optStr limit : Nat} {len : Int}
    (inside : (8 + limit : Int) ≤ len) (offset : Nat) :
    dnsslReturns mem optStr limit len offset = false := by
  fun_induction dnsslReturns mem optStr limit len offset with
  | case1 => omega
  | case2 offset _ _ labelLen _ ih => exact ih
  | case3 => rfl
  | case4 offset _ _ labelLen _ _ ih => exact ih
  | case5 => rfl

/-- `process_ra` does not return at an option that announces its length, if a
Prefix Information option has its 32 octets. -/
theorem processRaReturns_eq_false {mem : Memory} {visit : Visit} {block : Bytes}
    (wellFormed : WellFormed block) (stored : mem.Holds visit.offset block)
    (prefixLength : block.getD 0 0 = ndOptPrefixInformation → block.length = 32)
    (inside : (block.length : Int) ≤ visit.len) : processRaReturns mem visit = false := by
  have octet := wellFormed.octet_of_holds stored
  have pos := wellFormed.octet_pos
  have length := wellFormed.length_eq
  have first : mem visit.offset = block.getD 0 0 := by
    have zero := stored 0 (by omega)
    simp [List.getD, zero]
  have long : ¬visit.len < 8 := by omega
  have returnsNot := @dnsslReturns_eq_false mem visit.offset
    (((mem (visit.offset + 1)).toNat - 1) * 8) visit.len (by rw [octet]; omega) 0
  simp only [processRaReturns, long, returnsNot, decide_false, Bool.or_false]
  split
  · rfl
  · split
    · rename_i isPrefix
      have := prefixLength (by rw [← first, isPrefix])
      simp only [decide_eq_false_iff_not]
      omega
    · simp

/-- The walk visited exactly `blocks`, in order and to the last octet of a
message of `len` octets. -/
structure VisitsExactly (mem : Memory) (len : Nat) (walked : List Visit × End)
    (blocks : List Bytes) : Prop where
  ending : walked.2 = .finished
  visited : walked.1.map (fun visit => mem.slice visit.offset visit.optlen) = blocks
  consumed : 16 + (walked.1.map Visit.optlen).sum = len

section

variable {mem : Memory} {raHdr : Bytes} {blocks : List Bytes}

theorem visitsExactly_walk {returns : Visit → Bool} (hdrLength : raHdr.length = 16)
    (wellFormed : ∀ block ∈ blocks, WellFormed block)
    (stored : mem.Holds 0 (raHdr ++ blocks.flatten))
    (stays : ∀ visit ∈ visits 16 blocks.flatten.length blocks, returns visit = false) :
    VisitsExactly mem (raHdr ++ blocks.flatten).length
      (walk mem returns 16 ((raHdr ++ blocks.flatten).length - 16)) blocks := by
  rw [Memory.holds_append, hdrLength, Nat.zero_add] at stored
  have total : ((raHdr ++ blocks.flatten).length : Int) - 16 = blocks.flatten.length := by
    rw [List.length_append, hdrLength]
    omega
  rw [total, walk_of_holds wellFormed stored.2 stays]
  exact ⟨rfl, slice_visits stored.2, by rw [sum_optlen_visits, List.length_append, hdrLength]⟩

theorem visitsExactly_printFfWalk (hdrLength : raHdr.length = 16)
    (wellFormed : ∀ block ∈ blocks, WellFormed block)
    (stored : mem.Holds 0 (raHdr ++ blocks.flatten)) :
    VisitsExactly mem (raHdr ++ blocks.flatten).length
      (printFfWalk mem (raHdr ++ blocks.flatten).length) blocks :=
  visitsExactly_walk hdrLength wellFormed stored fun _ _ => rfl

theorem visitsExactly_processRaWalk (hdrLength : raHdr.length = 16)
    (wellFormed : ∀ block ∈ blocks, WellFormed block)
    (prefixLength : ∀ block ∈ blocks,
      block.getD 0 0 = ndOptPrefixInformation → block.length = 32)
    (stored : mem.Holds 0 (raHdr ++ blocks.flatten)) :
    VisitsExactly mem (raHdr ++ blocks.flatten).length
      (processRaWalk mem (raHdr ++ blocks.flatten).length) blocks := by
  apply visitsExactly_walk hdrLength wellFormed stored
  intro visit visitMem
  rw [Memory.holds_append, hdrLength, Nat.zero_add] at stored
  rcases exists_block_of_mem_visits stored.2 visitMem with
    ⟨block, blockMem, blockStored, -, inside⟩
  exact processRaReturns_eq_false (wellFormed block blockMem) blockStored
    (prefixLength block blockMem) inside

end

end Radvd
