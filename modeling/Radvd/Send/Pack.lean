import Radvd.Library.Packing
import Radvd.Send.WellFormed

/-!
# The packing loop of `send_ra`

The two nested loops that distribute the blocks over one or more messages, each
of them the RA header and a run of blocks.

`sendLoop` is the code. It refines the greedy packing of the library:
`sendLoop_eq_sendBins` says that the messages are exactly the bins of
`Packing.pack`, sent in order until a send fails or a message outgrows the 64
KiB of the buffer, which ends the program.
-/

namespace Radvd

open Wire SafeBuffer Packing

/-- How the loop of `send_ra` ends. -/
inductive SendStatus where
  | done
  | failed
  | exited (exit : Exit)
  deriving DecidableEq, Repr

structure SendResult where
  sent : List Bytes
  status : SendStatus
  deriving DecidableEq, Repr

def SendResult.cons (message : Bytes) (result : SendResult) : SendResult :=
  { result with sent := message :: result.sent }

/-- The inner loop: copy in as many options as fit, and at least one. -/
def fillRa (maxRaOptionSize : Nat) (sb : SafeBuffer) (optionCount : Nat) :
    List Bytes → Except Exit (SafeBuffer × List Bytes)
  | [] => .ok (sb, [])
  | cur :: next =>
      if sb.used = 0 then fillRa maxRaOptionSize sb optionCount next
      else if sb.used + cur.length > maxRaOptionSize ∧ optionCount > 0 then .ok (sb, cur :: next)
      else do
        let sb ← sb.append cur
        fillRa maxRaOptionSize sb (optionCount + 1) next

theorem length_le_of_fillRa {maxRaOptionSize optionCount : Nat} {sb sb' : SafeBuffer}
    {cur cur' : List Bytes} (filled : fillRa maxRaOptionSize sb optionCount cur = .ok (sb', cur')) :
    cur'.length ≤ cur.length := by
  induction cur generalizing sb optionCount with
  | nil =>
      cases filled
      exact le_rfl
  | cons block rest ih =>
      rw [fillRa] at filled
      split at filled
      · have := ih filled
        rw [List.length_cons]
        omega
      · split at filled
        · cases filled
          exact le_rfl
        · rcases appended : sb.append block with exit | grown
          · rw [appended] at filled
            cases filled
          · rw [appended] at filled
            have := ih filled
            rw [List.length_cons]
            omega

theorem length_lt_of_fillRa {maxRaOptionSize : Nat} {sb sb' : SafeBuffer}
    {cur cur' : List Bytes} (filled : fillRa maxRaOptionSize sb 0 cur = .ok (sb', cur'))
    (more : cur' ≠ []) : cur'.length < cur.length := by
  cases cur with
  | nil =>
      cases filled
      exact absurd rfl more
  | cons block rest =>
      rw [fillRa] at filled
      rw [List.length_cons]
      split at filled
      · have := length_le_of_fillRa filled
        omega
      · rw [if_neg (by omega)] at filled
        rcases appended : sb.append block with exit | grown
        · rw [appended] at filled
          cases filled
        · rw [appended] at filled
          have := length_le_of_fillRa filled
          omega

/-- The outer loop, from the `index`-th call of `really_send` on. The argument
`reallySend` tells which of the calls succeed. -/
def sendLoop (raHdr : Bytes) (maxRaOptionSize : Nat) (reallySend : Nat → Bool)
    (sb : SafeBuffer) (index : Nat) (cur : List Bytes) : SendResult :=
  match sb.clear.append raHdr with
  | .error exit => ⟨[], .exited exit⟩
  | .ok sb =>
      match filled : fillRa maxRaOptionSize sb 0 cur with
      | .error exit => ⟨[], .exited exit⟩
      | .ok (sb, next) =>
          if !reallySend index then ⟨[], .failed⟩
          else if more : next ≠ [] then
            .cons sb.bytes (sendLoop raHdr maxRaOptionSize reallySend sb (index + 1) next)
          else ⟨[sb.bytes], .done⟩
termination_by cur.length
decreasing_by exact length_lt_of_fillRa filled more

def sendOptions (raHdr : Bytes) (maxRaOptionSize : Nat) (reallySend : Nat → Bool)
    (raOpts : List Bytes) : SendResult :=
  sendLoop raHdr maxRaOptionSize reallySend SafeBuffer.new 0 raOpts

/-! ## The loop is the greedy packing -/

/-- The message for a run of blocks. -/
def message (raHdr : Bytes) (run : List Bytes) : Bytes :=
  raHdr ++ run.flatten

theorem length_message (raHdr : Bytes) (run : List Bytes) :
    (message raHdr run).length = load List.length raHdr.length run := by
  simp [message, load, List.length_flatten]

/-- Send the messages of the given runs in order. -/
def sendBins (raHdr : Bytes) (reallySend : Nat → Bool) (index : Nat) :
    List (List Bytes) → SendResult
  | [] => ⟨[], .done⟩
  | run :: rest =>
      if 64 * 1024 < (message raHdr run).length then ⟨[], .exited .safeBufferResize⟩
      else if !reallySend index then ⟨[], .failed⟩
      else .cons (message raHdr run) (sendBins raHdr reallySend (index + 1) rest)

section

variable {raHdr : Bytes} {maxRaOptionSize optionCount : Nat} {sb : SafeBuffer} {block : Bytes}
  {cur rest : List Bytes}

theorem fillRa_cons_append (started : 0 < sb.used)
    (goes : maxRaOptionSize < sb.used + block.length → optionCount = 0)
    (fits : sb.used + block.length ≤ 64 * 1024) :
    ∃ grown : SafeBuffer, fillRa maxRaOptionSize sb optionCount (block :: rest) =
        fillRa maxRaOptionSize grown (optionCount + 1) rest ∧
      grown.bytes = sb.bytes ++ block := by
  rcases append_ok sb block fits with ⟨grown, grownEq, grownBytes⟩
  refine ⟨grown, ?_, grownBytes⟩
  rw [fillRa, if_neg (by omega), if_neg (by omega), grownEq]
  rfl

theorem fillRa_cons_exit (started : 0 < sb.used)
    (goes : maxRaOptionSize < sb.used + block.length → optionCount = 0)
    (exceeds : 64 * 1024 < sb.used + block.length) :
    fillRa maxRaOptionSize sb optionCount (block :: rest) = .error .safeBufferResize := by
  rw [fillRa, if_neg (by omega), if_neg (by omega), append_error exceeds]
  rfl

theorem fillRa_ok (started : 0 < sb.used) (counted : 0 < optionCount)
    (fits : load List.length sb.used (fill List.length maxRaOptionSize sb.used cur).1 ≤
      64 * 1024) :
    ∃ sb', fillRa maxRaOptionSize sb optionCount cur =
        .ok (sb', (fill List.length maxRaOptionSize sb.used cur).2) ∧
      sb'.bytes = sb.bytes ++ (fill List.length maxRaOptionSize sb.used cur).1.flatten := by
  induction cur generalizing sb optionCount with
  | nil => exact ⟨sb, rfl, by simp [fill]⟩
  | cons block rest ih =>
      by_cases exceeds : maxRaOptionSize < sb.used + block.length
      · rw [fillRa, if_neg (by omega), if_pos ⟨exceeds, counted⟩, fill_cons_of_lt exceeds]
        exact ⟨sb, rfl, by simp⟩
      · rw [fill_cons_of_le (by omega), load_cons] at fits
        rw [fill_cons_of_le (by omega)]
        have start := le_load.trans fits
        rcases fillRa_cons_append started (fun full => absurd full exceeds) start with
          ⟨grown, grownEq, grownBytes⟩
        have grownUsed := used_of_bytes grownBytes
        rw [← grownUsed] at fits ⊢
        rcases ih (by omega) (Nat.succ_pos optionCount) fits with ⟨last, lastEq, lastBytes⟩
        refine ⟨last, by rw [grownEq, lastEq], ?_⟩
        rw [lastBytes, grownBytes, List.flatten_cons, List.append_assoc]

theorem fillRa_error (started : 0 < sb.used) (counted : 0 < optionCount)
    (tooLong : 64 * 1024 <
      load List.length sb.used (fill List.length maxRaOptionSize sb.used cur).1) :
    fillRa maxRaOptionSize sb optionCount cur = .error .safeBufferResize := by
  have usedMax := used_le_max sb
  induction cur generalizing sb optionCount with
  | nil =>
      rw [fill, load_nil] at tooLong
      omega
  | cons block rest ih =>
      by_cases exceeds : maxRaOptionSize < sb.used + block.length
      · rw [fill_cons_of_lt exceeds, load_nil] at tooLong
        omega
      · rw [fill_cons_of_le (by omega), load_cons] at tooLong
        by_cases fits : sb.used + block.length ≤ 64 * 1024
        · rcases fillRa_cons_append started (fun full => absurd full exceeds) fits with
            ⟨grown, grownEq, grownBytes⟩
          have grownUsed := used_of_bytes grownBytes
          rw [← grownUsed] at tooLong
          rw [grownEq]
          exact ih (by omega) (Nat.succ_pos optionCount) tooLong (used_le_max grown)
        · exact fillRa_cons_exit started (fun full => absurd full exceeds) (by omega)

/-- From its first turn, which takes a block whatever its size, the inner loop
fills a bin. -/
theorem fillRa_zero_ok (started : 0 < sb.used)
    (fits : load List.length sb.used
      (block :: (fill List.length maxRaOptionSize (sb.used + block.length) rest).1) ≤ 64 * 1024) :
    ∃ sb', fillRa maxRaOptionSize sb 0 (block :: rest) =
        .ok (sb', (fill List.length maxRaOptionSize (sb.used + block.length) rest).2) ∧
      sb'.bytes = sb.bytes ++
        (block :: (fill List.length maxRaOptionSize (sb.used + block.length) rest).1).flatten := by
  rw [load_cons] at fits
  have start := le_load.trans fits
  rcases fillRa_cons_append started (fun _ => rfl) start with ⟨grown, grownEq, grownBytes⟩
  have grownUsed := used_of_bytes grownBytes
  rw [← grownUsed] at fits ⊢
  rcases fillRa_ok (by omega) Nat.one_pos fits with ⟨last, lastEq, lastBytes⟩
  refine ⟨last, by rw [grownEq, lastEq], ?_⟩
  rw [lastBytes, grownBytes, List.flatten_cons, List.append_assoc]

theorem fillRa_zero_error (started : 0 < sb.used)
    (tooLong : 64 * 1024 < load List.length sb.used
      (block :: (fill List.length maxRaOptionSize (sb.used + block.length) rest).1)) :
    fillRa maxRaOptionSize sb 0 (block :: rest) = .error .safeBufferResize := by
  rw [load_cons] at tooLong
  by_cases fits : sb.used + block.length ≤ 64 * 1024
  · rcases fillRa_cons_append started (fun _ => rfl) fits with ⟨grown, grownEq, grownBytes⟩
    have grownUsed := used_of_bytes grownBytes
    rw [← grownUsed] at tooLong
    rw [grownEq]
    exact fillRa_error (by omega) Nat.one_pos tooLong
  · exact fillRa_cons_exit started (fun _ => rfl) (by omega)

variable {reallySend : Nat → Bool} {index : Nat} {start : SafeBuffer}

theorem sendLoop_of_error {exit : Exit} (started : sb.clear.append raHdr = .ok start)
    (failed : fillRa maxRaOptionSize start 0 cur = .error exit) :
    sendLoop raHdr maxRaOptionSize reallySend sb index cur = ⟨[], .exited exit⟩ := by
  rw [sendLoop, started]
  dsimp only
  split
  · rename_i other otherEq
    rw [failed] at otherEq
    cases otherEq
    rfl
  · rename_i last next lastEq
    rw [failed] at lastEq
    cases lastEq

theorem sendLoop_of_ok {last : SafeBuffer} (started : sb.clear.append raHdr = .ok start)
    (filled : fillRa maxRaOptionSize start 0 cur = .ok (last, rest)) :
    sendLoop raHdr maxRaOptionSize reallySend sb index cur =
      if !reallySend index then ⟨[], .failed⟩
      else if rest ≠ [] then
        .cons last.bytes (sendLoop raHdr maxRaOptionSize reallySend last (index + 1) rest)
      else ⟨[last.bytes], .done⟩ := by
  rw [sendLoop, started]
  dsimp only
  split
  · rename_i other otherEq
    rw [filled] at otherEq
    cases otherEq
  · rename_i sb' next sbEq
    rw [filled] at sbEq
    cases sbEq
    rfl

/-- The loop of `send_ra` sends the bins of the greedy packing. -/
theorem sendLoop_eq_sendBins (hdrPos : 0 < raHdr.length) (hdrFits : raHdr.length ≤ 64 * 1024)
    (nonempty : cur ≠ []) :
    sendLoop raHdr maxRaOptionSize reallySend sb index cur =
      sendBins raHdr reallySend index (pack List.length maxRaOptionSize raHdr.length cur) := by
  induction length : cur.length using Nat.strong_induction_on generalizing cur sb index with
  | _ count ih =>
      subst length
      rcases cur with _ | ⟨block, rest⟩
      · exact absurd rfl nonempty
      rcases append_ok sb.clear raHdr (by simpa [used] using hdrFits) with
        ⟨start, startEq, startBytes⟩
      rw [bytes_clear, List.nil_append] at startBytes
      have startUsed : start.used = raHdr.length := by
        rw [used, startBytes]
      rw [pack_cons, sendBins, length_message, ← startUsed]
      by_cases tooLong : 64 * 1024 < load List.length start.used
          (block :: (fill List.length maxRaOptionSize (start.used + block.length) rest).1)
      · rw [if_pos tooLong,
          sendLoop_of_error startEq (fillRa_zero_error (by omega) tooLong)]
      · rcases fillRa_zero_ok (by omega) (Nat.not_lt.mp tooLong) with ⟨last, lastEq, lastBytes⟩
        rw [startBytes] at lastBytes
        have shorter := length_fill_snd_le List.length maxRaOptionSize
          (start.used + block.length) rest
        rw [if_neg tooLong, sendLoop_of_ok startEq lastEq, lastBytes]
        by_cases more : (fill List.length maxRaOptionSize (start.used + block.length) rest).2 = []
        · simp [more, sendBins, SendResult.cons, message]
        · rw [if_pos more, startUsed] at *
          rw [ih _ (by simp; omega) more rfl]
          rfl

end

theorem sendOptions_eq_sendBins {raHdr : Bytes} {maxRaOptionSize : Nat} {raOpts : List Bytes}
    (hdrPos : 0 < raHdr.length) (hdrFits : raHdr.length ≤ 64 * 1024) (nonempty : raOpts ≠ [])
    (reallySend : Nat → Bool) :
    sendOptions raHdr maxRaOptionSize reallySend raOpts =
      sendBins raHdr reallySend 0 (pack List.length maxRaOptionSize raHdr.length raOpts) :=
  sendLoop_eq_sendBins hdrPos hdrFits nonempty

/-! ## What is sent -/

section

variable {raHdr : Bytes} {reallySend : Nat → Bool} {index : Nat} {bins : List (List Bytes)}

theorem exists_run_of_mem_sendBins {sent : Bytes}
    (sentMem : sent ∈ (sendBins raHdr reallySend index bins).sent) :
    ∃ run ∈ bins, sent = message raHdr run := by
  induction bins generalizing index with
  | nil => simp [sendBins] at sentMem
  | cons run rest ih =>
      rw [sendBins] at sentMem
      split at sentMem
      · simp at sentMem
      · split at sentMem
        · simp at sentMem
        · simp only [SendResult.cons, List.mem_cons] at sentMem
          rcases sentMem with rfl | later
          · exact ⟨run, by simp, rfl⟩
          · rcases ih later with ⟨other, otherMem, otherEq⟩
            exact ⟨other, by simp [otherMem], otherEq⟩

theorem sendBins_done (fits : ∀ run ∈ bins, (message raHdr run).length ≤ 64 * 1024)
    (succeeds : ∀ k < bins.length, reallySend (index + k) = true) :
    sendBins raHdr reallySend index bins = ⟨bins.map (message raHdr), .done⟩ := by
  induction bins generalizing index with
  | nil => rfl
  | cons run rest ih =>
      have now := succeeds 0 (by simp)
      have later := @ih (index + 1) (fun other otherMem => fits other (by simp [otherMem]))
        (fun k bound => by
          have := succeeds (k + 1) (by simpa using bound)
          rwa [Nat.add_assoc, Nat.add_comm 1])
      have fitsHere := fits run (by simp)
      rw [sendBins, if_neg (by omega), if_neg (by simpa using now), later]
      rfl

/-- If the `k`-th send is the first to fail then exactly the messages before it
are sent. -/
theorem sendBins_failed {k : Nat}
    (fits : ∀ run ∈ bins, (message raHdr run).length ≤ 64 * 1024) (bound : k < bins.length)
    (succeeds : ∀ j < k, reallySend (index + j) = true)
    (fails : reallySend (index + k) = false) :
    sendBins raHdr reallySend index bins = ⟨(bins.map (message raHdr)).take k, .failed⟩ := by
  induction bins generalizing index k with
  | nil => simp at bound
  | cons run rest ih =>
      have fitsHere := fits run (by simp)
      rw [sendBins, if_neg (by omega)]
      rcases k with _ | k
      · rw [if_pos (by simpa using fails)]
        simp
      · have now := succeeds 0 (by omega)
        have later := @ih (index + 1) k (fun other otherMem => fits other (by simp [otherMem]))
          (by simpa using bound)
          (fun j inside => by
            have := succeeds (j + 1) (by omega)
            rwa [Nat.add_assoc, Nat.add_comm 1])
          (by rwa [Nat.add_assoc, Nat.add_comm 1])
        rw [if_neg (by simpa using now), later]
        rfl

theorem sendBins_exited (exceeds : ∃ run ∈ bins, 64 * 1024 < (message raHdr run).length)
    (succeeds : ∀ k, reallySend k = true) :
    (sendBins raHdr reallySend index bins).status = .exited .safeBufferResize := by
  induction bins generalizing index with
  | nil => simp at exceeds
  | cons run rest ih =>
      rw [sendBins]
      by_cases tooLong : 64 * 1024 < (message raHdr run).length
      · rw [if_pos tooLong]
      · have later : ∃ run ∈ rest, 64 * 1024 < (message raHdr run).length := by
          rcases exceeds with ⟨other, otherMem, otherLong⟩
          rcases List.mem_cons.mp otherMem with rfl | inRest
          · exact absurd otherLong tooLong
          · exact ⟨other, inRest, otherLong⟩
        rw [if_neg tooLong, if_neg (by simp [succeeds])]
        exact ih later

end

end Radvd
