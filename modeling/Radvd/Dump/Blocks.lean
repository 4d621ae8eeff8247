import Radvd.Dump.Reading

/-!
# The parts of what `print_ff` prints

`print_ff` prints the settings of an interface one to a line (`isLine_printedLines`),
and for each option of its second walk nothing, a comment or a whole block
(`isBlock_printBlock`).
-/

namespace Radvd.Dump

open Wire Tlv

/-! ## Settings -/

/-- A line of the interface that is printed with a semicolon, or not at all. -/
def Statement.IsLine : Statement → Prop
  | .setting _ value => value.Sound
  | .log _ => True
  | .opens _ | .closes | .invalidRouteLength _ | .invalidRdnssLength _ => False

def Statement.IsSetting : Statement → Prop
  | .setting _ value => value.Bare
  | .opens _ | .closes | .invalidRouteLength _ | .invalidRdnssLength _ | .log _ => False

theorem Statement.IsSetting.isLine {statement : Statement} (setting : statement.IsSetting) :
    statement.IsLine := by
  cases statement with
  | setting keyword value =>
      cases value with
      | text octets => exact absurd setting id
      | _ => trivial
  | _ => exact absurd setting id

theorem isSetting_printNumber {edefs : Bool} {dflt value : Nat} {keyword : Keyword} :
    ∀ statement ∈ printNumber edefs dflt keyword value, statement.IsSetting := by
  unfold printNumber
  split <;> simp [Statement.IsSetting, Value.Bare]

theorem isSetting_printFlag {edefs dflt : Bool} {keyword : Keyword} {octet mask : UInt8} :
    ∀ statement ∈ printFlag edefs dflt keyword octet mask, statement.IsSetting := by
  unfold printFlag
  split <;> simp [Statement.IsSetting, Value.Bare]

theorem bare_lifetime (value : UInt32) : (lifetime value).Bare := by
  unfold lifetime
  split <;> trivial

theorem isSetting_printLifetime {edefs : Bool} {dflt value : UInt32} {keyword : Keyword} :
    ∀ statement ∈ printLifetime edefs dflt keyword value, statement.IsSetting := by
  unfold printLifetime
  split <;> simp [Statement.IsSetting, bare_lifetime]

theorem isSetting_printHeader (mem : Memory) (edefs : Bool) :
    ∀ statement ∈ printHeader mem edefs, statement.IsSetting := by
  simp only [printHeader, List.forall_mem_append]
  refine ⟨⟨⟨⟨⟨⟨⟨⟨?_, ?_⟩, ?_⟩, ?_⟩, ?_⟩, ?_⟩, ?_⟩, ?_⟩, ?_⟩
  · exact isSetting_printFlag
  · exact isSetting_printFlag
  · exact isSetting_printNumber
  · exact isSetting_printNumber
  · exact isSetting_printNumber
  · exact isSetting_printNumber
  · exact isSetting_printFlag
  · exact isSetting_printFlag
  · split <;> simp [Statement.IsSetting, Value.Bare]

theorem isSetting_printHomeAgentInfo (order : ByteOrder) (mem : Memory) (edefs : Bool)
    (optStr : Nat) :
    ∀ statement ∈ printHomeAgentInfo order mem edefs optStr, statement.IsSetting := by
  simp only [printHomeAgentInfo, List.forall_mem_append]
  refine ⟨⟨⟨?_, ?_⟩, isSetting_printNumber⟩, isSetting_printNumber⟩
  · simp [Statement.IsSetting, Value.Bare]
  · split <;> simp [Statement.IsSetting, Value.Bare]

/-- The branches of the `switch` of the first walk, each with what it prints. -/
inductive Printing (order : ByteOrder) (mem : Memory) (visit : Visit) :
    (Bool → List Statement) → Prop where
  | mtu (type : mem visit.offset = ndOptMtu) : Printing order mem visit fun edefs =>
      printNumber edefs 0 .advLinkMTU (mem.u32 (visit.offset + 4)).toNat
  | sourceLinkaddr (type : mem visit.offset = ndOptSourceLinkaddr) :
      Printing order mem visit fun edefs =>
        if !edefs || !true then [.setting .advSourceLLAddress (.flag true)] else []
  | rtrAdvInterval (type : mem visit.offset = ndOptRtrAdvInterval) :
      Printing order mem visit fun edefs =>
        if !edefs || !false then [.setting .advIntervalOpt (.flag true)] else []
  | homeAgentInfo (type : mem visit.offset = ndOptHomeAgentInfo) :
      Printing order mem visit fun edefs => printHomeAgentInfo order mem edefs visit.offset
  | captivePortal (type : mem visit.offset = ndOptCaptivePortal) :
      Printing order mem visit fun _ => printCaptivePortal mem visit
  | timestamp (type : mem visit.offset = ndOptTimestamp) :
      Printing order mem visit fun _ => printTimestamp mem visit.offset
  | other {logs : List Log}
      (type : mem visit.offset ∉ [ndOptMtu, ndOptSourceLinkaddr, ndOptRtrAdvInterval,
        ndOptHomeAgentInfo, ndOptCaptivePortal, ndOptTimestamp]) :
      Printing order mem visit fun _ => logs.map .log

theorem printOption_printing (order : ByteOrder) (mem : Memory) (visit : Visit) :
    ∃ printed, Printing order mem visit printed ∧
      ∀ edefs, printOption order mem edefs visit = printed edefs := by
  by_cases mtu : mem visit.offset = ndOptMtu
  · exact ⟨_, .mtu mtu, fun _ => if_pos mtu⟩
  by_cases sourceLinkaddr : mem visit.offset = ndOptSourceLinkaddr
  · refine ⟨_, .sourceLinkaddr sourceLinkaddr, ?_⟩
    intro edefs
    rw [printOption, if_neg mtu, if_pos sourceLinkaddr]
  by_cases rtrAdvInterval : mem visit.offset = ndOptRtrAdvInterval
  · refine ⟨_, .rtrAdvInterval rtrAdvInterval, ?_⟩
    intro edefs
    rw [printOption, if_neg mtu, if_neg sourceLinkaddr, if_pos rtrAdvInterval]
  by_cases homeAgentInfo : mem visit.offset = ndOptHomeAgentInfo
  · refine ⟨_, .homeAgentInfo homeAgentInfo, ?_⟩
    intro edefs
    rw [printOption, if_neg mtu, if_neg sourceLinkaddr, if_neg rtrAdvInterval,
      if_pos homeAgentInfo]
  by_cases captivePortal : mem visit.offset = ndOptCaptivePortal
  · refine ⟨_, .captivePortal captivePortal, ?_⟩
    intro edefs
    rw [printOption, if_neg mtu, if_neg sourceLinkaddr, if_neg rtrAdvInterval,
      if_neg homeAgentInfo, if_pos captivePortal]
  by_cases timestamp : mem visit.offset = ndOptTimestamp
  · refine ⟨_, .timestamp timestamp, ?_⟩
    intro edefs
    rw [printOption, if_neg mtu, if_neg sourceLinkaddr, if_neg rtrAdvInterval,
      if_neg homeAgentInfo, if_neg captivePortal, if_pos timestamp]
  have type : mem visit.offset ∉ [ndOptMtu, ndOptSourceLinkaddr, ndOptRtrAdvInterval,
      ndOptHomeAgentInfo, ndOptCaptivePortal, ndOptTimestamp] := by
    simp [mtu, sourceLinkaddr, rtrAdvInterval, homeAgentInfo, captivePortal, timestamp]
  by_cases invalid : (mem visit.offset = ndOptTargetLinkaddr ||
      mem visit.offset = ndOptRedirectedHeader) = true
  · refine ⟨_, @Printing.other _ _ _ [.invalidOption (mem visit.offset)] type, ?_⟩
    intro edefs
    rw [printOption, if_neg mtu, if_neg sourceLinkaddr, if_neg rtrAdvInterval,
      if_neg homeAgentInfo, if_neg captivePortal, if_neg timestamp, if_pos invalid]
    rfl
  by_cases block : (mem visit.offset = ndOptPrefixInformation ||
      mem visit.offset = ndOptRouteInformation || mem visit.offset = ndOptRdnssInformation ||
      mem visit.offset = ndOptDnsslInformation || mem visit.offset = ndOptPref64) = true
  · refine ⟨_, @Printing.other _ _ _ [] type, ?_⟩
    intro edefs
    rw [printOption, if_neg mtu, if_neg sourceLinkaddr, if_neg rtrAdvInterval,
      if_neg homeAgentInfo, if_neg captivePortal, if_neg timestamp, if_neg invalid, if_pos block]
    rfl
  · refine ⟨_, @Printing.other _ _ _ [.unknownOption (mem visit.offset)] type, ?_⟩
    intro edefs
    rw [printOption, if_neg mtu, if_neg sourceLinkaddr, if_neg rtrAdvInterval,
      if_neg homeAgentInfo, if_neg captivePortal, if_neg timestamp, if_neg invalid, if_neg block]
    rfl

theorem isLine_printOption (order : ByteOrder) (mem : Memory) (edefs : Bool) (visit : Visit) :
    ∀ statement ∈ printOption order mem edefs visit, statement.IsLine := by
  rcases printOption_printing order mem visit with ⟨printed, printing, same⟩
  rw [same]
  cases printing with
  | mtu => exact fun statement statementMem => (isSetting_printNumber statement statementMem).isLine
  | sourceLinkaddr => cases edefs <;> simp [Statement.IsLine, Value.Sound]
  | rtrAdvInterval => simp [Statement.IsLine, Value.Sound]
  | homeAgentInfo =>
      exact fun statement statementMem =>
        (isSetting_printHomeAgentInfo order mem edefs _ statement statementMem).isLine
  | captivePortal => simp [printCaptivePortal, Statement.IsLine, Value.Sound, escaped_sanitized]
  | timestamp => simp [printTimestamp, Statement.IsLine, Value.Sound]
  | other => simp [Statement.IsLine]

/-! ## Blocks -/

/-- The statements that the second walk prints for an option: nothing, a comment,
or a whole block of a kind that it may open. -/
inductive IsBlock (kind : Definition → Prop) : List Statement → Prop
  | nil : IsBlock kind []
  | log {message : Log} {rest : List Statement} (block : IsBlock kind rest) :
      IsBlock kind (.log message :: rest)
  | invalidRouteLength {len : UInt8} : IsBlock kind [.invalidRouteLength len]
  | invalidRdnssLength {len : UInt8} : IsBlock kind [.invalidRdnssLength len]
  | block {definition : Definition} {settings : List Statement} (valid : kind definition)
      (isSetting : ∀ statement ∈ settings, statement.IsSetting) :
      IsBlock kind (.opens definition :: (settings ++ [.closes]))

/-- The blocks that are opened for an option: none is an interface, and a search
list has the suffixes of a DNSSL option. -/
def OpenedFor (mem : Memory) (visit : Visit) (definition : Definition) : Prop :=
  definition ≠ .interface ∧
    ((∀ suffixes, definition ≠ .dnssl suffixes) ∨ mem visit.offset = ndOptDnsslInformation ∧
      definition = .dnssl (dnsslSuffixes mem visit.offset).1)

theorem OpenedFor.of_ne {mem : Memory} {visit : Visit} {definition : Definition}
    (nested : definition ≠ .interface) (notDnssl : ∀ suffixes, definition ≠ .dnssl suffixes) :
    OpenedFor mem visit definition :=
  ⟨nested, .inl notDnssl⟩

section

variable (mem : Memory) (edefs : Bool) (visit : Visit)

theorem isBlock_printPrefix :
    IsBlock (OpenedFor mem visit) (printPrefix mem edefs visit.offset) := by
  simp only [printPrefix, List.cons_append, List.nil_append]
  apply IsBlock.block
  · exact OpenedFor.of_ne (by simp) (by simp)
  · simp only [List.forall_mem_append]
    exact ⟨⟨⟨⟨⟨isSetting_printLifetime, isSetting_printLifetime⟩, isSetting_printFlag⟩,
      isSetting_printFlag⟩, isSetting_printFlag⟩, isSetting_printFlag⟩

theorem isBlock_routeSettings (addr : In6Addr) (len : Nat) :
    IsBlock (OpenedFor mem visit)
      (.opens (.route addr len) :: printRouteSettings mem edefs visit.offset) := by
  have settings : printRouteSettings mem edefs visit.offset =
      ((if !edefs || preferenceOf (mem 5) ≠ .medium then
          [.setting .advRoutePreference (.preference (preferenceOf (mem (visit.offset + 3))))]
        else []) ++ [.setting .advRouteLifetime (lifetime (mem.u32 (visit.offset + 4)))]) ++
        [.closes] := by
    simp [printRouteSettings]
  rw [settings]
  apply IsBlock.block
  · exact OpenedFor.of_ne (by simp) (by simp)
  · simp only [List.forall_mem_append]
    constructor
    · split <;> simp [Statement.IsSetting, Value.Bare]
    · simp [Statement.IsSetting, bare_lifetime]

/-- A block with one setting. -/
theorem isBlock_single {kind : Definition → Prop} {definition : Definition} {value : Value}
    (valid : kind definition) (bare : value.Bare) (keyword : Keyword) :
    IsBlock kind [.opens definition, .setting keyword value, .closes] := by
  have one : ∀ statement ∈ [Statement.setting keyword value], statement.IsSetting := by
    simpa [Statement.IsSetting] using bare
  exact IsBlock.block valid one

theorem isBlock_printBlock :
    IsBlock (OpenedFor mem visit) (printBlock mem edefs visit) := by
  unfold printBlock
  simp only
  split
  · exact isBlock_printPrefix mem edefs visit
  split
  · unfold printRoute
    simp only
    split
    · exact isBlock_routeSettings ..
    split
    · exact .log .invalidRouteLength
    · exact isBlock_routeSettings ..
  split
  · unfold printRdnss
    simp only
    split
    · exact isBlock_single (OpenedFor.of_ne (by simp) (by simp)) (bare_lifetime _) _
    · exact .log .invalidRdnssLength
  split
  · rename_i isDnssl
    have block := @isBlock_single (OpenedFor mem visit) _ _
      ⟨by simp, .inr ⟨isDnssl, rfl⟩⟩ (bare_lifetime (mem.u32 (visit.offset + 4)))
      .advDNSSLLifetime
    unfold printDnssl
    simp only
    split
    · exact .log block
    · exact block
  split
  · unfold printPref64
    split
    · exact .log .nil
    · have block : ∀ addr size lifetime, IsBlock (OpenedFor mem visit)
          [.opens (.nat64Prefix addr size), .setting .advValidLifetime (.number lifetime),
            .closes] := by
        intro addr size lifetime
        have bare : (Value.number lifetime).Bare := trivial
        exact isBlock_single (OpenedFor.of_ne (by simp) (by simp)) bare _
      simp only
      split
      · exact .log (block ..)
      · exact block ..
  · exact .nil

end

/-- The options for which the second walk prints a comment without a newline. -/
def misSized (mem : Memory) (visit : Visit) : Bool :=
  if mem visit.offset = ndOptRouteInformation then
    visit.optlen ≠ 8 && (mem (visit.offset + 1) > 3 || mem (visit.offset + 1) = 0 ||
      (mem (visit.offset + 2) > 64 && mem (visit.offset + 1) < 3) ||
      (mem (visit.offset + 2) > 0 && mem (visit.offset + 1) < 1))
  else
    mem visit.offset = ndOptRdnssInformation &&
      !(mem (visit.offset + 1) ≥ 3 && mem (visit.offset + 1) % 2 = 1)

/-! ## All of it -/

theorem isLine_logEnd (ending : End) : ∀ statement ∈ logEnd ending, statement.IsLine := by
  cases ending <;> simp [logEnd, Statement.IsLine]

section

variable (order : ByteOrder) (mem : Memory) (len : Nat) (edefs : Bool)

/-- The settings of the interface. -/
def printedLines : List Statement :=
  printHeader mem edefs ++ ((printFfWalk mem len).1.flatMap (printOption order mem edefs) ++
    logEnd (printFfWalk mem len).2)

def printedBlocks : List Statement :=
  if (printFfWalk mem len).2 = .overlong then []
  else (printFfWalk mem len).1.flatMap (printBlock mem edefs) ++ logEnd (printFfWalk mem len).2

theorem printFf_eq (options : len ≠ 16) :
    printFf order mem len edefs = (.opens .interface :: printedLines order mem len edefs) ++
      (printedBlocks mem len edefs ++ [.closes]) := by
  simp [printFf, options, printedLines, printedBlocks]

theorem isLine_printedLines :
    ∀ statement ∈ printedLines order mem len edefs, statement.IsLine := by
  simp only [printedLines, List.forall_mem_append]
  refine ⟨?_, ?_, isLine_logEnd _⟩
  · exact fun statement headerMem => (isSetting_printHeader mem edefs statement headerMem).isLine
  · intro statement optionMem
    obtain ⟨visit, -, optionMem⟩ := List.mem_flatMap.mp optionMem
    exact isLine_printOption order mem edefs visit statement optionMem

end

end Radvd.Dump
