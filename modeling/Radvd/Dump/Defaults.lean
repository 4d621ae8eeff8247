import Radvd.Dump.Blocks
import Radvd.Dump.Values
import Radvd.Library.Assignments
import Radvd.Setup

/-!
# Printing without defaults

The statements of `print_ff` are read over the defaults of `interface.c`
(`readStatements`). With `edefs` a setting is left out if it has a certain value
(`kept_printedLines`), which changes what is read unless the last value of a
keyword stays or is its default (`Assignments.assigned_kept_eq_iff`). That is so
for all settings but a few (`lines_eq_iff`, `blocksOf_printBlock_eq_iff`); the main
result is `readStatements_edefs_iff`.
-/

namespace Radvd.Dump

open Wire Tlv Assignments

/-! ## Reading the statements over the defaults -/

abbrev Settings := Keyword → Option Value

/-- A field that the parser finds at -1 is filled in by `check_iface`. -/
def unlessUnset (value : Int) : Option Value :=
  if value < 0 then none else some (.number value.toNat)

/-- The settings of an interface before the first statement. -/
def ifaceDefault : Settings
  | .advManagedFlag => some (.flag ifaceInitDefaults.raHeaderInfo.advManagedFlag)
  | .advOtherConfigFlag => some (.flag ifaceInitDefaults.raHeaderInfo.advOtherConfigFlag)
  | .advReachableTime => some (.number ifaceInitDefaults.raHeaderInfo.advReachableTime.toNat)
  | .advRetransTimer => some (.number ifaceInitDefaults.raHeaderInfo.advRetransTimer.toNat)
  | .advCurHopLimit => some (.number ifaceInitDefaults.raHeaderInfo.advCurHopLimit.toNat)
  | .advDefaultLifetime => unlessUnset ifaceInitDefaults.raHeaderInfo.advDefaultLifetime
  | .advHomeAgentFlag => some (.flag ifaceInitDefaults.raHeaderInfo.advHomeAgentFlag)
  | .advSNACRouterFlag => some (.flag ifaceInitDefaults.raHeaderInfo.advSNACRouterFlag)
  | .advDefaultPreference =>
      some (.preference (preferenceShown ifaceInitDefaults.raHeaderInfo.advDefaultPreference))
  | .advLinkMTU => some (.number ifaceInitDefaults.advLinkMTU.toNat)
  | .advSourceLLAddress => some (.flag ifaceInitDefaults.advSourceLLAddress)
  | .advIntervalOpt => some (.flag ifaceInitDefaults.mipv6.advIntervalOpt)
  | .advHomeAgentInfo => some (.flag ifaceInitDefaults.mipv6.advHomeAgentInfo)
  | .advMobRtrSupportFlag => some (.flag ifaceInitDefaults.mipv6.advMobRtrSupportFlag)
  | .homeAgentPreference => some (.number ifaceInitDefaults.mipv6.homeAgentPreference.toNat)
  | .homeAgentLifetime => unlessUnset ifaceInitDefaults.mipv6.homeAgentLifetime
  | .advCaptivePortalAPI => ifaceInitDefaults.advCaptivePortalAPI.map .text
  | _ => none

/-- The settings of a block before its first statement. -/
def Definition.default : Definition → Settings
  | .prefixInfo _ _ => fun
      | .advValidLifetime => some (lifetime prefixInitDefaults.advValidLifetime)
      | .advPreferredLifetime => some (lifetime prefixInitDefaults.advPreferredLifetime)
      | .advOnLink => some (.flag prefixInitDefaults.advOnLinkFlag)
      | .advAutonomous => some (.flag prefixInitDefaults.advAutonomousFlag)
      | .advRouterAddr => some (.flag prefixInitDefaults.advRouterAddr)
      | .advDHCPv6PDPreferred => some (.flag prefixInitDefaults.advDHCPv6PDPreferredFlag)
      | _ => none
  | .route _ _ => fun
      | .advRoutePreference =>
          some (.preference (preferenceShown
            (routeInitDefaults ifaceInitDefaults).advRoutePreference))
      | .advRouteLifetime => some (lifetime (routeInitDefaults ifaceInitDefaults).advRouteLifetime)
      | _ => none
  | .rdnss _ => fun
      | .advRDNSSLifetime => some (lifetime (rdnssInitDefaults ifaceInitDefaults).advRDNSSLifetime)
      | _ => none
  | .dnssl _ => fun
      | .advDNSSLLifetime => some (lifetime (dnsslInitDefaults ifaceInitDefaults).advDNSSLLifetime)
      | _ => none
  | .nat64Prefix _ _ => fun
      | .advValidLifetime =>
          some (.number (nat64prefixInitDefaults ifaceInitDefaults).advValidLifetime.toNat)
      | _ => none
  | .interface => ifaceDefault

structure Configuration where
  interface : Settings
  block : Option (Definition × Settings)
  blocks : List (Definition × Settings)

def Configuration.read (config : Configuration) : Statement → Configuration
  | .opens .interface => { config with interface := ifaceDefault }
  | .opens definition => { config with block := some (definition, definition.default) }
  | .setting keyword value =>
      match config.block with
      | none => { config with interface := assign config.interface (keyword, value) }
      | some (definition, settings) =>
          { config with block := some (definition, assign settings (keyword, value)) }
  | .closes =>
      match config.block with
      | none => config
      | some block => { config with block := none, blocks := config.blocks ++ [block] }
  | .invalidRouteLength _ | .invalidRdnssLength _ | .log _ => config

/-- What `check_iface` fills in: the lifetime of the router from the interval, and
that of the home agent from the lifetime of the router. -/
def fillSettings (settings : Settings) : Settings :=
  let settings := Function.update settings .advDefaultLifetime
    ((settings .advDefaultLifetime).or
      (unlessUnset (fillDefaults ifaceInitDefaults).raHeaderInfo.advDefaultLifetime))
  Function.update settings .homeAgentLifetime
    ((settings .homeAgentLifetime).or (settings .advDefaultLifetime))

/-- The settings of the interface and its blocks that some statements make. -/
def readStatements (statements : List Statement) : Settings × List (Definition × Settings) :=
  let config := statements.foldl Configuration.read ⟨ifaceDefault, none, []⟩
  (fillSettings config.interface, config.blocks)

/-! ## Reading lines and blocks -/

def Statement.write : Statement → Option (Keyword × Value)
  | .setting keyword value => some (keyword, value)
  | .opens _ | .closes | .invalidRouteLength _ | .invalidRdnssLength _ | .log _ => none

def writesOf (statements : List Statement) : List (Keyword × Value) :=
  statements.filterMap Statement.write

theorem writesOf_append (first second : List Statement) :
    writesOf (first ++ second) = writesOf first ++ writesOf second :=
  List.filterMap_append

theorem read_lines {lines : List Statement} (isLine : ∀ statement ∈ lines, statement.IsLine)
    (interface : Settings) (blocks : List (Definition × Settings)) :
    lines.foldl Configuration.read ⟨interface, none, blocks⟩ =
      ⟨assigned interface (writesOf lines), none, blocks⟩ := by
  induction lines generalizing interface with
  | nil => rfl
  | cons statement rest ih =>
      simp only [List.mem_cons, forall_eq_or_imp] at isLine
      cases statement with
      | setting keyword value => exact ih isLine.2 (assign interface (keyword, value))
      | log message => exact ih isLine.2 interface
      | _ => exact absurd isLine.1 id

theorem read_settings {settings : List Statement}
    (isSetting : ∀ statement ∈ settings, statement.IsSetting) (interface own : Settings)
    (definition : Definition) (blocks : List (Definition × Settings)) :
    settings.foldl Configuration.read ⟨interface, some (definition, own), blocks⟩ =
      ⟨interface, some (definition, assigned own (writesOf settings)), blocks⟩ := by
  induction settings generalizing own with
  | nil => rfl
  | cons statement rest ih =>
      simp only [List.mem_cons, forall_eq_or_imp] at isSetting
      cases statement with
      | setting keyword value => exact ih isSetting.2 (assign own (keyword, value))
      | _ => exact absurd isSetting.1 id

/-- The blocks that some statements make on their own. -/
def blocksOf (statements : List Statement) : List (Definition × Settings) :=
  (statements.foldl Configuration.read ⟨ifaceDefault, none, []⟩).blocks

/-- Reading a whole block. -/
theorem read_block {definition : Definition} {settings : List Statement}
    (nested : definition ≠ .interface)
    (isSetting : ∀ statement ∈ settings, statement.IsSetting) (interface : Settings)
    (blocks : List (Definition × Settings)) :
    (.opens definition :: (settings ++ [.closes])).foldl Configuration.read
        ⟨interface, none, blocks⟩ =
      ⟨interface, none,
        blocks ++ [(definition, assigned definition.default (writesOf settings))]⟩ := by
  have opened : Configuration.read ⟨interface, none, blocks⟩ (.opens definition) =
      ⟨interface, some (definition, definition.default), blocks⟩ := by
    cases definition with
    | interface => exact absurd rfl nested
    | _ => rfl
  rw [List.foldl_cons, opened, List.foldl_append, read_settings isSetting]
  rfl

theorem read_isBlock {kind : Definition → Prop} {statements : List Statement}
    (nested : ∀ definition, kind definition → definition ≠ .interface)
    (block : IsBlock kind statements) (interface : Settings)
    (blocks : List (Definition × Settings)) :
    statements.foldl Configuration.read ⟨interface, none, blocks⟩ =
      ⟨interface, none, blocks ++ blocksOf statements⟩ := by
  induction block with
  | nil => simp [blocksOf]
  | log block ih => exact ih
  | invalidRouteLength => simp [blocksOf, Configuration.read]
  | invalidRdnssLength => simp [blocksOf, Configuration.read]
  | block valid isSetting =>
      unfold blocksOf
      rw [read_block (nested _ valid) isSetting, read_block (nested _ valid) isSetting]
      rfl

theorem blocksOf_block {definition : Definition} {settings : List Statement}
    (nested : definition ≠ .interface)
    (isSetting : ∀ statement ∈ settings, statement.IsSetting) :
    blocksOf (.opens definition :: (settings ++ [.closes])) =
      [(definition, assigned definition.default (writesOf settings))] := by
  unfold blocksOf
  rw [read_block nested isSetting]
  rfl

section

variable (order : ByteOrder) (mem : Memory) (len : Nat) (edefs : Bool)

/-- The options for which the second walk is made. -/
def blockVisits : List Visit :=
  if (printFfWalk mem len).2 = .overlong then [] else (printFfWalk mem len).1

theorem read_printedBlocks (interface : Settings) :
    (printedBlocks mem len edefs).foldl Configuration.read ⟨interface, none, []⟩ =
      ⟨interface, none, (blockVisits mem len).flatMap fun visit =>
        blocksOf (printBlock mem edefs visit)⟩ := by
  have visited : ∀ (visits : List Visit) (blocks : List (Definition × Settings)),
      (visits.flatMap (printBlock mem edefs)).foldl Configuration.read ⟨interface, none, blocks⟩ =
        ⟨interface, none, blocks ++ visits.flatMap fun visit =>
          blocksOf (printBlock mem edefs visit)⟩ := by
    intro visits
    induction visits with
    | nil => simp
    | cons visit rest ih =>
        intro blocks
        rw [List.flatMap_cons, List.foldl_append,
          read_isBlock (fun definition opened => opened.1) (isBlock_printBlock mem edefs visit), ih]
        simp
  unfold printedBlocks blockVisits
  split
  · rfl
  · rw [List.foldl_append, visited]
    have logs := read_lines (isLine_logEnd (printFfWalk mem len).2) interface
      ([] ++ (printFfWalk mem len).1.flatMap fun visit => blocksOf (printBlock mem edefs visit))
    rw [logs]
    have silent : writesOf (logEnd (printFfWalk mem len).2) = [] := by
      cases (printFfWalk mem len).2 <;> rfl
    rw [silent]
    rfl

theorem readStatements_printFf :
    readStatements (printFf order mem len edefs) =
      (fillSettings (assigned ifaceDefault (writesOf (printedLines order mem len edefs))),
        (blockVisits mem len).flatMap fun visit => blocksOf (printBlock mem edefs visit)) := by
  have lines := read_lines (isLine_printedLines order mem len edefs) ifaceDefault []
  by_cases options : len = 16
  · subst options
    have unvisited : printFfWalk mem 16 = ([], .finished) := by
      unfold printFfWalk walk
      rfl
    have header : printFf order mem 16 edefs =
        .opens .interface :: printedLines order mem 16 edefs := by
      simp [printFf, printedLines, unvisited, logEnd]
    rw [readStatements, header, List.foldl_cons]
    simp only [Configuration.read, lines, blockVisits, unvisited]
    rfl
  · rw [readStatements, printFf_eq order mem len edefs options, List.cons_append, List.foldl_cons,
      List.foldl_append]
    simp only [Configuration.read, lines, List.foldl_append, read_printedBlocks]
    rfl

end

/-! ## What is left out -/

/-- The values with which the settings of the interface are left out. -/
def ifaceOmitted : Settings
  | .advManagedFlag | .advOtherConfigFlag | .advHomeAgentFlag | .advSNACRouterFlag
  | .advMobRtrSupportFlag => some (.flag false)
  | .advReachableTime | .advRetransTimer | .advLinkMTU | .homeAgentPreference => some (.number 0)
  | .advCurHopLimit => some (.number 64)
  | .advDefaultLifetime | .homeAgentLifetime => some (.number 1800)
  | .advDefaultPreference => some (.preference .medium)
  | .advSourceLLAddress => some (.flag true)
  | _ => none

/-- Those with which the settings of a prefix are. -/
def prefixOmitted : Settings
  | .advValidLifetime => some (lifetime 86400)
  | .advPreferredLifetime => some (lifetime 14400)
  | .advOnLink | .advAutonomous => some (.flag true)
  | .advRouterAddr | .advDHCPv6PDPreferred => some (.flag false)
  | _ => none

theorem kept_printNumber {omitted : Settings} {keyword : Keyword} {dflt : Nat}
    (left : omitted keyword = some (.number dflt)) (value : Nat) :
    writesOf (printNumber true dflt keyword value) =
      kept omitted (writesOf (printNumber false dflt keyword value)) := by
  by_cases same : dflt = value
  · simp [printNumber, writesOf, Statement.write, kept, left, same]
  · simp [printNumber, writesOf, Statement.write, kept, left, same]

/-- The masks have one bit each. -/
theorem mask_eq_iff {mask : UInt8} (bit : mask ∈ [ndRaFlagManaged, ndRaFlagOther,
    ndRaFlagHomeAgent, ndRaFlagSnacRouter, ndOptPiFlagDhcpv6PdPref]) (octet : UInt8) :
    mask = octet &&& mask ↔ octet &&& mask ≠ 0 := by
  have octets : ∀ value : Fin 256, ∀ mask ∈ [ndRaFlagManaged, ndRaFlagOther, ndRaFlagHomeAgent,
      ndRaFlagSnacRouter, ndOptPiFlagDhcpv6PdPref],
      (mask = UInt8.ofNat value &&& mask ↔ UInt8.ofNat value &&& mask ≠ 0) := by
    decide +kernel
  have found := octets ⟨octet.toNat, octet.toNat_lt⟩ mask bit
  simpa using found

theorem kept_printFlag {omitted : Settings} {keyword : Keyword} {dflt : Bool} {mask : UInt8}
    (left : omitted keyword = some (.flag dflt)) (bit : mask ∈ [ndRaFlagManaged, ndRaFlagOther,
      ndRaFlagHomeAgent, ndRaFlagSnacRouter, ndOptPiFlagDhcpv6PdPref]) (octet : UInt8) :
    writesOf (printFlag true dflt keyword octet mask) =
      kept omitted (writesOf (printFlag false dflt keyword octet mask)) := by
  unfold printFlag
  simp only [mask_eq_iff bit octet]
  by_cases unset : octet &&& mask = 0
  · cases dflt <;> simp [unset, writesOf, Statement.write, kept, left]
  · cases dflt <;> simp [unset, writesOf, Statement.write, kept, left]

theorem lifetime_injective {first second : UInt32} (equal : lifetime first = lifetime second) :
    first = second := by
  unfold lifetime at equal
  split at equal <;> split at equal
  · rename_i firstMax secondMax
    rw [firstMax, secondMax]
  · exact absurd equal (by simp)
  · exact absurd equal (by simp)
  · simpa [UInt32.toNat_inj] using equal

theorem kept_printLifetime {omitted : Settings} {keyword : Keyword} {dflt : UInt32}
    (left : omitted keyword = some (lifetime dflt)) (value : UInt32) :
    writesOf (printLifetime true dflt keyword value) =
      kept omitted (writesOf (printLifetime false dflt keyword value)) := by
  by_cases same : dflt = value
  · simp [printLifetime, writesOf, Statement.write, kept, left, same]
  · have different : ¬lifetime dflt = lifetime value := fun equal => same (lifetime_injective equal)
    simp [printLifetime, writesOf, Statement.write, kept, left, same, different]

/-! ## The settings of the interface -/

section

variable (order : ByteOrder) (mem : Memory)

theorem kept_printHeader :
    writesOf (printHeader mem true) = kept ifaceOmitted (writesOf (printHeader mem false)) := by
  have preference : writesOf (if !true || preferenceOf (mem 5) ≠ .medium then
        [.setting .advDefaultPreference (.preference (preferenceOf (mem 5)))] else []) =
      kept ifaceOmitted (writesOf (if !false || preferenceOf (mem 5) ≠ .medium then
        [.setting .advDefaultPreference (.preference (preferenceOf (mem 5)))] else [])) := by
    cases preferenceOf (mem 5) <;> rfl
  unfold printHeader
  simp only [writesOf_append, kept_append]
  rw [kept_printFlag (rfl : ifaceOmitted .advManagedFlag = _) (by decide),
    kept_printFlag (rfl : ifaceOmitted .advOtherConfigFlag = _) (by decide),
    kept_printNumber (rfl : ifaceOmitted .advReachableTime = _),
    kept_printNumber (rfl : ifaceOmitted .advRetransTimer = _),
    kept_printNumber (rfl : ifaceOmitted .advCurHopLimit = _),
    kept_printNumber (rfl : ifaceOmitted .advDefaultLifetime = _),
    kept_printFlag (rfl : ifaceOmitted .advHomeAgentFlag = _) (by decide),
    kept_printFlag (rfl : ifaceOmitted .advSNACRouterFlag = _) (by decide), preference]

theorem kept_printHomeAgentInfo (optStr : Nat) :
    writesOf (printHomeAgentInfo order mem true optStr) =
      kept ifaceOmitted (writesOf (printHomeAgentInfo order mem false optStr)) := by
  have flag : ∀ flags : UInt16,
      writesOf (if !true || 0 ≠ flags then
          [.setting .advMobRtrSupportFlag (.flag (flags ≠ 0))] else []) =
        kept ifaceOmitted (writesOf (if !false || 0 ≠ flags then
          [.setting .advMobRtrSupportFlag (.flag (flags ≠ 0))] else [])) := by
    intro flags
    by_cases zero : flags = 0
    · rw [zero]
      rfl
    · simp [zero, Ne.symm zero, writesOf, Statement.write, kept, ifaceOmitted]
  unfold printHomeAgentInfo
  simp only [writesOf_append, kept_append]
  rw [flag, kept_printNumber (rfl : ifaceOmitted .homeAgentPreference = _),
    kept_printNumber (rfl : ifaceOmitted .homeAgentLifetime = _)]
  rfl

theorem writesOf_logs (logs : List Log) : writesOf (logs.map .log) = [] := by
  induction logs with
  | nil => rfl
  | cons _ _ ih => exact ih

theorem kept_printOption (visit : Visit) :
    writesOf (printOption order mem true visit) =
      kept ifaceOmitted (writesOf (printOption order mem false visit)) := by
  rcases printOption_printing order mem visit with ⟨printed, printing, same⟩
  rw [same, same]
  cases printing with
  | mtu => exact kept_printNumber (rfl : ifaceOmitted .advLinkMTU = _) _
  | homeAgentInfo => exact kept_printHomeAgentInfo order mem visit.offset
  | other => simp only [writesOf_logs, kept, List.filter_nil]
  | sourceLinkaddr => rfl
  | rtrAdvInterval => rfl
  | captivePortal => rfl
  | timestamp => rfl

theorem kept_printedLines (len : Nat) :
    writesOf (printedLines order mem len true) =
      kept ifaceOmitted (writesOf (printedLines order mem len false)) := by
  have options : ∀ visits : List Visit, writesOf (visits.flatMap (printOption order mem true)) =
      kept ifaceOmitted (writesOf (visits.flatMap (printOption order mem false))) := by
    intro visits
    induction visits with
    | nil => rfl
    | cons visit rest ih =>
        simp only [List.flatMap_cons, writesOf_append, kept_append, ih, kept_printOption]
  have logs : writesOf (logEnd (printFfWalk mem len).2) =
      kept ifaceOmitted (writesOf (logEnd (printFfWalk mem len).2)) := by
    cases (printFfWalk mem len).2 <;> rfl
  unfold printedLines
  simp only [writesOf_append, kept_append, kept_printHeader, options]
  rw [← logs]

/-- The value that the header has for a setting. -/
def headerValue : Settings
  | .advManagedFlag => some (.flag (mem 5 &&& ndRaFlagManaged ≠ 0))
  | .advOtherConfigFlag => some (.flag (mem 5 &&& ndRaFlagOther ≠ 0))
  | .advReachableTime => some (.number (mem.u32 8).toNat)
  | .advRetransTimer => some (.number (mem.u32 12).toNat)
  | .advCurHopLimit => some (.number (mem 4).toNat)
  | .advDefaultLifetime => some (.number (mem.u16 6).toNat)
  | .advHomeAgentFlag => some (.flag (mem 5 &&& ndRaFlagHomeAgent ≠ 0))
  | .advSNACRouterFlag => some (.flag (mem 5 &&& ndRaFlagSnacRouter ≠ 0))
  | .advDefaultPreference => some (.preference (preferenceOf (mem 5)))
  | _ => none

/-- The option that has a setting of the interface. -/
def optionOf : Keyword → Option UInt8
  | .advLinkMTU => some ndOptMtu
  | .advSourceLLAddress => some ndOptSourceLinkaddr
  | .advIntervalOpt => some ndOptRtrAdvInterval
  | .advHomeAgentInfo | .advMobRtrSupportFlag | .homeAgentPreference | .homeAgentLifetime =>
      some ndOptHomeAgentInfo
  | .advCaptivePortalAPI => some ndOptCaptivePortal
  | .advTimestamp => some ndOptTimestamp
  | _ => none

def mobRtrSupportFlag (visit : Visit) : UInt16 :=
  order.load16 mem (visit.offset + 2) &&& ndOptHaiFlagSupportMr order

/-- The value that the option has for it. -/
def optionValue (visit : Visit) : Keyword → Value
  | .advLinkMTU => .number (mem.u32 (visit.offset + 4)).toNat
  | .advMobRtrSupportFlag => .flag (mobRtrSupportFlag order mem visit ≠ 0)
  | .homeAgentPreference => .number (mem.u16 (visit.offset + 4)).toNat
  | .homeAgentLifetime => .number (mem.u16 (visit.offset + 6)).toNat
  | .advCaptivePortalAPI =>
      .text (sanitized (cString (mem.slice (visit.offset + 2) (visit.optlen - 2))))
  | .advTimestamp =>
      .timestamp ((mem.u16 (visit.offset + 8)).toNat * 2 ^ 32 +
        (mem.u32 (visit.offset + 10)).toNat) (mem.u16 (visit.offset + 14)).toNat
  | _ => .flag true

theorem writesOf_printHeader : writesOf (printHeader mem false) =
    [(.advManagedFlag, .flag (mem 5 &&& ndRaFlagManaged ≠ 0)),
      (.advOtherConfigFlag, .flag (mem 5 &&& ndRaFlagOther ≠ 0)),
      (.advReachableTime, .number (mem.u32 8).toNat),
      (.advRetransTimer, .number (mem.u32 12).toNat),
      (.advCurHopLimit, .number (mem 4).toNat),
      (.advDefaultLifetime, .number (mem.u16 6).toNat),
      (.advHomeAgentFlag, .flag (mem 5 &&& ndRaFlagHomeAgent ≠ 0)),
      (.advSNACRouterFlag, .flag (mem 5 &&& ndRaFlagSnacRouter ≠ 0)),
      (.advDefaultPreference, .preference (preferenceOf (mem 5)))] :=
  rfl

theorem valuesAt_printHeader (keyword : Keyword) :
    valuesAt keyword (writesOf (printHeader mem false)) = (headerValue mem keyword).toList := by
  rw [writesOf_printHeader]
  cases keyword <;> rfl

theorem mem_of_optionOf {keyword : Keyword} {type : UInt8} (option : optionOf keyword = some type) :
    type ∈ [ndOptMtu, ndOptSourceLinkaddr, ndOptRtrAdvInterval, ndOptHomeAgentInfo,
      ndOptCaptivePortal, ndOptTimestamp] := by
  cases keyword <;> cases option <;> decide

theorem valuesAt_printOption (visit : Visit) (keyword : Keyword) :
    valuesAt keyword (writesOf (printOption order mem false visit)) =
      if optionOf keyword = some (mem visit.offset) then [optionValue order mem visit keyword]
      else [] := by
  rcases printOption_printing order mem visit with ⟨printed, printing, same⟩
  rw [same]
  cases printing with
  | other type =>
      rw [writesOf_logs, if_neg fun option => type (mem_of_optionOf option)]
      rfl
  | mtu type => rw [type]; cases keyword <;> rfl
  | sourceLinkaddr type => rw [type]; cases keyword <;> rfl
  | rtrAdvInterval type => rw [type]; cases keyword <;> rfl
  | homeAgentInfo type => rw [type]; cases keyword <;> rfl
  | captivePortal type => rw [type]; cases keyword <;> rfl
  | timestamp type => rw [type]; cases keyword <;> rfl

theorem valuesAt_printedLines (len : Nat) (keyword : Keyword) :
    valuesAt keyword (writesOf (printedLines order mem len false)) =
      (headerValue mem keyword).toList ++
        ((printFfWalk mem len).1.filter fun visit =>
          optionOf keyword = some (mem visit.offset)).map fun visit =>
            optionValue order mem visit keyword := by
  have options : ∀ visits : List Visit,
      valuesAt keyword (writesOf (visits.flatMap (printOption order mem false))) =
        (visits.filter fun visit => optionOf keyword = some (mem visit.offset)).map fun visit =>
          optionValue order mem visit keyword := by
    intro visits
    induction visits with
    | nil => rfl
    | cons visit rest ih =>
        rw [List.flatMap_cons, writesOf_append, valuesAt_append, valuesAt_printOption, ih,
          List.filter_cons]
        by_cases set : optionOf keyword = some (mem visit.offset) <;> simp [set]
  have logs : valuesAt keyword (writesOf (logEnd (printFfWalk mem len).2)) = [] := by
    cases (printFfWalk mem len).2 <;> rfl
  simp only [printedLines, writesOf_append, valuesAt_append, valuesAt_printHeader, options, logs,
    List.append_nil]

/-- The defaults after `check_iface`, in an interface with a given lifetime of the
router. -/
def filledDefault (routerLifetime : Nat) : Settings :=
  Function.update (Function.update ifaceDefault .advDefaultLifetime (some (.number 1800)))
    .homeAgentLifetime (some (.number routerLifetime))

theorem advDefaultLifetime_fillDefaults :
    unlessUnset (fillDefaults ifaceInitDefaults).raHeaderInfo.advDefaultLifetime =
      some (.number 1800) := by
  with_unfolding_all decide

theorem fillSettings_assigned {writes : List (Keyword × Value)} {routerLifetime : Nat}
    (router : fillSettings (assigned ifaceDefault writes) .advDefaultLifetime =
      some (.number routerLifetime)) :
    fillSettings (assigned ifaceDefault writes) =
      assigned (filledDefault routerLifetime) writes := by
  funext keyword
  have unset : ifaceDefault .advDefaultLifetime = none ∧
      ifaceDefault .homeAgentLifetime = none := ⟨rfl, rfl⟩
  simp only [fillSettings, advDefaultLifetime_fillDefaults] at router ⊢
  by_cases homeAgent : keyword = .homeAgentLifetime
  · subst homeAgent
    simp only [Function.update_self, ne_eq, reduceCtorEq, not_false_eq_true,
      Function.update_of_ne] at router ⊢
    rw [router, assigned_apply, assigned_apply, unset.2]
    simp [filledDefault]
  · rw [Function.update_of_ne homeAgent]
    by_cases routerKeyword : keyword = .advDefaultLifetime
    · subst routerKeyword
      simp only [Function.update_self]
      rw [assigned_apply, assigned_apply, unset.1]
      simp [filledDefault]
    · rw [Function.update_of_ne routerKeyword, assigned_apply, assigned_apply]
      simp [filledDefault, homeAgent, routerKeyword]

/-- If the last of some values is the default, all of them are. -/
def LastDecides {Value : Type} (dflt : Value) (values : List Value) : Prop :=
  values.getLast? = some dflt → ∀ value ∈ values, value = dflt

/-- The options of a type that the walk visits. -/
def optionsOf (len : Nat) (type : UInt8) : List Visit :=
  (printFfWalk mem len).1.filter fun visit => mem visit.offset = type

/-- When the settings of the interface do not depend on leaving out defaults: if an
option repeats, its last value is not a default after another value, and a home
agent with a lifetime of 1800 seconds is announced by a router with the same. -/
structure LinesAgree (len : Nat) : Prop where
  linkMTU : LastDecides 0
    ((optionsOf mem len ndOptMtu).map fun visit => mem.u32 (visit.offset + 4))
  mobRtrSupport : LastDecides false ((optionsOf mem len ndOptHomeAgentInfo).map fun visit =>
    decide (mobRtrSupportFlag order mem visit ≠ 0))
  homeAgentPreference : LastDecides 0
    ((optionsOf mem len ndOptHomeAgentInfo).map fun visit => mem.u16 (visit.offset + 4))
  homeAgentLifetime : ∀ last, (optionsOf mem len ndOptHomeAgentInfo).getLast? = some last →
    mem.u16 (last.offset + 6) = 1800 →
    (∀ visit ∈ optionsOf mem len ndOptHomeAgentInfo, mem.u16 (visit.offset + 6) = 1800) ∧
      mem.u16 6 = 1800

theorem lastDecides_map {First Second : Type} {wrap : First → Second}
    (injective : Function.Injective wrap) {dflt : First} {values : List First} :
    LastDecides (wrap dflt) (values.map wrap) ↔ LastDecides dflt values := by
  unfold LastDecides
  simp only [List.getLast?_map, List.mem_map, forall_exists_index, and_imp,
    forall_apply_eq_imp_iff₂, injective.eq_iff, Option.map_eq_some_iff, exists_eq_right]

theorem fillSettings_router (len : Nat) :
    fillSettings (assigned ifaceDefault (writesOf (printedLines order mem len false)))
        .advDefaultLifetime = some (.number (mem.u16 6).toNat) ∧
      fillSettings (assigned ifaceDefault
        (kept ifaceOmitted (writesOf (printedLines order mem len false)))) .advDefaultLifetime =
          some (.number (mem.u16 6).toNat) := by
  have values : valuesAt .advDefaultLifetime (writesOf (printedLines order mem len false)) =
      [.number (mem.u16 6).toNat] := by
    rw [valuesAt_printedLines]
    simp [headerValue, optionOf]
  have unset : ifaceDefault .advDefaultLifetime = none := rfl
  simp only [fillSettings, ne_eq, reduceCtorEq, not_false_eq_true, Function.update_of_ne,
    Function.update_self, advDefaultLifetime_fillDefaults]
  rw [assigned_apply, assigned_apply, valuesAt_kept, values, unset]
  refine ⟨by simp, ?_⟩
  by_cases dflt : (mem.u16 6).toNat = 1800
  · simp [dflt, ifaceOmitted]
  · simp [ifaceOmitted, Ne.symm dflt]

theorem valuesAt_option {keyword : Keyword} {type : UInt8} (len : Nat)
    (option : optionOf keyword = some type) (notHeader : headerValue mem keyword = none) :
    valuesAt keyword (writesOf (printedLines order mem len false)) =
      (optionsOf mem len type).map fun visit => optionValue order mem visit keyword := by
  rw [valuesAt_printedLines, notHeader, option]
  simp only [Option.toList_none, List.nil_append, optionsOf, Option.some.injEq, eq_comm]

theorem valuesAt_header {keyword : Keyword} {value : Value} (len : Nat)
    (option : optionOf keyword = none) (header : headerValue mem keyword = some value) :
    valuesAt keyword (writesOf (printedLines order mem len false)) = [value] := by
  rw [valuesAt_printedLines, header, option]
  simp

/-- Leaving out the default of a setting that an option has. -/
theorem agrees_iff_lastDecides {First : Type} {keyword : Keyword} {type : UInt8} {len : Nat}
    {wrap : First → Value} {field : Visit → First} {dflt : First} {default : Option Value}
    (injective : Function.Injective wrap) (option : optionOf keyword = some type)
    (notHeader : headerValue mem keyword = none)
    (value : ∀ visit, optionValue order mem visit keyword = wrap (field visit))
    (omitted : ifaceOmitted keyword = some (wrap dflt)) (known : default = some (wrap dflt)) :
    (∀ value, ifaceOmitted keyword = some value →
        (valuesAt keyword (writesOf (printedLines order mem len false))).getLast? = some value →
        (∀ other ∈ valuesAt keyword (writesOf (printedLines order mem len false)),
          other = value) ∧ default = some value) ↔
      LastDecides dflt ((optionsOf mem len type).map field) := by
  have values : valuesAt keyword (writesOf (printedLines order mem len false)) =
      ((optionsOf mem len type).map field).map wrap := by
    rw [valuesAt_option order mem len option notHeader, List.map_map]
    exact List.map_congr_left fun visit _ => value visit
  rw [← lastDecides_map injective, values, omitted, known]
  unfold LastDecides
  constructor
  · intro agrees last
    exact (agrees (wrap dflt) rfl last).1
  · intro decides value same last
    simp only [Option.some.injEq] at same
    subst same
    exact ⟨decides last, rfl⟩

/-- The default of the home agent's lifetime is that of the router, but 1800 is
left out. -/
theorem agrees_homeAgentLifetime_iff (len : Nat) :
    (∀ value, ifaceOmitted .homeAgentLifetime = some value →
        (valuesAt .homeAgentLifetime
          (writesOf (printedLines order mem len false))).getLast? = some value →
        (∀ other ∈ valuesAt .homeAgentLifetime (writesOf (printedLines order mem len false)),
          other = value) ∧ filledDefault (mem.u16 6).toNat .homeAgentLifetime = some value) ↔
      ∀ last, (optionsOf mem len ndOptHomeAgentInfo).getLast? = some last →
        mem.u16 (last.offset + 6) = 1800 →
        (∀ visit ∈ optionsOf mem len ndOptHomeAgentInfo, mem.u16 (visit.offset + 6) = 1800) ∧
          mem.u16 6 = 1800 := by
  have values := valuesAt_option order mem len
    (rfl : optionOf .homeAgentLifetime = some ndOptHomeAgentInfo) rfl
  have omitted : ifaceOmitted .homeAgentLifetime = some (.number 1800) := rfl
  have default : filledDefault (mem.u16 6).toNat .homeAgentLifetime =
      some (.number (mem.u16 6).toNat) := Function.update_self ..
  have number : ∀ value : UInt16, value.toNat = 1800 ↔ value = 1800 := by
    intro value
    exact UInt16.toNat_inj (b := 1800)
  rw [values, omitted, default]
  simp only [Option.some.injEq, forall_eq', List.getLast?_map, Option.map_eq_some_iff,
    List.mem_map, forall_exists_index, and_imp, forall_apply_eq_imp_iff₂, optionValue,
    Value.number.injEq, number]

theorem lines_eq_iff (len : Nat) :
    fillSettings (assigned ifaceDefault (writesOf (printedLines order mem len true))) =
        fillSettings (assigned ifaceDefault (writesOf (printedLines order mem len false))) ↔
      LinesAgree order mem len := by
  have router := fillSettings_router order mem len
  rw [kept_printedLines, fillSettings_assigned router.1, fillSettings_assigned router.2,
    funext_iff]
  simp only [assigned_kept_eq_iff]
  have numbers32 : Function.Injective fun value : UInt32 => Value.number value.toNat := by
    intro first second equal
    simpa [UInt32.toNat_inj] using equal
  have numbers16 : Function.Injective fun value : UInt16 => Value.number value.toNat := by
    intro first second equal
    simpa [UInt16.toNat_inj] using equal
  have flags : Function.Injective Value.flag := by
    intro first second equal
    simpa using equal
  have linkMTU := @agrees_iff_lastDecides order mem _ .advLinkMTU _ len _ _ 0
    (filledDefault (mem.u16 6).toNat .advLinkMTU) numbers32 rfl rfl (fun visit => rfl) rfl rfl
  have mobRtrSupport := @agrees_iff_lastDecides order mem _ .advMobRtrSupportFlag _ len _ _ false
    (filledDefault (mem.u16 6).toNat .advMobRtrSupportFlag) flags rfl rfl (fun visit => rfl) rfl
    rfl
  have preference := @agrees_iff_lastDecides order mem _ .homeAgentPreference _ len _ _ 0
    (filledDefault (mem.u16 6).toNat .homeAgentPreference) numbers16 rfl rfl (fun visit => rfl)
    rfl rfl
  have lifetime := agrees_homeAgentLifetime_iff order mem len
  constructor
  · intro all
    exact ⟨linkMTU.mp (all .advLinkMTU), mobRtrSupport.mp (all .advMobRtrSupportFlag),
      preference.mp (all .homeAgentPreference), lifetime.mp (all .homeAgentLifetime)⟩
  · intro agree keyword value left last
    have header : ∀ shown, optionOf keyword = none → headerValue mem keyword = some shown →
        filledDefault (mem.u16 6).toNat keyword = ifaceOmitted keyword →
        (∀ other ∈ valuesAt keyword (writesOf (printedLines order mem len false)),
          other = value) ∧ filledDefault (mem.u16 6).toNat keyword = some value := by
      intro shown notOption found same
      rw [valuesAt_header order mem len notOption found] at last ⊢
      refine ⟨?_, same.trans left⟩
      simpa using last
    cases keyword with
    | advLinkMTU => exact linkMTU.mpr agree.linkMTU value left last
    | advMobRtrSupportFlag => exact mobRtrSupport.mpr agree.mobRtrSupport value left last
    | homeAgentPreference => exact preference.mpr agree.homeAgentPreference value left last
    | homeAgentLifetime => exact lifetime.mpr agree.homeAgentLifetime value left last
    | advSourceLLAddress =>
        have values := valuesAt_option order mem len
          (rfl : optionOf .advSourceLLAddress = some ndOptSourceLinkaddr) rfl
        have shown : value = .flag true := by simpa [ifaceOmitted] using left.symm
        rw [values, shown]
        refine ⟨?_, rfl⟩
        simp [optionValue]
    | advManagedFlag | advOtherConfigFlag | advReachableTime | advRetransTimer | advCurHopLimit
    | advDefaultLifetime | advHomeAgentFlag | advSNACRouterFlag | advDefaultPreference =>
        exact header _ rfl rfl rfl
    | _ => simp [ifaceOmitted] at left

end

/-! ## The settings of blocks -/

section

variable (mem : Memory)

def printPrefixSettings (edefs : Bool) (optStr : Nat) : List Statement :=
  printLifetime edefs 86400 .advValidLifetime (mem.u32 (optStr + 4)) ++
    printLifetime edefs 14400 .advPreferredLifetime (mem.u32 (optStr + 8)) ++
    printFlag edefs true .advOnLink (mem (optStr + 3)) ndOptPiFlagOnlink ++
    printFlag edefs true .advAutonomous (mem (optStr + 3)) ndOptPiFlagAuto ++
    printFlag edefs false .advRouterAddr (mem (optStr + 3)) ndOptPiFlagRaddr ++
    printFlag edefs false .advDHCPv6PDPreferred (mem (optStr + 3)) ndOptPiFlagDhcpv6PdPref

theorem blocksOf_printPrefix (edefs : Bool) (optStr : Nat) :
    blocksOf (printPrefix mem edefs optStr) =
      [(.prefixInfo (addrAt mem (optStr + 16) 16) (mem (optStr + 2)).toNat,
        assigned (Definition.prefixInfo (addrAt mem (optStr + 16) 16)
          (mem (optStr + 2)).toNat).default (writesOf (printPrefixSettings mem edefs optStr)))] := by
  have settings : ∀ statement ∈ printPrefixSettings mem edefs optStr, statement.IsSetting := by
    simp only [printPrefixSettings, List.forall_mem_append]
    exact ⟨⟨⟨⟨⟨isSetting_printLifetime, isSetting_printLifetime⟩, isSetting_printFlag⟩,
      isSetting_printFlag⟩, isSetting_printFlag⟩, isSetting_printFlag⟩
  exact blocksOf_block (by simp) settings

theorem kept_printPrefixSettings (optStr : Nat) :
    writesOf (printPrefixSettings mem true optStr) =
      kept prefixOmitted (writesOf (printPrefixSettings mem false optStr)) := by
  unfold printPrefixSettings
  simp only [writesOf_append, kept_append]
  rw [kept_printLifetime (rfl : prefixOmitted .advValidLifetime = _),
    kept_printLifetime (rfl : prefixOmitted .advPreferredLifetime = _),
    kept_printFlag (rfl : prefixOmitted .advOnLink = _) (by decide),
    kept_printFlag (rfl : prefixOmitted .advAutonomous = _) (by decide),
    kept_printFlag (rfl : prefixOmitted .advRouterAddr = _) (by decide),
    kept_printFlag (rfl : prefixOmitted .advDHCPv6PDPreferred = _) (by decide)]

theorem writesOf_printPrefixSettings (optStr : Nat) :
    writesOf (printPrefixSettings mem false optStr) =
      [(.advValidLifetime, lifetime (mem.u32 (optStr + 4))),
        (.advPreferredLifetime, lifetime (mem.u32 (optStr + 8))),
        (.advOnLink, .flag (mem (optStr + 3) &&& ndOptPiFlagOnlink ≠ 0)),
        (.advAutonomous, .flag (mem (optStr + 3) &&& ndOptPiFlagAuto ≠ 0)),
        (.advRouterAddr, .flag (mem (optStr + 3) &&& ndOptPiFlagRaddr ≠ 0)),
        (.advDHCPv6PDPreferred, .flag (mem (optStr + 3) &&& ndOptPiFlagDhcpv6PdPref ≠ 0))] :=
  rfl

theorem blocksOf_printPrefix_eq (optStr : Nat) :
    blocksOf (printPrefix mem true optStr) = blocksOf (printPrefix mem false optStr) := by
  have single : ∀ keyword, ∃ value : Option Value,
      valuesAt keyword (writesOf (printPrefixSettings mem false optStr)) = value.toList := by
    intro keyword
    rw [writesOf_printPrefixSettings]
    cases keyword with
    | advValidLifetime | advPreferredLifetime | advOnLink | advAutonomous | advRouterAddr
    | advDHCPv6PDPreferred => exact ⟨some _, rfl⟩
    | _ => exact ⟨none, rfl⟩
  rw [blocksOf_printPrefix, blocksOf_printPrefix, kept_printPrefixSettings]
  congr 2
  funext keyword
  apply (assigned_kept_eq_iff ..).mpr
  intro value left last
  constructor
  · obtain ⟨shown, values⟩ := single keyword
    rw [values] at last ⊢
    cases shown with
    | none => simp
    | some other => simpa using last
  · rw [← left]
    cases keyword <;> rfl

theorem blocksOf_route (edefs : Bool) (optStr : Nat) (addr : In6Addr) (len : Nat) :
    blocksOf (.opens (.route addr len) :: printRouteSettings mem edefs optStr) =
      [(.route addr len, assigned (Definition.route addr len).default
        ((if !edefs || preferenceOf (mem 5) ≠ .medium then
            [(.advRoutePreference, .preference (preferenceOf (mem (optStr + 3))))] else []) ++
          [(.advRouteLifetime, lifetime (mem.u32 (optStr + 4)))]))] := by
  unfold printRouteSettings
  split <;> rfl

theorem blocksOf_route_eq_iff (optStr : Nat) (addr : In6Addr) (len : Nat) :
    blocksOf (.opens (.route addr len) :: printRouteSettings mem true optStr) =
        blocksOf (.opens (.route addr len) :: printRouteSettings mem false optStr) ↔
      (preferenceOf (mem 5) = .medium → preferenceOf (mem (optStr + 3)) = .medium) := by
  rw [blocksOf_route, blocksOf_route]
  by_cases medium : preferenceOf (mem 5) = .medium
  · simp only [medium, Bool.not_true, Bool.not_false, ne_eq, not_true_eq_false, decide_false,
      Bool.or_false, Bool.or_self, Bool.false_eq_true, if_false, if_true, List.nil_append,
      true_implies, List.cons.injEq, Prod.mk.injEq, true_and, and_true]
    constructor
    · intro same
      have preferences : some (Value.preference .medium) =
          some (.preference (preferenceOf (mem (optStr + 3)))) :=
        congrFun same .advRoutePreference
      simpa using preferences.symm
    · intro same
      rw [same]
      funext keyword
      cases keyword <;> rfl
  · simp [medium]

/-- When the settings of the block for an option do not depend on leaving out
defaults: a route has the default preference if the router has it. -/
theorem blocksOf_printBlock_eq_iff (visit : Visit) :
    blocksOf (printBlock mem true visit) = blocksOf (printBlock mem false visit) ↔
      (mem visit.offset = ndOptRouteInformation → misSized mem visit = false →
        preferenceOf (mem 5) = .medium → preferenceOf (mem (visit.offset + 3)) = .medium) := by
  by_cases route : mem visit.offset = ndOptRouteInformation
  · have printed : ∀ edefs, printBlock mem edefs visit = printRoute mem edefs visit := by
      intro edefs
      simp [printBlock, route, ndOptRouteInformation, ndOptPrefixInformation]
    simp only [printed, route, true_implies]
    unfold printRoute misSized
    simp only [route, if_true]
    split
    · rename_i short
      simp only [short, ne_eq, not_true_eq_false, decide_false, Bool.false_and, true_implies]
      exact blocksOf_route_eq_iff ..
    · rename_i long
      split
      · rename_i invalid
        simp only [invalid, long, ne_eq, not_false_eq_true, decide_true, Bool.and_self,
          Bool.true_eq_false, false_implies]
      · rename_i valid
        simp only [Bool.not_eq_true] at valid
        simp only [valid, Bool.and_false, true_implies]
        exact blocksOf_route_eq_iff ..
  · simp only [route, false_implies, iff_true]
    unfold printBlock
    simp only [route, if_false]
    split
    · exact blocksOf_printPrefix_eq mem visit.offset
    · rfl

theorem length_blocksOf_printBlock (visit : Visit) :
    (blocksOf (printBlock mem true visit)).length =
      (blocksOf (printBlock mem false visit)).length := by
  have routes : ∀ (edefs : Bool) (addr : In6Addr) (len : Nat),
      (blocksOf (.opens (.route addr len) ::
        printRouteSettings mem edefs visit.offset)).length = 1 := by
    intro edefs addr len
    rw [blocksOf_route]
    rfl
  unfold printBlock
  simp only
  split
  · rw [blocksOf_printPrefix_eq]
  split
  · unfold printRoute
    simp only
    split
    · rw [routes, routes]
    split
    · rfl
    · rw [routes, routes]
  · rfl

theorem flatMap_eq_iff {First Second : Type} {first second : First → List Second}
    {list : List First} (length : ∀ entry, (first entry).length = (second entry).length) :
    list.flatMap first = list.flatMap second ↔ ∀ entry ∈ list, first entry = second entry := by
  induction list with
  | nil => simp
  | cons entry rest ih =>
      simp only [List.flatMap_cons, List.mem_cons, forall_eq_or_imp, ← ih]
      constructor
      · intro equal
        exact List.append_inj equal (length entry)
      · rintro ⟨same, others⟩
        rw [same, others]

end

/-- The settings read from the output of `print_ff` do not depend on leaving out
defaults if and only if those of the interface do not and, unless an option that
is too long ends the output, each route has the default preference or the router
has another one. -/
theorem readStatements_edefs_iff (order : ByteOrder) (mem : Memory) (len : Nat) :
    readStatements (printFf order mem len true) = readStatements (printFf order mem len false) ↔
      LinesAgree order mem len ∧
        ((printFfWalk mem len).2 ≠ .overlong → preferenceOf (mem 5) = .medium →
          ∀ visit ∈ (printFfWalk mem len).1, mem visit.offset = ndOptRouteInformation →
            misSized mem visit = false → preferenceOf (mem (visit.offset + 3)) = .medium) := by
  rw [readStatements_printFf, readStatements_printFf, Prod.mk.injEq, lines_eq_iff,
    flatMap_eq_iff (length_blocksOf_printBlock mem)]
  simp only [blocksOf_printBlock_eq_iff]
  apply and_congr_right
  intro _
  unfold blockVisits
  split
  · rename_i overlong
    simp [overlong]
  · rename_i regular
    simp only [regular, ne_eq, not_false_eq_true, true_implies]
    constructor
    · intro all medium visit visitMem route valid
      exact all visit visitMem route valid medium
    · intro all visit visitMem route valid medium
      exact all medium visit visitMem route valid

/-- A route with a high preference, from a router with a medium one. -/
def preferredRouteRa : Bytes :=
  [134, 0, 0, 0, 64, 0, 7, 8, 0, 0, 0, 0, 0, 0, 0, 0, 24, 1, 0, 8, 0, 0, 7, 8]

theorem readStatements_preferredRouteRa :
    readStatements (printFf .littleEndian (fun index => preferredRouteRa.getD index 0)
        preferredRouteRa.length true) ≠
      readStatements (printFf .littleEndian (fun index => preferredRouteRa.getD index 0)
        preferredRouteRa.length false) := by
  intro same
  have preferences := congrArg (fun config => config.2.map fun block =>
    block.2 .advRoutePreference) same
  revert preferences
  with_unfolding_all decide

end Radvd.Dump
