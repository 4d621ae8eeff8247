import Mathlib.Data.List.TakeWhile
import Radvd.Dump.RoundTrip
import Radvd.Grammar.Written
import Radvd.IfaceRuns

/-!
# Configured values on the wire

The fields of an RA that the settings of the configuration are copied to
(`CarriesWritten`). The value of a setting passes the scanner, a field of the
interface, the checks and defaults of `check_iface` and the encoder; it arrives
unchanged if and only if it fits (`carriesWritten_iff`).
-/

namespace Radvd

open Wire Tlv Runs Grammar Dump

/-! ## Fields -/

/-- The value of the two preference bits of an octet; one of the codes is
reserved. -/
def preferenceValue (octet : UInt8) : Option Int :=
  match preferenceOf octet with
  | .low => some (-1)
  | .medium => some 0
  | .high => some 1
  | .reserved => none

/-- The settings in effect are the values of their fields. -/
structure CarriesWritten (params : List Ifaceparam) (header : Bytes) (options : List Bytes) :
    Prop where
  hopLimit : ∀ text, InEffect params (.advCurHopLimit text) →
    (Memory.ofBytes header 4).toNat = text.written
  preference : ∀ text, InEffect params (.advDefaultPreference text) →
    preferenceValue (Memory.ofBytes header 5) = some text.written
  lifetime : ∀ text, InEffect params (.advDefaultLifetime text) →
    ((Memory.ofBytes header).u16 6).toNat = text.written
  reachableTime : ∀ text, InEffect params (.advReachableTime text) →
    ((Memory.ofBytes header).u32 8).toNat = text.written
  retransTimer : ∀ text, InEffect params (.advRetransTimer text) →
    ((Memory.ofBytes header).u32 12).toNat = text.written
  homeAgentPreference : ∀ text, InEffect params (.homeAgentPreference text) →
    ∀ option ∈ ofType ndOptHomeAgentInfo options,
      ((Memory.ofBytes option).u16 4).toNat = text.written
  homeAgentLifetime : ∀ text, InEffect params (.homeAgentLifetime text) →
    ∀ option ∈ ofType ndOptHomeAgentInfo options,
      ((Memory.ofBytes option).u16 6).toNat = text.written
  captivePortal : ∀ text, InEffect params (.advCaptivePortalAPI text) →
    ∀ option ∈ ofType ndOptCaptivePortal options, cString (option.drop 2) = text.content
  routes : List.Forall₂ (fun definition option =>
      ∀ text, LastOf RouteParm.ctorIdx definition.parms (.advRoutePreference text) →
        preferenceValue (Memory.ofBytes option 3) = some text.written)
    (routedefs params) (ofType ndOptRouteInformation options)
  contextLength : ∀ definition ∈ (lowpancodefs params).head?, ∀ text,
    LastOf LowpancoParm.ctorIdx definition.parms (.advContextLength text) →
      ∀ option ∈ ofType ndOpt6co options, (Memory.ofBytes option 2).toNat = text.written
  lifeTime : ∀ definition ∈ (lowpancodefs params).head?, ∀ text,
    LastOf LowpancoParm.ctorIdx definition.parms (.advLifeTime text) →
      ∀ option ∈ ofType ndOpt6co options, ((Memory.ofBytes option).u16 6).toNat = text.written
  versionLow : ∀ definition ∈ (abrodefs params).head?, ∀ text,
    LastOf AbroParm.ctorIdx definition.parms (.advVersionLow text) →
      ∀ option ∈ ofType ndOptAbro options, ((Memory.ofBytes option).u16 2).toNat = text.written
  versionHigh : ∀ definition ∈ (abrodefs params).head?, ∀ text,
    LastOf AbroParm.ctorIdx definition.parms (.advVersionHigh text) →
      ∀ option ∈ ofType ndOptAbro options, ((Memory.ofBytes option).u16 4).toNat = text.written
  validLifeTime : ∀ definition ∈ (abrodefs params).head?, ∀ text,
    LastOf AbroParm.ctorIdx definition.parms (.advValidLifetime text) →
      ∀ option ∈ ofType ndOptAbro options, ((Memory.ofBytes option).u16 6).toNat = text.written

theorem header_fields (info : RaHeaderInfo) (ceaseAdv : Bool) :
    let header := Memory.ofBytes (raHeaderBlock info ceaseAdv)
    header 4 = info.advCurHopLimit ∧ header 5 = raFlagsReserved info ∧
      header.u16 6 = (if ceaseAdv then 0 else UInt16.ofInt info.advDefaultLifetime) ∧
      header.u32 8 = info.advReachableTime ∧ header.u32 12 = info.advRetransTimer := by
  have stored := Memory.holds_ofBytes (raHeaderBlock info ceaseAdv)
  simp only [raHeaderBlock, Memory.holds_append, Memory.holds_cons, List.length_append,
    List.length_cons, List.length_nil, length_be16, length_be32, Memory.holds_nil, and_true,
    Nat.zero_add, Nat.reduceAdd] at stored
  rcases stored with ⟨⟨⟨⟨-, hopLimit, flags⟩, lifetime⟩, reachable⟩, retransmit⟩
  exact ⟨hopLimit, flags, Memory.u16_of_holds lifetime, Memory.u32_of_holds reachable,
    Memory.u32_of_holds retransmit⟩

theorem homeAgentInfo_fields (order : ByteOrder) (mipv6 : Mipv6) :
    (Memory.ofBytes (homeAgentInfoBlock order mipv6)).u16 4 = mipv6.homeAgentPreference ∧
      (Memory.ofBytes (homeAgentInfoBlock order mipv6)).u16 6 =
        UInt16.ofInt mipv6.homeAgentLifetime := by
  have flags : ∀ value : UInt16, (order.store16 value).length = 2 := by
    intro value
    cases order <;> rfl
  have stored := Memory.holds_ofBytes (homeAgentInfoBlock order mipv6)
  simp only [homeAgentInfoBlock, Memory.holds_append, List.length_append, List.length_cons,
    List.length_nil, length_be16, flags, Nat.zero_add, Nat.reduceAdd] at stored
  exact ⟨Memory.u16_of_holds stored.1.2, Memory.u16_of_holds stored.2⟩

theorem lowpanco_fields (entry : AdvLowpanCo) :
    Memory.ofBytes (lowpancoBlock entry) 2 = entry.contextLength ∧
      (Memory.ofBytes (lowpancoBlock entry)).u16 6 = entry.advLifeTime := by
  have stored := Memory.holds_ofBytes (lowpancoBlock entry)
  simp only [lowpancoBlock, Memory.holds_append, Memory.holds_cons, List.length_append,
    List.length_cons, List.length_nil, length_be16, Nat.zero_add, Nat.reduceAdd] at stored
  exact ⟨stored.1.1.1.2.2.1, Memory.u16_of_holds stored.1.2⟩

theorem abro_fields (entry : AdvAbro) :
    (Memory.ofBytes (abroBlock entry)).u16 2 = entry.versionLow ∧
      (Memory.ofBytes (abroBlock entry)).u16 4 = entry.versionHigh ∧
      (Memory.ofBytes (abroBlock entry)).u16 6 = entry.validLifeTime := by
  have stored := Memory.holds_ofBytes (abroBlock entry)
  simp only [abroBlock, Memory.holds_append, List.length_append, List.length_cons,
    List.length_nil, length_be16, Nat.zero_add, Nat.reduceAdd] at stored
  exact ⟨Memory.u16_of_holds stored.1.1.1.2, Memory.u16_of_holds stored.1.1.2,
    Memory.u16_of_holds stored.1.2⟩

theorem route_field {route : AdvRoute} (bound : route.prefixLen ≤ 128) (ceaseAdv : Bool) :
    Memory.ofBytes (routeBlock route ceaseAdv) 3 = preferenceBits route.advRoutePreference := by
  have bounds := routeLen_bounds bound
  rw [Memory.ofBytes, routeBlock, List.getD, List.getElem?_take_of_lt (by omega)]
  rfl

theorem cString_capportBlock {url : Bytes} (text : ∀ octet ∈ url, octet ≠ 0) :
    cString ((capportBlock url).drop 2) = url := by
  have padded : (capportBlock url).drop 2 =
      url ++ List.replicate (capportLen url * 8 - (url.length + 2)) 0 := rfl
  rw [padded, cString, List.takeWhile_append_of_pos (by simpa using text)]
  simp

/-! ## Values -/

section

variable {text : NumberText} {value : UInt32}

theorem toNat_toUInt8_eq_iff (scanned : text.num = some value) :
    value.toUInt8.toNat = text.written ↔ text.written ≤ 255 := by
  rw [NumberText.num_eq_some_iff.mp scanned, UInt32.toNat_toUInt8]
  omega

theorem toNat_toUInt16_eq_iff (scanned : text.num = some value) :
    value.toUInt16.toNat = text.written ↔ text.written ≤ 65535 := by
  rw [NumberText.num_eq_some_iff.mp scanned, UInt32.toNat_toUInt16]
  omega

/-- A number from `2 ^ 31` on is negative in an `int`. -/
theorem toInt_toInt32 (value : UInt32) :
    value.toInt32.toInt =
      if value.toNat < 2 ^ 31 then (value.toNat : Int) else value.toNat - 2 ^ 32 := by
  have converted : value.toInt32.toInt =
      if 2 * value.toNat < 2 ^ 32 then (value.toNat : Int) else value.toNat - (2 ^ 32 : Nat) :=
    BitVec.toInt_eq_toNat_cond value.toBitVec
  rw [converted]
  split_ifs <;> omega

/-- The field of a lifetime that is only replaced by a default if it is
negative. -/
theorem lifetimeField_eq_iff (scanned : text.num = some value) {parsed current : Int}
    (stored : parsed = value.toInt32.toInt) (kept : 0 ≤ parsed → current = parsed)
    (nonneg : 0 ≤ current) (bound : current ≤ 65535) :
    (UInt16.ofInt current).toNat = text.written ↔ text.written < 2 ^ 31 := by
  have written := NumberText.num_eq_some_iff.mp scanned
  rw [toInt_toInt32] at stored
  rw [toNat_uint16_ofInt nonneg bound]
  split_ifs at stored with small
  · have same := kept (by omega)
    omega
  · omega

end

theorem isPreference_of_preferenceValue {octet : UInt8} {preference : Int}
    (carried : preferenceValue octet = some preference) : IsPreference preference := by
  unfold preferenceValue at carried
  split at carried
  · cases carried
    exact .inl rfl
  · cases carried
    exact .inr (.inl rfl)
  · cases carried
    exact .inr (.inr rfl)
  · cases carried

theorem preferenceValue_eq_iff {text : SignedText} {octet : UInt8}
    (shown : IsPreference text.snum → preferenceOf octet = preferenceShown text.snum) :
    preferenceValue octet = some text.written ↔ IsPreference text.written := by
  refine ⟨isPreference_of_preferenceValue, fun valid => ?_⟩
  have same : text.snum = text.written := by
    apply SignedText.snum_of_small <;> rcases valid with equal | equal | equal <;> omega
  rw [same] at shown
  rw [preferenceValue, shown valid]
  rcases valid with equal | equal | equal <;> rw [equal] <;> rfl

/-! ## Text -/

/-- The string passes the buffer of the scanner and the trimming of quotes
unchanged. -/
def FitsUrl : StringText → Prop
  | .word text _ _ => text.length ≤ 255
  | .quoted mark text _ =>
      mark = .plain ∧ 0 ∉ text ∧
        (text.length ≤ 253 ∨ text.length = 254 ∧ text.getLast? ≠ some doubleQuote)

theorem trimQuotes_of_plain {source : Bytes} (plain : ∀ octet ∈ source, octet ≠ doubleQuote) :
    trimQuotes source = source := by
  have first : source.head? ≠ some doubleQuote :=
    fun head => plain _ (List.mem_of_head? head) rfl
  have last : source.getLast? ≠ some doubleQuote :=
    fun last => plain _ (List.mem_of_getLast? last) rfl
  rw [trimQuotes, if_neg first, if_neg last]

theorem mem_of_mem_trimQuotes {source : Bytes} {octet : UInt8}
    (member : octet ∈ trimQuotes source) : octet ∈ source := by
  unfold trimQuotes at member
  dsimp only at member
  split_ifs at member
  · exact List.mem_of_mem_tail (List.dropLast_subset _ member)
  · exact List.mem_of_mem_tail member
  · exact List.dropLast_subset _ member
  · exact member

theorem ne_zero_of_mem_str {text : StringText} {octet : UInt8} (member : octet ∈ text.str) :
    octet ≠ 0 := by
  have taken := List.mem_takeWhile_imp (List.mem_of_mem_take member)
  simpa using taken

theorem takeWhile_eq_self {source : Bytes} (text : ∀ octet ∈ source, octet ≠ 0) :
    source.takeWhile (· ≠ 0) = source :=
  List.takeWhile_eq_self_iff.mpr (by simpa using text)

/-- Only a quote that is still in the buffer is trimmed at the end. -/
theorem trimQuotes_quoted (text : Bytes) :
    trimQuotes ((doubleQuote :: text ++ [doubleQuote]).take 255) = text ↔
      text.length ≤ 253 ∨ text.length = 254 ∧ text.getLast? ≠ some doubleQuote := by
  have front : trimQuotes ((doubleQuote :: text ++ [doubleQuote]).take 255) =
      let kept := (text ++ [doubleQuote]).take 254
      if kept.getLast? = some doubleQuote then kept.dropLast else kept := rfl
  rw [front]
  dsimp only
  by_cases short : text.length ≤ 253
  · rw [List.take_of_length_le (by simp; omega)]
    simp [short]
  · rw [List.take_append_of_le_length (by omega)]
    split
    · rename_i last
      constructor
      · intro same
        have lengths := congrArg List.length same
        simp only [List.length_dropLast, List.length_take] at lengths
        omega
      · rintro (small | ⟨exact, notQuote⟩)
        · omega
        · rw [List.take_of_length_le exact.le] at last
          exact absurd last notQuote
    · rename_i last
      rw [List.take_eq_self_iff]
      constructor
      · intro small
        rw [List.take_of_length_le small] at last
        exact .inr ⟨by omega, last⟩
      · omega

/-- The mark of wide text is not trimmed. -/
theorem trimQuotes_wide {mark : QuoteMark} {text : Bytes} (wide : mark ≠ .plain)
    (inside : isQuotedText text = true) :
    trimQuotes (StringText.quoted mark text inside).str ≠ text := by
  have front : ∃ letter, letter ≠ 0 ∧
      (∀ rest, isQuotedText (letter :: doubleQuote :: rest) = false) ∧
      trimQuotes (StringText.quoted mark text inside).str =
        let kept := letter :: doubleQuote :: ((text ++ [doubleQuote]).takeWhile (· ≠ 0)).take 253
        if kept.getLast? = some doubleQuote then kept.dropLast else kept := by
    cases mark with
    | plain => exact absurd rfl wide
    | upper => exact ⟨76, by decide, fun rest => (by cases rest <;> rfl), rfl⟩
    | lower => exact ⟨108, by decide, fun rest => (by cases rest <;> rfl), rfl⟩
  rcases front with ⟨letter, nonzero, never, front⟩
  intro same
  rw [front] at same
  dsimp only at same
  split at same
  · rcases rest : ((text ++ [doubleQuote]).takeWhile (· ≠ 0)).take 253 with _ | ⟨octet, others⟩
    · rw [rest] at same
      subst same
      simp [nonzero] at rest
    · rw [rest, List.dropLast_cons_cons, List.dropLast_cons_cons] at same
      rw [← same, never] at inside
      cases inside
  · rw [← same, never] at inside
    cases inside

theorem trimQuotes_str_eq_iff (text : StringText) :
    trimQuotes text.str = text.content ↔ FitsUrl text := by
  cases text with
  | word text filled octets =>
      have plain : ∀ octet ∈ text, octet ≠ 0 ∧ octet ≠ doubleQuote := by
        intro octet member
        have word := octets octet member
        constructor
        all_goals
          rintro rfl
          exact absurd word (by decide)
      have kept : (StringText.word text filled octets).str = text.take 255 := by
        rw [StringText.str, StringText.yytext,
          takeWhile_eq_self fun octet member => (plain octet member).1]
      rw [kept, trimQuotes_of_plain fun octet member => (plain octet (List.mem_of_mem_take member)).2]
      exact List.take_eq_self_iff _
  | quoted mark text inside =>
      by_cases wide : mark = .plain
      · subst wide
        rw [FitsUrl, StringText.content]
        by_cases nonzero : 0 ∉ text
        · have kept : (StringText.quoted .plain text inside).str =
              (doubleQuote :: text ++ [doubleQuote]).take 255 := by
            have all : ∀ octet ∈ doubleQuote :: text ++ [doubleQuote], octet ≠ 0 := by
              simp only [List.cons_append, List.forall_mem_cons, List.forall_mem_append]
              exact ⟨by decide, fun octet member zero => nonzero (zero ▸ member), by decide, by simp⟩
            exact congrArg (List.take 255) (takeWhile_eq_self all)
          rw [kept, trimQuotes_quoted]
          exact ⟨fun fits => ⟨rfl, nonzero, fits⟩, fun fits => fits.2.2⟩
        · constructor
          · intro same
            refine absurd (fun member => ?_) nonzero
            rw [← same] at member
            exact ne_zero_of_mem_str (mem_of_mem_trimQuotes member) rfl
          · exact fun fits => absurd fits.2.1 nonzero
      · exact ⟨fun same => absurd same (trimQuotes_wide wide inside),
          fun fits => absurd fits.1 wide⟩

/-! ## An interface that is ready -/

/-- The settings in effect fit in their fields; those of the Home Agent
Information option need to if there is one. -/
structure FitsFields (params : List Ifaceparam) (homeAgentInfo : Bool) : Prop where
  hopLimit : ∀ text, InEffect params (.advCurHopLimit text) → text.written ≤ 255
  preference : ∀ text, InEffect params (.advDefaultPreference text) → IsPreference text.written
  lifetime : ∀ text, InEffect params (.advDefaultLifetime text) → text.written < 2 ^ 31
  homeAgentPreference : homeAgentInfo = true →
    ∀ text, InEffect params (.homeAgentPreference text) → text.written ≤ 65535
  homeAgentLifetime : homeAgentInfo = true →
    ∀ text, InEffect params (.homeAgentLifetime text) → text.written < 2 ^ 31
  captivePortal : ∀ text, InEffect params (.advCaptivePortalAPI text) → FitsUrl text
  routes : ∀ definition ∈ routedefs params, ∀ text,
    LastOf RouteParm.ctorIdx definition.parms (.advRoutePreference text) →
      IsPreference text.written
  contextLength : ∀ definition ∈ (lowpancodefs params).head?, ∀ text,
    LastOf LowpancoParm.ctorIdx definition.parms (.advContextLength text) → text.written ≤ 255
  lifeTime : ∀ definition ∈ (lowpancodefs params).head?, ∀ text,
    LastOf LowpancoParm.ctorIdx definition.parms (.advLifeTime text) → text.written ≤ 65535
  versionLow : ∀ definition ∈ (abrodefs params).head?, ∀ text,
    LastOf AbroParm.ctorIdx definition.parms (.advVersionLow text) → text.written ≤ 65535
  versionHigh : ∀ definition ∈ (abrodefs params).head?, ∀ text,
    LastOf AbroParm.ctorIdx definition.parms (.advVersionHigh text) → text.written ≤ 65535
  validLifeTime : ∀ definition ∈ (abrodefs params).head?, ∀ text,
    LastOf AbroParm.ctorIdx definition.parms (.advValidLifetime text) → text.written ≤ 65535

section

variable {definition : Ifacedef} {parsed iface : Interface} {order : ByteOrder} {kernel : Kernel}

theorem hopLimit_iff (gives : definition.Gives parsed) (derived : Derived parsed iface)
    {text : NumberText} (effective : InEffect definition.params (.advCurHopLimit text)) :
    (Memory.ofBytes (raHeaderBlock iface.raHeaderInfo false) 4).toNat = text.written ↔
      text.written ≤ 255 := by
  rcases gives.settings.hopLimit text effective with ⟨value, scanned, stored⟩
  have same := derived.same (fun iface => iface.raHeaderInfo.advCurHopLimit) fun _ => rfl
  rw [(header_fields _ _).1, same, stored]
  exact toNat_toUInt8_eq_iff scanned

theorem preference_iff (gives : definition.Gives parsed) (derived : Derived parsed iface)
    {text : SignedText} (effective : InEffect definition.params (.advDefaultPreference text)) :
    preferenceValue (Memory.ofBytes (raHeaderBlock iface.raHeaderInfo false) 5) =
      some text.written ↔ IsPreference text.written := by
  have same := derived.same (fun iface => iface.raHeaderInfo.advDefaultPreference) fun _ => rfl
  rw [(header_fields _ _).2.1]
  apply preferenceValue_eq_iff
  rw [← gives.settings.preference text effective, ← same]
  exact fun valid => (raFlagsReserved_shown valid).2.2.2.2

theorem lifetime_iff (gives : definition.Gives parsed) (derived : Derived parsed iface)
    (ready : iface.stateInfo.ready = true) {text : NumberText}
    (effective : InEffect definition.params (.advDefaultLifetime text)) :
    ((Memory.ofBytes (raHeaderBlock iface.raHeaderInfo false)).u16 6).toNat = text.written ↔
      text.written < 2 ^ 31 := by
  rcases gives.settings.lifetime text effective with ⟨value, scanned, stored⟩
  have checked := derived.checked_of ready
  rw [(header_fields _ _).2.2.1, if_neg (by decide)]
  exact lifetimeField_eq_iff scanned stored derived.lifetime_eq checked.lifetime_nonneg
    checked.lifetime_le

theorem reachableTime_eq (gives : definition.Gives parsed) (derived : Derived parsed iface)
    {text : NumberText} (effective : InEffect definition.params (.advReachableTime text)) :
    ((Memory.ofBytes (raHeaderBlock iface.raHeaderInfo false)).u32 8).toNat = text.written := by
  rcases gives.settings.reachableTime text effective with ⟨value, scanned, stored⟩
  have same := derived.same (fun iface => iface.raHeaderInfo.advReachableTime) fun _ => rfl
  rw [(header_fields _ _).2.2.2.1, same, stored]
  exact (NumberText.num_eq_some_iff.mp scanned).symm

theorem retransTimer_eq (gives : definition.Gives parsed) (derived : Derived parsed iface)
    {text : NumberText} (effective : InEffect definition.params (.advRetransTimer text)) :
    ((Memory.ofBytes (raHeaderBlock iface.raHeaderInfo false)).u32 12).toNat = text.written := by
  rcases gives.settings.retransTimer text effective with ⟨value, scanned, stored⟩
  have same := derived.same (fun iface => iface.raHeaderInfo.advRetransTimer) fun _ => rfl
  rw [(header_fields _ _).2.2.2.2, same, stored]
  exact (NumberText.num_eq_some_iff.mp scanned).symm

/-- The Home Agent Information option is the only option of its type. -/
theorem forall_homeAgentInfo_iff (parsed : iface.Parsed) {property : Bytes → Prop} :
    (∀ option ∈ ofType ndOptHomeAgentInfo (allOptions order kernel iface), property option) ↔
      (sendsHomeAgentInfo iface = true → property (homeAgentInfoBlock order iface.mipv6)) := by
  rw [ofType_homeAgentInfo parsed]
  split
  · rename_i sends
    simp [sends]
  · rename_i silent
    simp [silent]

theorem homeAgentPreference_iff (gives : definition.Gives parsed) (derived : Derived parsed iface)
    {text : NumberText} (effective : InEffect definition.params (.homeAgentPreference text)) :
    ((Memory.ofBytes (homeAgentInfoBlock order iface.mipv6)).u16 4).toNat = text.written ↔
      text.written ≤ 65535 := by
  rcases gives.settings.homeAgentPreference text effective with ⟨value, scanned, stored⟩
  have same := derived.same (fun iface => iface.mipv6.homeAgentPreference) fun _ => rfl
  rw [(homeAgentInfo_fields _ _).1, same, stored]
  exact toNat_toUInt16_eq_iff scanned

theorem homeAgentLifetime_iff (gives : definition.Gives parsed) (derived : Derived parsed iface)
    (ready : iface.stateInfo.ready = true) (sends : sendsHomeAgentInfo iface = true)
    {text : NumberText} (effective : InEffect definition.params (.homeAgentLifetime text)) :
    ((Memory.ofBytes (homeAgentInfoBlock order iface.mipv6)).u16 6).toNat = text.written ↔
      text.written < 2 ^ 31 := by
  rcases gives.settings.homeAgentLifetime text effective with ⟨value, scanned, stored⟩
  have checked := derived.checked_of ready
  simp only [sendsHomeAgentInfo, Bool.and_eq_true] at sends
  have bound := checked.homeAgent_le sends.1
  rw [(homeAgentInfo_fields _ _).2]
  exact lifetimeField_eq_iff scanned stored derived.homeAgent_eq checked.homeAgent_nonneg (by omega)

theorem captivePortal_iff (gives : definition.Gives parsed) (derived : Derived parsed iface)
    (isParsed : iface.Parsed) {text : StringText}
    (effective : InEffect definition.params (.advCaptivePortalAPI text)) :
    (∀ option ∈ ofType ndOptCaptivePortal (allOptions order kernel iface),
        cString (option.drop 2) = text.content) ↔ FitsUrl text := by
  have same := derived.same Interface.advCaptivePortalAPI fun _ => rfl
  rw [ofType_captivePortal isParsed, same, gives.settings.captivePortal text effective]
  simp only [Option.map_some, Option.toList_some, List.forall_mem_singleton]
  rw [cString_capportBlock fun octet member => ne_zero_of_mem_str (mem_of_mem_trimQuotes member)]
  exact trimQuotes_str_eq_iff text

/-- A property of the options of definitions that says the same of each of the
definitions. -/
theorem forall₂_iff_forall {α β : Type} {defined relation : α → β → Prop} {property : α → Prop}
    {left : List α} {right : List β} (all : List.Forall₂ defined left right)
    (agree : ∀ definition entry, defined definition entry →
      (relation definition entry ↔ property definition)) :
    List.Forall₂ relation left right ↔ ∀ definition ∈ left, property definition := by
  induction all with
  | nil => simp
  | cons here _ ih => rw [List.forall₂_cons, agree _ _ here, ih, List.forall_mem_cons]

theorem routes_iff (gives : definition.Gives parsed) (derived : Derived parsed iface)
    (isParsed : iface.Parsed) :
    List.Forall₂ (fun definition option =>
        ∀ text, LastOf RouteParm.ctorIdx definition.parms (.advRoutePreference text) →
          preferenceValue (Memory.ofBytes option 3) = some text.written)
      (routedefs definition.params)
      (ofType ndOptRouteInformation (allOptions order kernel iface)) ↔
      ∀ route ∈ routedefs definition.params, ∀ text,
        LastOf RouteParm.ctorIdx route.parms (.advRoutePreference text) →
          IsPreference text.written := by
  rw [ofType_route isParsed, derived.same Interface.advRouteList fun _ => rfl,
    List.forall₂_map_right_iff]
  apply forall₂_iff_forall gives.defined.routes
  rintro definition route ⟨_, read⟩
  apply forall_congr'
  intro text
  apply imp_congr_right
  intro effective
  rw [route_field (prefixLen_of_routedef read)]
  apply preferenceValue_eq_iff
  rw [preference_of_routedef read effective]
  exact preferenceOf_preferenceBits

/-- Of a list of which only the first element is emitted the fields are those of
the first definition. -/
theorem head_iff {α β τ : Type} {defined : α → β → Prop} {encode : β → Bytes}
    {effective : α → τ → Prop} {carried : Bytes → τ → Prop} {fits : τ → Prop} {left : List α}
    {right : List β} (all : List.Forall₂ defined left right)
    (agree : ∀ definition entry text, defined definition entry → effective definition text →
      (carried (encode entry) text ↔ fits text)) :
    (∀ definition ∈ left.head?, ∀ text, effective definition text →
        ∀ option ∈ (right.head?.map encode).toList, carried option text) ↔
      ∀ definition ∈ left.head?, ∀ text, effective definition text → fits text := by
  cases all with
  | nil => simp
  | @cons definition entry _ _ here _ =>
      simp only [List.head?_cons, Option.mem_some_iff, forall_eq', Option.map_some,
        Option.toList_some, List.forall_mem_singleton]
      exact forall_congr' fun text => imp_congr_right fun set => agree _ _ _ here set

theorem contextLength_iff (gives : definition.Gives parsed) (derived : Derived parsed iface)
    (isParsed : iface.Parsed) :
    (∀ context ∈ (lowpancodefs definition.params).head?, ∀ text,
        LastOf LowpancoParm.ctorIdx context.parms (.advContextLength text) →
          ∀ option ∈ ofType ndOpt6co (allOptions order kernel iface),
            (Memory.ofBytes option 2).toNat = text.written) ↔
      ∀ context ∈ (lowpancodefs definition.params).head?, ∀ text,
        LastOf LowpancoParm.ctorIdx context.parms (.advContextLength text) →
          text.written ≤ 255 := by
  rw [ofType_lowpanco isParsed, derived.same Interface.advLowpanCoList fun _ => rfl]
  apply head_iff gives.defined.lowpanco
  intro definition entry text read effective
  rcases (settings_of_lowpancodef read).contextLength text effective with ⟨value, scanned, stored⟩
  rw [(lowpanco_fields entry).1, stored]
  exact toNat_toUInt8_eq_iff scanned

theorem lifeTime_iff (gives : definition.Gives parsed) (derived : Derived parsed iface)
    (isParsed : iface.Parsed) :
    (∀ context ∈ (lowpancodefs definition.params).head?, ∀ text,
        LastOf LowpancoParm.ctorIdx context.parms (.advLifeTime text) →
          ∀ option ∈ ofType ndOpt6co (allOptions order kernel iface),
            ((Memory.ofBytes option).u16 6).toNat = text.written) ↔
      ∀ context ∈ (lowpancodefs definition.params).head?, ∀ text,
        LastOf LowpancoParm.ctorIdx context.parms (.advLifeTime text) →
          text.written ≤ 65535 := by
  rw [ofType_lowpanco isParsed, derived.same Interface.advLowpanCoList fun _ => rfl]
  apply head_iff gives.defined.lowpanco
  intro definition entry text read effective
  rcases (settings_of_lowpancodef read).lifeTime text effective with ⟨value, scanned, stored⟩
  rw [(lowpanco_fields entry).2, stored]
  exact toNat_toUInt16_eq_iff scanned

/-- The three settings of a border router are 16 bits wide. -/
theorem abro_iff (gives : definition.Gives parsed) (derived : Derived parsed iface)
    (isParsed : iface.Parsed) {setting : NumberText → AbroParm} {view : AdvAbro → UInt16}
    {offset : Nat}
    (stores : ∀ definition entry text, abrodef definition = .ok entry →
      LastOf AbroParm.ctorIdx definition.parms (setting text) →
        ∃ value, text.num = some value ∧ view entry = value.toUInt16)
    (encodes : ∀ entry, (Memory.ofBytes (abroBlock entry)).u16 offset = view entry) :
    (∀ router ∈ (abrodefs definition.params).head?, ∀ text,
        LastOf AbroParm.ctorIdx router.parms (setting text) →
          ∀ option ∈ ofType ndOptAbro (allOptions order kernel iface),
            ((Memory.ofBytes option).u16 offset).toNat = text.written) ↔
      ∀ router ∈ (abrodefs definition.params).head?, ∀ text,
        LastOf AbroParm.ctorIdx router.parms (setting text) → text.written ≤ 65535 := by
  rw [ofType_abro isParsed, derived.same Interface.advAbroList fun _ => rfl]
  apply head_iff gives.defined.abro
  intro definition entry text read effective
  rcases stores _ _ _ read effective with ⟨value, scanned, stored⟩
  rw [encodes, stored]
  exact toNat_toUInt16_eq_iff scanned

theorem carriesWritten_iff_fitsFields (gives : definition.Gives parsed)
    (derived : Derived parsed iface) (ready : iface.stateInfo.ready = true) (order : ByteOrder)
    (kernel : Kernel) :
    CarriesWritten definition.params (raHeaderBlock iface.raHeaderInfo false)
      (allOptions order kernel iface) ↔ FitsFields definition.params (sendsHomeAgentInfo iface) := by
  have isParsed := derived.parsed_of_ready gives.parsed ready
  have versionLow := @abro_iff _ _ _ order kernel gives derived isParsed .advVersionLow
    AdvAbro.versionLow 2 (fun _ _ text read => (settings_of_abrodef read).versionLow text)
    fun entry => (abro_fields entry).1
  have versionHigh := @abro_iff _ _ _ order kernel gives derived isParsed .advVersionHigh
    AdvAbro.versionHigh 4 (fun _ _ text read => (settings_of_abrodef read).versionHigh text)
    fun entry => (abro_fields entry).2.1
  have validLifeTime := @abro_iff _ _ _ order kernel gives derived isParsed .advValidLifetime
    AdvAbro.validLifeTime 6 (fun _ _ text read => (settings_of_abrodef read).validLifeTime text)
    fun entry => (abro_fields entry).2.2
  constructor
  · intro carries
    constructor
    · exact fun text set => (hopLimit_iff gives derived set).mp (carries.hopLimit text set)
    · exact fun text set => (preference_iff gives derived set).mp (carries.preference text set)
    · exact fun text set => (lifetime_iff gives derived ready set).mp (carries.lifetime text set)
    · intro sends text set
      have carried := (forall_homeAgentInfo_iff isParsed).mp (carries.homeAgentPreference text set)
      exact (homeAgentPreference_iff gives derived set).mp (carried sends)
    · intro sends text set
      have carried := (forall_homeAgentInfo_iff isParsed).mp (carries.homeAgentLifetime text set)
      exact (homeAgentLifetime_iff gives derived ready sends set).mp (carried sends)
    · exact fun text set =>
        (captivePortal_iff gives derived isParsed set).mp (carries.captivePortal text set)
    · exact (routes_iff gives derived isParsed).mp carries.routes
    · exact (contextLength_iff gives derived isParsed).mp carries.contextLength
    · exact (lifeTime_iff gives derived isParsed).mp carries.lifeTime
    · exact versionLow.mp carries.versionLow
    · exact versionHigh.mp carries.versionHigh
    · exact validLifeTime.mp carries.validLifeTime
  · intro fits
    constructor
    · exact fun text set => (hopLimit_iff gives derived set).mpr (fits.hopLimit text set)
    · exact fun text set => (preference_iff gives derived set).mpr (fits.preference text set)
    · exact fun text set => (lifetime_iff gives derived ready set).mpr (fits.lifetime text set)
    · exact fun text set => reachableTime_eq gives derived set
    · exact fun text set => retransTimer_eq gives derived set
    · intro text set
      rw [forall_homeAgentInfo_iff isParsed]
      intro sends
      exact (homeAgentPreference_iff gives derived set).mpr (fits.homeAgentPreference sends text set)
    · intro text set
      rw [forall_homeAgentInfo_iff isParsed]
      intro sends
      exact (homeAgentLifetime_iff gives derived ready sends set).mpr
        (fits.homeAgentLifetime sends text set)
    · exact fun text set =>
        (captivePortal_iff gives derived isParsed set).mpr (fits.captivePortal text set)
    · exact (routes_iff gives derived isParsed).mpr fits.routes
    · exact (contextLength_iff gives derived isParsed).mpr fits.contextLength
    · exact (lifeTime_iff gives derived isParsed).mpr fits.lifeTime
    · exact versionLow.mpr fits.versionLow
    · exact versionHigh.mpr fits.versionHigh
    · exact validLifeTime.mpr fits.validLifeTime

end

/-! ## RAs -/

/-- In every RA that an interface of the configuration sends while it is not
ceasing, the settings arrive unchanged if and only if they fit. -/
theorem carriesWritten_iff {first : Ifacedef} {rest : List Ifacedef} {ifaces : List Interface}
    (read : readinConfig first rest = .ok ifaces) {parsed : Interface} (member : parsed ∈ ifaces)
    {events : List IfaceEvent} {iface : Interface} (run : Run IfaceStep parsed events iface)
    (ready : iface.stateInfo.ready = true) {env : SendEnv} {warned : Bool}
    (advertising : ceases env warned iface = false) {dest : Option In6Addr} {message : Bytes}
    (sent : message ∈ (sendRa env warned iface dest).sent) :
    ∃ definition ∈ first :: rest, definition.Gives parsed ∧
      Carries iface.raHeaderInfo false
        (allOptions env.order env.kernel (agedIface env iface dest)) message ∧
      (CarriesWritten definition.params (raHeaderBlock iface.raHeaderInfo false)
          (allOptions env.order env.kernel (agedIface env iface dest)) ↔
        FitsFields definition.params (sendsHomeAgentInfo iface)) := by
  rcases gives_of_readinConfig read member with ⟨definition, listed, gives⟩
  have stable := @stable_derived (fun _ => True) True parsed
  have within : ∀ event ∈ events, event.Within (fun _ => True) True := by
    intro event _
    cases event <;> trivial
  have derived := stable.ifaceRun run within (derived_of_gives gives)
  have aged : Derived parsed (agedIface env iface dest) :=
    stable.aged dest (advertises_of_mem_sent sent) trivial derived
  have agedReady : (agedIface env iface dest).stateInfo.ready = true := by
    cases dest <;> exact ready
  have homeAgentInfo : sendsHomeAgentInfo (agedIface env iface dest) = sendsHomeAgentInfo iface := by
    cases dest <;> rfl
  have carries := carries_of_mem_sent (derived.parsed_of_ready gives.parsed ready) sent
  have fields := carriesWritten_iff_fitsFields gives aged agedReady env.order env.kernel
  rw [advertising] at carries
  rw [raHeaderInfo_agedIface, homeAgentInfo] at fields
  exact ⟨definition, listed, gives, carries, fields⟩

/-- An interface with a hop limit, a preference and a URL. -/
def portal (hopLimit : NumberText) : Ifacedef :=
  ⟨eth0, [.ifaceval (.advSendAdvert true), .ifaceval (.advCurHopLimit hopLimit),
    .ifaceval (.advDefaultLifetime ⟨1, [8, 0, 0]⟩), .ifaceval (.advDefaultPreference .high),
    .ifaceval (.advCaptivePortalAPI (.quoted .plain (ascii "http://[2001:db8::1]/") (by decide))),
    .routedef ⟨In6Addr.unspecified, ⟨0, []⟩, [.advRoutePreference .low]⟩,
    .lowpancodef ⟨[.advContextLength ⟨6, [4]⟩, .advLifeTime ⟨9, []⟩]⟩]⟩

theorem fitsFields_portal (homeAgentInfo : Bool) :
    FitsFields (portal ⟨2, [5, 5]⟩).params homeAgentInfo := by
  constructor
  · intro text effective
    cases effective
    decide
  · intro text effective
    cases effective
    exact .inr (.inr rfl)
  · intro text effective
    cases effective
    decide
  · intro _ text effective
    cases effective
  · intro _ text effective
    cases effective
  · intro text effective
    cases effective
    exact ⟨rfl, by decide, .inl (by decide)⟩
  · intro route listed text effective
    cases List.mem_singleton.mp listed
    cases effective
    exact .inl rfl
  · intro context first text effective
    cases first
    cases effective
    decide
  · intro context first text effective
    cases first
    cases effective
    decide
  · intro router first
    cases first
  · intro router first
    cases first
  · intro router first
    cases first

theorem carriesWritten_portal :
    ∃ ifaces parsed iface message definition,
      readinConfig (portal ⟨2, [5, 5]⟩) [] = .ok ifaces ∧ parsed ∈ ifaces ∧
      Run IfaceStep parsed [.setUp .ethernet] iface ∧
      message ∈ (sendRa (routerEnv ⟨0, 0⟩) false iface none).sent ∧ definition.Gives parsed ∧
      definition ∈ [portal ⟨2, [5, 5]⟩] ∧
      CarriesWritten definition.params (raHeaderBlock iface.raHeaderInfo false)
        (allOptions .littleEndian (routerEnv ⟨0, 0⟩).kernel
          (agedIface (routerEnv ⟨0, 0⟩) iface none)) := by
  let env := routerEnv ⟨0, 0⟩
  have found : (prepared (portal ⟨2, [5, 5]⟩)).map (fun seen =>
      decide (seen.2.stateInfo.ready = true ∧ ceases env false seen.2 = false ∧
        (sendRa env false seen.2 none).sent ≠ [])) = some true := by
    with_unfolding_all decide
  rcases exists_prepared found with ⟨ifaces, parsed, iface, read, member, step, seen⟩
  rw [decide_eq_true_eq] at seen
  obtain ⟨ready, advertising, transmits⟩ := seen
  rcases List.exists_mem_of_ne_nil _ transmits with ⟨message, sent⟩
  have run : Run IfaceStep parsed [.setUp .ethernet] iface := .cons step (.nil _)
  rcases carriesWritten_iff read member run ready advertising sent with
    ⟨definition, listed, gives, -, fields⟩
  have fits : FitsFields definition.params (sendsHomeAgentInfo iface) := by
    rw [List.mem_singleton.mp listed]
    exact fitsFields_portal _
  exact ⟨ifaces, parsed, iface, message, definition, read, member, run, sent, gives, listed,
    fields.mpr fits⟩

/-- A hop limit of 300 is advertised as 44. -/
theorem not_carriesWritten_portal :
    ∃ ifaces last sent message, readinConfig (portal ⟨3, [0, 0]⟩) [] = .ok ifaces ∧
      Run Daemon.Lives ⟨ifaces, false⟩ [] last ∧
      sent ∈ (last.live (kickoffAt ⟨100, 0⟩)).sent ∧ message ∈ sent.messages ∧
      Memory.ofBytes message 4 = 44 ∧
      InEffect (portal ⟨3, [0, 0]⟩).params (.advCurHopLimit ⟨3, [0, 0]⟩) ∧
      (⟨3, [0, 0]⟩ : NumberText).written = 300 ∧
      ¬CarriesWritten (portal ⟨3, [0, 0]⟩).params message (raOptions message) := by
  have found : (reached (portal ⟨3, [0, 0]⟩) []).map (fun seen =>
      (seen.2.live (kickoffAt ⟨100, 0⟩)).sent.map fun sent =>
        sent.messages.map fun message => Memory.ofBytes message 4) = some [[44]] := by
    with_unfolding_all decide
  rcases exists_reached found with ⟨ifaces, last, read, run, seen⟩
  rcases List.map_eq_singleton_iff.mp seen with ⟨sent, sents, messages⟩
  rcases List.map_eq_singleton_iff.mp messages with ⟨message, own, hopLimit⟩
  refine ⟨ifaces, last, sent, message, read, run, by simp [sents], by simp [own], hopLimit, rfl,
    rfl, fun carries => ?_⟩
  have carried := carries.hopLimit ⟨3, [0, 0]⟩ rfl
  rw [hopLimit] at carried
  exact absurd carried (by decide)

end Radvd
