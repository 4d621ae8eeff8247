import Radvd.Send.WellFormed

/-!
# The options of an RA by their type

Every section of the list of `build_ra_options` consists of options of one type,
and no two sections share a type, so the options of a type are those of one
section (`ofType_allOptions`).
-/

namespace Radvd

open Wire Tlv

def optionType (option : Bytes) : UInt8 :=
  option.getD 0 0

def ofType (type : UInt8) (options : List Bytes) : List Bytes :=
  options.filter (optionType · = type)

/-- All options of an RA, in order. -/
def allOptions (order : ByteOrder) (kernel : Kernel) (iface : Interface) : List Bytes :=
  listBlocks kernel iface ++ tailBlocks order iface

def Typed (type : UInt8) (options : List Bytes) : Prop :=
  ∀ option ∈ options, optionType option = type

variable {type own : UInt8} {first second : List Bytes} {option : Bytes}

@[simp]
theorem mem_ofType : option ∈ ofType type first ↔ option ∈ first ∧ optionType option = type := by
  simp [ofType]

theorem ofType_append (type : UInt8) (first second : List Bytes) :
    ofType type (first ++ second) = ofType type first ++ ofType type second :=
  List.filter_append ..

theorem Typed.ofType (typed : Typed own first) (type : UInt8) :
    ofType type first = if own = type then first else [] := by
  split
  · rename_i same
    apply List.filter_eq_self.mpr
    intro option member
    simp [typed option member, same]
  · rename_i differ
    apply List.filter_eq_nil_iff.mpr
    intro option member
    simp [typed option member, differ]

theorem typed_map {α : Type} {encode : α → Bytes} (list : List α)
    (typed : ∀ entry, optionType (encode entry) = own) : Typed own (list.map encode) := by
  simp only [Typed, List.forall_mem_map]
  exact fun entry _ => typed entry

theorem typed_ite {condition : Prop} [Decidable condition]
    (typed : optionType option = own) : Typed own (if condition then [option] else []) := by
  split <;> simp [Typed, typed]

theorem typed_toList {α : Type} {encode : α → Bytes} (head : Option α)
    (typed : ∀ entry, optionType (encode entry) = own) : Typed own (head.map encode).toList := by
  cases head <;> simp [Typed, typed]

theorem optionType_routeBlock {route : AdvRoute} (bound : route.prefixLen ≤ 128) (ceaseAdv : Bool) :
    optionType (routeBlock route ceaseAdv) = ndOptRouteInformation := by
  have bounds := routeLen_bounds bound
  rw [optionType, routeBlock, List.getD, List.getElem?_take_of_lt (by omega)]
  rfl

theorem typed_routeBlocks {routes : List AdvRoute} (bound : ∀ route ∈ routes, route.prefixLen ≤ 128)
    (ceaseAdv : Bool) : Typed ndOptRouteInformation (routes.map (routeBlock · ceaseAdv)) := by
  simp only [Typed, List.forall_mem_map]
  exact fun route member => optionType_routeBlock (bound route member) ceaseAdv

/-- The sections of an RA with their types. -/
def sections (order : ByteOrder) (kernel : Kernel) (iface : Interface) :
    List (UInt8 × List Bytes) :=
  [(ndOptPrefixInformation,
      prefixBlocks kernel iface iface.stateInfo.ceaseAdv iface.advPrefixList),
    (ndOptPref64, iface.nat64PrefixList.map nat64prefixBlock),
    (ndOptRouteInformation, iface.advRouteList.map (routeBlock · iface.stateInfo.ceaseAdv)),
    (ndOptRdnssInformation, rdnssBlocks iface.stateInfo.ceaseAdv iface.advRDNSSList),
    (ndOptDnsslInformation, dnsslBlocks iface.stateInfo.ceaseAdv iface.advDNSSLList),
    (ndOptMtu, if iface.advLinkMTU ≠ 0 then [mtuBlock iface.advLinkMTU] else []),
    (ndOptSourceLinkaddr,
      if iface.advSourceLLAddress && iface.sllao.ifHwaddrLen > 0 then [sllaoBlock iface.sllao]
      else []),
    (ndOptRtrAdvInterval,
      if iface.mipv6.advIntervalOpt then [rtrAdvIntervalBlock iface.maxRtrAdvInterval] else []),
    (ndOptHomeAgentInfo,
      if sendsHomeAgentInfo iface then [homeAgentInfoBlock order iface.mipv6] else []),
    (ndOpt6co, (iface.advLowpanCoList.head?.map lowpancoBlock).toList),
    (ndOptAbro, (iface.advAbroList.head?.map abroBlock).toList),
    (ndOptCaptivePortal, (iface.advCaptivePortalAPI.map capportBlock).toList)]

section

variable {order : ByteOrder} {kernel : Kernel} {iface : Interface}

theorem flatMap_sections :
    (sections order kernel iface).flatMap Prod.snd = allOptions order kernel iface := by
  simp [sections, allOptions, listBlocks, tailBlocks]

theorem typed_sections (parsed : iface.Parsed) :
    ∀ part ∈ sections order kernel iface, Typed part.1 part.2 := by
  simp only [sections, List.forall_mem_cons]
  refine ⟨?_, ?_, ?_, ?_, ?_, ?_, ?_, ?_, ?_, ?_, ?_, ?_, by simp⟩
  · exact typed_map _ fun _ => rfl
  · exact typed_map _ fun _ => rfl
  · exact typed_routeBlocks parsed.route_prefixLen _
  · exact typed_map _ fun _ => rfl
  · exact typed_map _ fun _ => rfl
  · exact typed_ite rfl
  · exact typed_ite rfl
  · exact typed_ite rfl
  · exact typed_ite rfl
  · exact typed_toList _ fun _ => rfl
  · exact typed_toList _ fun _ => rfl
  · exact typed_toList _ fun _ => rfl

theorem ofType_flatMap {parts : List (UInt8 × List Bytes)}
    (typed : ∀ part ∈ parts, Typed part.1 part.2) (type : UInt8) :
    ofType type (parts.flatMap Prod.snd) = (parts.filter (·.1 = type)).flatMap Prod.snd := by
  induction parts with
  | nil => rfl
  | cons part rest ih =>
      rw [List.forall_mem_cons] at typed
      rw [List.flatMap_cons, ofType_append, typed.1.ofType, ih typed.2]
      by_cases same : part.1 = type
      · rw [if_pos same, List.filter_cons_of_pos (by simpa using same), List.flatMap_cons]
      · rw [if_neg same, List.filter_cons_of_neg (by simpa using same), List.nil_append]

/-- The options of a type are those of its section. -/
theorem ofType_allOptions (parsed : iface.Parsed) (type : UInt8) :
    ofType type (allOptions order kernel iface) =
      ((sections order kernel iface).filter (·.1 = type)).flatMap Prod.snd := by
  rw [← flatMap_sections, ofType_flatMap (typed_sections parsed)]

theorem wellFormed_of_mem_allOptions (parsed : iface.Parsed)
    (member : option ∈ allOptions order kernel iface) : WellFormed option := by
  rcases List.mem_append.mp member with inList | inTail
  · exact wellFormed_of_mem_listBlocks parsed inList
  · exact (wellFormed_of_mem_tailBlocks parsed inTail).1

theorem ofType_prefixes (parsed : iface.Parsed) :
    ofType ndOptPrefixInformation (allOptions order kernel iface) =
      prefixBlocks kernel iface iface.stateInfo.ceaseAdv iface.advPrefixList :=
  (ofType_allOptions parsed _).trans (List.append_nil _)

theorem ofType_nat64 (parsed : iface.Parsed) :
    ofType ndOptPref64 (allOptions order kernel iface) =
      iface.nat64PrefixList.map nat64prefixBlock :=
  (ofType_allOptions parsed _).trans (List.append_nil _)

theorem ofType_route (parsed : iface.Parsed) :
    ofType ndOptRouteInformation (allOptions order kernel iface) =
      iface.advRouteList.map (routeBlock · iface.stateInfo.ceaseAdv) :=
  (ofType_allOptions parsed _).trans (List.append_nil _)

theorem ofType_rdnss (parsed : iface.Parsed) :
    ofType ndOptRdnssInformation (allOptions order kernel iface) =
      rdnssBlocks iface.stateInfo.ceaseAdv iface.advRDNSSList :=
  (ofType_allOptions parsed _).trans (List.append_nil _)

theorem ofType_dnssl (parsed : iface.Parsed) :
    ofType ndOptDnsslInformation (allOptions order kernel iface) =
      dnsslBlocks iface.stateInfo.ceaseAdv iface.advDNSSLList :=
  (ofType_allOptions parsed _).trans (List.append_nil _)

theorem ofType_mtu (parsed : iface.Parsed) :
    ofType ndOptMtu (allOptions order kernel iface) =
      if iface.advLinkMTU ≠ 0 then [mtuBlock iface.advLinkMTU] else [] :=
  (ofType_allOptions parsed _).trans (List.append_nil _)

theorem ofType_homeAgentInfo (parsed : iface.Parsed) :
    ofType ndOptHomeAgentInfo (allOptions order kernel iface) =
      if sendsHomeAgentInfo iface then [homeAgentInfoBlock order iface.mipv6] else [] :=
  (ofType_allOptions parsed _).trans (List.append_nil _)

theorem ofType_lowpanco (parsed : iface.Parsed) :
    ofType ndOpt6co (allOptions order kernel iface) =
      (iface.advLowpanCoList.head?.map lowpancoBlock).toList :=
  (ofType_allOptions parsed _).trans (List.append_nil _)

theorem ofType_abro (parsed : iface.Parsed) :
    ofType ndOptAbro (allOptions order kernel iface) =
      (iface.advAbroList.head?.map abroBlock).toList :=
  (ofType_allOptions parsed _).trans (List.append_nil _)

theorem ofType_captivePortal (parsed : iface.Parsed) :
    ofType ndOptCaptivePortal (allOptions order kernel iface) =
      (iface.advCaptivePortalAPI.map capportBlock).toList :=
  (ofType_allOptions parsed _).trans (List.append_nil _)

end

end Radvd
