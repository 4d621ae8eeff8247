import Radvd.Send.Build

/-!
# Every option announces its own length

The length octet of each block that `build_ra_options` emits counts the block in
units of eight octets, for every encoder and every value it can be given. A
Prefix Information option, the only one a receiver expects to be longer than
eight octets, always has 32.
-/

namespace Radvd

open Wire Tlv SafeBufferList

/-! ## One lemma for each encoder -/

theorem wellFormed_cons {type octet : UInt8} {rest : Bytes} (pos : 1 ≤ octet.toNat)
    (length : rest.length + 2 = 8 * octet.toNat) : WellFormed (type :: octet :: rest) where
  octet_pos := pos
  length_eq := length

theorem wellFormed_of_units {block : Bytes} {units : Nat}
    (second : block.getD 1 0 = UInt8.ofNat units) (pos : 1 ≤ units) (bound : units ≤ 255)
    (length : block.length = units * 8) : WellFormed block := by
  have octet : (block.getD 1 0).toNat = units := by
    rw [second, UInt8.toNat_ofNat']
    omega
  exact ⟨by omega, by omega⟩

theorem wellFormed_prefixBlock (entry : AdvPrefix) (ceaseAdv : Bool) :
    WellFormed (prefixBlock entry ceaseAdv) :=
  wellFormed_cons (by decide) (by simp [piFlagsReserved])

theorem wellFormed_nat64prefixBlock (entry : NAT64Prefix) :
    WellFormed (nat64prefixBlock entry) :=
  wellFormed_cons (by decide) (by simp)

theorem routeLen_bounds {prefixLen : UInt8} (bound : prefixLen ≤ 128) :
    1 ≤ (routeLen prefixLen).toNat ∧ (routeLen prefixLen).toNat ≤ 3 := by
  simp only [routeLen]
  split_ifs <;> decide

theorem wellFormed_routeBlock {route : AdvRoute} (bound : route.prefixLen ≤ 128)
    (ceaseAdv : Bool) : WellFormed (routeBlock route ceaseAdv) := by
  have bounds := routeLen_bounds bound
  have second : (routeBlock route ceaseAdv).getD 1 0 = routeLen route.prefixLen := by
    rw [routeBlock, List.getD, List.getElem?_take_of_lt (by omega)]
    rfl
  refine ⟨?_, ?_⟩
  · rw [second]
    exact bounds.1
  · rw [second, length_routeBlock]
    omega

theorem wellFormed_rdnssBlock {rdnss : AdvRDNSS} (bound : rdnssBytes rdnss / 8 ≤ 255)
    (ceaseAdv : Bool) : WellFormed (rdnssBlock rdnss ceaseAdv) := by
  have length := length_rdnssBlock rdnss ceaseAdv
  refine wellFormed_of_units rfl ?_ bound ?_
  · rw [rdnssBytes]
    omega
  · rw [length, rdnssBytes]
    omega

theorem wellFormed_dnsslBlock {dnssl : AdvDNSSL} (bound : dnsslLen (dnsslBytes dnssl) ≤ 255)
    (ceaseAdv : Bool) : WellFormed (dnsslBlock dnssl ceaseAdv) := by
  apply wellFormed_of_units rfl _ bound (length_dnsslBlock dnssl ceaseAdv)
  rw [dnsslLen]
  omega

theorem wellFormed_sllaoBlock {sllao : Sllao} (bound : sllao.ifHwaddrLen ≤ 128) :
    WellFormed (sllaoBlock sllao) := by
  have small : 1 ≤ sllaoLen sllao ∧ sllaoLen sllao ≤ 3 := by
    simp only [sllaoLen, sllaoBytes]
    omega
  exact wellFormed_of_units rfl small.1 (by omega) (length_sllaoBlock bound)

theorem wellFormed_mtuBlock (advLinkMTU : UInt32) : WellFormed (mtuBlock advLinkMTU) :=
  wellFormed_cons (by decide) (by simp)

theorem wellFormed_rtrAdvIntervalBlock (maxRtrAdvInterval : ℚ) :
    WellFormed (rtrAdvIntervalBlock maxRtrAdvInterval) :=
  wellFormed_cons (by decide) (by simp)

theorem wellFormed_homeAgentInfoBlock (order : ByteOrder) (mipv6 : Mipv6) :
    WellFormed (homeAgentInfoBlock order mipv6) := by
  cases order <;> exact wellFormed_cons (by decide) (by simp [ByteOrder.store16])

theorem wellFormed_lowpancoBlock (lowpanco : AdvLowpanCo) :
    WellFormed (lowpancoBlock lowpanco) :=
  wellFormed_cons (by decide) (by simp)

theorem wellFormed_abroBlock (abro : AdvAbro) : WellFormed (abroBlock abro) :=
  wellFormed_cons (by decide) (by simp)

theorem wellFormed_capportBlock {url : Bytes} (bound : url.length ≤ 255) :
    WellFormed (capportBlock url) := by
  have small : 1 ≤ capportLen url ∧ capportLen url ≤ 33 := by
    simp only [capportLen]
    omega
  exact wellFormed_of_units rfl small.1 (by omega) (length_capportBlock url)

/-! ## The whole list -/

variable {kernel : Kernel} {iface : Interface} {order : ByteOrder} {block : Bytes}

theorem wellFormed_of_mem_listBlocks (parsed : iface.Parsed)
    (blockMem : block ∈ listBlocks kernel iface) : WellFormed block := by
  simp only [listBlocks, prefixBlocks, rdnssBlocks, dnsslBlocks, List.mem_append, List.mem_map,
    List.mem_filter, decide_eq_true_eq] at blockMem
  rcases blockMem with ⟨entry, -, rfl⟩ | ⟨entry, -, rfl⟩ | ⟨route, routeMem, rfl⟩ |
    ⟨rdnss, ⟨-, bound⟩, rfl⟩ | ⟨dnssl, ⟨-, bound⟩, rfl⟩
  · exact wellFormed_prefixBlock _ _
  · exact wellFormed_nat64prefixBlock _
  · exact wellFormed_routeBlock (parsed.route_prefixLen route routeMem) _
  · exact wellFormed_rdnssBlock bound _
  · exact wellFormed_dnsslBlock bound _

theorem wellFormed_of_mem_tailBlocks (parsed : iface.Parsed)
    (blockMem : block ∈ tailBlocks order iface) : WellFormed block ∧ block.length ≤ 264 := by
  simp only [tailBlocks, List.mem_append, List.mem_ite_nil_right, List.mem_singleton,
    Option.mem_toList, Option.map_eq_some_iff] at blockMem
  rcases blockMem with ⟨-, rfl⟩ | ⟨-, rfl⟩ | ⟨-, rfl⟩ | ⟨-, rfl⟩ | ⟨lowpanco, -, rfl⟩ |
    ⟨abro, -, rfl⟩ | ⟨url, urlMem, rfl⟩
  · exact ⟨wellFormed_mtuBlock _, by simp⟩
  · have := length_sllaoBlock_le iface.sllao
    exact ⟨wellFormed_sllaoBlock parsed.hwaddr_le, by omega⟩
  · exact ⟨wellFormed_rtrAdvIntervalBlock _, by simp⟩
  · exact ⟨wellFormed_homeAgentInfoBlock _ _, by simp⟩
  · exact ⟨wellFormed_lowpancoBlock _, by simp⟩
  · exact ⟨wellFormed_abroBlock _, by simp⟩
  · have bound := (parsed.capport_length url urlMem).2
    refine ⟨wellFormed_capportBlock bound, ?_⟩
    rw [length_capportBlock, capportLen]
    omega

/-- Only Prefix Information options have the type of one. -/
theorem prefix_length_of_mem_listBlocks (parsed : iface.Parsed)
    (blockMem : block ∈ listBlocks kernel iface)
    (isPrefix : block.getD 0 0 = ndOptPrefixInformation) : block.length = 32 := by
  simp only [listBlocks, prefixBlocks, rdnssBlocks, dnsslBlocks, List.mem_append, List.mem_map]
    at blockMem
  rcases blockMem with ⟨entry, -, rfl⟩ | ⟨entry, -, rfl⟩ | ⟨route, routeMem, rfl⟩ |
    ⟨rdnss, -, rfl⟩ | ⟨dnssl, -, rfl⟩
  · exact length_prefixBlock _ _
  · exact absurd isPrefix (by decide : ndOptPref64 ≠ ndOptPrefixInformation)
  · have bounds := routeLen_bounds (parsed.route_prefixLen route routeMem)
    rw [routeBlock, List.getD, List.getElem?_take_of_lt (by omega)] at isPrefix
    exact absurd isPrefix (by simp [routeInfo, ndOptRouteInformation, ndOptPrefixInformation])
  · exact absurd isPrefix (by decide : ndOptRdnssInformation ≠ ndOptPrefixInformation)
  · exact absurd isPrefix (by decide : ndOptDnsslInformation ≠ ndOptPrefixInformation)

theorem ne_prefix_of_mem_tailBlocks (blockMem : block ∈ tailBlocks order iface) :
    block.getD 0 0 ≠ ndOptPrefixInformation := by
  simp only [tailBlocks, List.mem_append, List.mem_ite_nil_right, List.mem_singleton,
    Option.mem_toList, Option.map_eq_some_iff] at blockMem
  rcases blockMem with ⟨-, rfl⟩ | ⟨-, rfl⟩ | ⟨-, rfl⟩ | ⟨-, rfl⟩ | ⟨lowpanco, -, rfl⟩ |
    ⟨abro, -, rfl⟩ | ⟨url, -, rfl⟩
  · exact (by decide : ndOptMtu ≠ ndOptPrefixInformation)
  · exact (by decide : ndOptSourceLinkaddr ≠ ndOptPrefixInformation)
  · exact (by decide : ndOptRtrAdvInterval ≠ ndOptPrefixInformation)
  · exact (by decide : ndOptHomeAgentInfo ≠ ndOptPrefixInformation)
  · exact (by decide : ndOpt6co ≠ ndOptPrefixInformation)
  · exact (by decide : ndOptAbro ≠ ndOptPrefixInformation)
  · exact (by decide : ndOptCaptivePortal ≠ ndOptPrefixInformation)

/-- The head of the chain is empty only if no list contributes a block. -/
theorem extend_listBlocks (parsed : iface.Parsed) :
    extend [[]] (listBlocks kernel iface) =
      if listBlocks kernel iface = [] then [[]] else listBlocks kernel iface :=
  extend_head fun _ blockMem => (wellFormed_of_mem_listBlocks parsed blockMem).ne_nil

/-- The blocks `build_ra_options` returns, whenever it returns. -/
theorem blocks_of_buildRaOptions {sbl : SafeBufferList} {dest : In6Addr} (parsed : iface.Parsed)
    (built : buildRaOptions order kernel iface dest = .ok sbl) :
    sbl.blocks = (if listBlocks kernel iface = [] then [[]] else listBlocks kernel iface) ++
      tailBlocks order iface := by
  by_cases fits : iface.DnsslFits
  · rcases buildRaOptions_ok order kernel dest parsed fits with ⟨other, otherEq, otherBlocks⟩
    rw [otherEq] at built
    cases built
    rw [otherBlocks, extend_listBlocks parsed]
  · rw [buildRaOptions_error order kernel dest parsed fits] at built
    cases built

end Radvd
