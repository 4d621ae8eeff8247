import Radvd.Defs

/-!
# Default values of `interface.c`

The interface and the list entries as the parser finds them before it reads the
first setting.
-/

namespace Radvd

def ifaceInitDefaults : Interface where
  ignoreIfMissing := true
  advSendAdvert := false
  maxRtrAdvInterval := 600
  minRtrAdvInterval := -1
  minDelayBetweenRAs := 3
  advSourceLLAddress := true
  removeAdvOnExit := true
  unicastOnly := false
  unrestrictedUnicast := false
  advRASolicitedUnicast := true
  advCaptivePortalAPI := none
  clientList := []
  stateInfo := { ready := false, changed := true, ceaseAdv := false, racount := 0 }
  props :=
    { name := []
      ifIndex := 0
      ifAddr := In6Addr.unspecified
      ifAddrs := []
      addrsCount := 0
      ifAddrRasrc := none
      maxRaOptionSize := 0 }
  raHeaderInfo :=
    { advManagedFlag := false
      advOtherConfigFlag := false
      advCurHopLimit := 64
      advHomeAgentFlag := false
      advSNACRouterFlag := false
      advDefaultLifetime := -1
      advDefaultPreference := 0
      advReachableTime := 0
      advRetransTimer := 0 }
  times := { lastMulticast := ⟨0, 0⟩, nextMulticast := ⟨0, 0⟩, lastRaTime := ⟨0, 0⟩ }
  advPrefixList := []
  advRouteList := []
  advRDNSSList := []
  advDNSSLList := []
  nat64PrefixList := []
  ignorePrefixList := []
  advLinkMTU := 0
  advRAMTU := 1280
  sllao := { ifHwaddr := Vector.replicate 16 0, ifHwaddrLen := 0, ifPrefixLen := 0, ifMaxmtu := 0 }
  mipv6 :=
    { advIntervalOpt := false
      advHomeAgentInfo := false
      homeAgentPreference := 0
      homeAgentLifetime := -1
      advMobRtrSupportFlag := false }
  advLowpanCoList := []
  advAbroList := []
  advRASrcAddressList := []

/-- An interface whose block sets nothing but `MaxRtrAdvInterval`. -/
def intervalDefaults (max : ℚ) : Interface :=
  { ifaceInitDefaults with maxRtrAdvInterval := max }

def prefixInitDefaults : AdvPrefix where
  prefixAddr := In6Addr.unspecified
  prefixLen := 0
  advOnLinkFlag := true
  advAutonomousFlag := true
  advDHCPv6PDPreferredFlag := false
  advValidLifetime := 86400
  advPreferredLifetime := 14400
  deprecatePrefixFlag := false
  decrementLifetimesFlag := false
  currValidlft := 86400
  currPreferredlft := 14400
  advRouterAddr := false
  if6to4 := []
  if6 := []

/-- A `double` of seconds in a field of 32 bits. -/
def secondsField (value : ℚ) : UInt32 :=
  UInt32.ofNat value.floor.toNat

def nat64prefixInitDefaults (iface : Interface) : NAT64Prefix where
  prefixAddr := In6Addr.unspecified
  prefixLen := 0
  advValidLifetime := secondsField (min 65528 (3 * iface.maxRtrAdvInterval))
  currValidlft := secondsField (min 65528 (3 * iface.maxRtrAdvInterval))

def routeInitDefaults (iface : Interface) : AdvRoute where
  prefixAddr := In6Addr.unspecified
  prefixLen := 0
  advRoutePreference := 0
  advRouteLifetime := secondsField (3 * iface.maxRtrAdvInterval)
  removeRouteFlag := true

def rdnssInitDefaults (iface : Interface) : AdvRDNSS where
  advRDNSSLifetime := secondsField (3 * iface.maxRtrAdvInterval)
  flushRDNSSFlag := true
  advRDNSSAddr := []

def dnsslInitDefaults (iface : Interface) : AdvDNSSL where
  advDNSSLLifetime := secondsField (3 * iface.maxRtrAdvInterval)
  flushDNSSLFlag := true
  advDNSSLSuffixes := []

end Radvd
