import Radvd.Answers
import Radvd.Library.Names
import Radvd.Transmitted

/-!
# Foreign search domains

`process_ra` means to complain of the search domains that another router announces
and this one does not. The string it puts a name together in starts anew with every
label, so when the name ends it is empty, and nothing is reported
(`reported_eq_nil`). That is right only where there is nothing to report
(`reportsForeign_iff`).
-/

namespace Radvd

open Wire Tlv Access Names

/-- A name as it is written. -/
def dotted (labels : List Bytes) : Bytes :=
  [dot].intercalate labels

/-- The option holds these names, and zero octets behind them. -/
structure HoldsNames (option : Bytes) (names : List (List Bytes)) : Prop where
  suffixes_eq : ∃ padding, option.drop 8 = names.flatMap nameOctets ++ List.replicate padding 0
  isName : ∀ labels ∈ names, IsName labels
  noNul : ∀ labels ∈ names, ∀ label ∈ labels, 0 ∉ label

/-- The names in the DNSSL options of an RA. -/
def Packet.Announces (packet : Packet) (received : List (List (List Bytes))) : Prop :=
  List.Forall₂ HoldsNames
    (ofType ndOptDnsslInformation (raOptions (packet.msg.slice 0 packet.len))) received

/-- The names that are not advertised by the interface, once for each time they are
received. -/
def foreignNames (iface : Interface) (received : List (List (List Bytes))) : List Bytes :=
  (received.flatten.map dotted).filter fun suffix =>
    !checkDnsslPresence iface.advDNSSLList suffix

def ReceiveNote.foreignSuffix : ReceiveNote → Option Bytes
  | .flog (.dnsslNotAdvertised suffix) => some suffix
  | _ => none

/-- The suffixes that `process_ra` complains of. -/
def reported (packet : Packet) (iface : Interface) : List Bytes :=
  (processRa packet iface).notes.filterMap ReceiveNote.foreignSuffix

/-- It complains of exactly the foreign names. -/
def ReportsForeign (packet : Packet) (iface : Interface) (received : List (List (List Bytes))) :
    Prop :=
  reported packet iface = foreignNames iface received

section

variable {packet : Packet} {iface : Interface} {received : List (List (List Bytes))}

theorem reported_eq_nil : reported packet iface = [] := by
  let silent (event : Event ReceiveNote) : Prop :=
    ∀ suffix, event ≠ .note (.flog (.dnsslNotAdvertised suffix))
  have ofRa : HoldsOfRa silent := by
    constructor
    · exact fun offset suffix same => by cases same
    · exact fun length suffix same => by cases same
    · rintro complaint usual suffix same
      cases same
      cases usual
  have all := @HoldsOfRa.processRa iface silent ofRa packet
  unfold reported
  apply List.filterMap_eq_nil_iff.mpr
  intro what member
  rcases List.mem_filterMap.mp member with ⟨event, listed, noted⟩
  cases event with
  | read offset => cases noted
  | note other =>
      cases noted
      unfold ReceiveNote.foreignSuffix
      split
      · exact absurd rfl (all _ listed _)
      · rfl

theorem foreignNames_eq_nil_iff :
    foreignNames iface received = [] ↔ ∀ labels ∈ received.flatten,
      checkDnsslPresence iface.advDNSSLList (dotted labels) = true := by
  simp only [foreignNames, List.filter_eq_nil_iff, List.forall_mem_map, Bool.not_eq_true',
    Bool.not_eq_false]

/-- The foreign names of an RA are reported exactly if there are none. -/
theorem reportsForeign_iff :
    packet.Announces received → (ReportsForeign packet iface received ↔
      ∀ labels ∈ received.flatten,
        checkDnsslPresence iface.advDNSSLList (dotted labels) = true) := by
  intro _
  rw [ReportsForeign, reported_eq_nil, eq_comm, foreignNames_eq_nil_iff]

end

/-- An RA with the search domain `a.b`. -/
def searchingRa : Packet :=
  .received [134, 0, 0, 0, 64, 0, 7, 8, 0, 0, 0, 0, 0, 0, 0, 0,
    31, 2, 0, 0, 0, 0, 0, 60, 1, 97, 1, 98, 0, 0, 0, 0] linkLocalAddr

theorem announces_searchingRa : searchingRa.Announces [[[[97], [98]]]] := by
  have single : ofType ndOptDnsslInformation
      (raOptions (searchingRa.msg.slice 0 searchingRa.len)) =
        [[31, 2, 0, 0, 0, 0, 0, 60, 1, 97, 1, 98, 0, 0, 0, 0]] := by with_unfolding_all decide
  rw [Packet.Announces, single]
  exact .cons ⟨⟨3, by decide⟩, by decide, by decide⟩ .nil

/-- An interface that advertises `a.b` itself. -/
def searchDomain : Interface :=
  { ifaceInitDefaults with
    advDNSSLList := [{ dnsslInitDefaults ifaceInitDefaults with advDNSSLSuffixes := [[97, 46, 98]] }] }

theorem reportsForeign_searchDomain : ReportsForeign searchingRa searchDomain [[[[97], [98]]]] :=
  (reportsForeign_iff announces_searchingRa).mpr (by with_unfolding_all decide)

/-- The RA is not reported by an interface without search domains. -/
theorem not_reportsForeign :
    searchingRa.Announces [[[[97], [98]]]] ∧
      foreignNames ifaceInitDefaults [[[[97], [98]]]] = [[97, 46, 98]] ∧
      ¬ReportsForeign searchingRa ifaceInitDefaults [[[[97], [98]]]] := by
  have foreign : foreignNames ifaceInitDefaults [[[[97], [98]]]] = [[97, 46, 98]] := by decide
  refine ⟨announces_searchingRa, foreign, ?_⟩
  intro reports
  rw [ReportsForeign, reported_eq_nil, foreign] at reports
  cases reports

end Radvd
