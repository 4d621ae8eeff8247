import Radvd.Dump.PrintFf
import Radvd.Library.Transducer

/-!
# The text that `print_ff` writes

The statements of `Radvd.Dump.PrintFf` as the octets their format strings print,
and a reader of such text. The reader follows the rules of `scanner.l`: a word
is a run of word characters, a `#` at the beginning of a word starts a comment
that goes to the end of the line, and a string stands between double quotes and
may hold escaped characters. It returns the semicolons and braces outside of
comments and strings, each with the first word before it.
-/

namespace Radvd.Dump

open Wire

/-! ## Characters -/

def ascii (text : String) : Bytes :=
  text.toList.map fun character => UInt8.ofNat character.toNat

/-- The conversions `%u`, `%hu` and `%lu`. -/
def decimal (value : Nat) : Bytes :=
  (Nat.toDigits 10 value).map fun character => UInt8.ofNat character.toNat

theorem digit_bounds {value : Nat} {character : Char} (member : character ∈ Nat.toDigits 10 value) :
    48 ≤ character.toNat ∧ character.toNat ≤ 57 := by
  have digit := Nat.isDigit_of_mem_toDigits (by decide) (by decide) member
  simp only [Char.isDigit, Bool.and_eq_true, decide_eq_true_eq, ge_iff_le] at digit
  exact digit

/-- The conversion `%d`. -/
def signedDecimal (value : Int) : Bytes :=
  (if value < 0 then ascii "-" else []) ++ decimal value.natAbs

def newline : UInt8 := 10

def hash : UInt8 := 35

def slash : UInt8 := 47

def semicolon : UInt8 := 59

def openingBrace : UInt8 := 123

def closingBrace : UInt8 := 125

/-- The characters of the first form of `string` in the scanner. -/
def isWordOctet (octet : UInt8) : Bool :=
  (97 ≤ octet && octet ≤ 122) || (65 ≤ octet && octet ≤ 90) || (48 ≤ octet && octet ≤ 57) ||
    octet ∈ ascii "`~!@#$%^&*()_-+=:[]<>,.?\\"

def isDigit (octet : UInt8) : Bool :=
  48 ≤ octet && octet ≤ 57

def isBlank (octet : UInt8) : Bool :=
  octet = 32 || octet = 9 || octet = newline

/-! ## Printing -/

theorem mem_intercalate {separator octet : UInt8} {fields : List Bytes}
    (member : octet ∈ [separator].intercalate fields) :
    octet = separator ∨ ∃ field ∈ fields, octet ∈ field := by
  induction fields with
  | nil => simp at member
  | cons field rest ih =>
      cases rest with
      | nil => exact .inr ⟨field, by simp, by simpa using member⟩
      | cons next others =>
          simp only [List.intercalate_cons_cons, List.append_assoc, List.mem_append,
            List.mem_singleton] at member
          rcases member with inField | isMark | later
          · exact .inr ⟨field, by simp, inField⟩
          · exact .inl isMark
          · rcases ih later with isMark | ⟨other, otherMem, inOther⟩
            · exact .inl isMark
            · exact .inr ⟨other, by simp [otherMem], inOther⟩

/-- The characters of an address in the text form of `inet_ntop`. -/
def isAddrOctet (octet : UInt8) : Bool :=
  octet ∈ ascii "0123456789abcdef:."

/-- What `print_ff` prints besides what it reads of the message: the version of
the program, the sender, what `addrtostr` makes of an address by `inet_ntop`,
and the name `if_indextoname` finds. -/
structure Texts where
  version : Bytes
  source : In6Addr
  addrtostr : In6Addr → Bytes
  ifName : Bytes
  newline_notMem_version : newline ∉ version
  isAddrOctet_addrtostr : ∀ addr, ∀ octet ∈ addrtostr addr, isAddrOctet octet = true
  isWordOctet_ifName : ∀ octet ∈ ifName, isWordOctet octet = true

def Keyword.text : Keyword → String
  | .advManagedFlag => "AdvManagedFlag"
  | .advOtherConfigFlag => "AdvOtherConfigFlag"
  | .advReachableTime => "AdvReachableTime"
  | .advRetransTimer => "AdvRetransTimer"
  | .advCurHopLimit => "AdvCurHopLimit"
  | .advDefaultLifetime => "AdvDefaultLifetime"
  | .advHomeAgentFlag => "AdvHomeAgentFlag"
  | .advSNACRouterFlag => "AdvSNACRouterFlag"
  | .advDefaultPreference => "AdvDefaultPreference"
  | .advLinkMTU => "AdvLinkMTU"
  | .advSourceLLAddress => "AdvSourceLLAddress"
  | .advIntervalOpt => "AdvIntervalOpt"
  | .advHomeAgentInfo => "AdvHomeAgentInfo"
  | .advMobRtrSupportFlag => "AdvMobRtrSupportFlag"
  | .homeAgentPreference => "HomeAgentPreference"
  | .homeAgentLifetime => "HomeAgentLifetime"
  | .advCaptivePortalAPI => "AdvCaptivePortalAPI"
  | .advTimestamp => "AdvTimestamp"
  | .advValidLifetime => "AdvValidLifetime"
  | .advPreferredLifetime => "AdvPreferredLifetime"
  | .advOnLink => "AdvOnLink"
  | .advAutonomous => "AdvAutonomous"
  | .advRouterAddr => "AdvRouterAddr"
  | .advDHCPv6PDPreferred => "AdvDHCPv6PDPreferred"
  | .advRoutePreference => "AdvRoutePreference"
  | .advRouteLifetime => "AdvRouteLifetime"
  | .advRDNSSLifetime => "AdvRDNSSLifetime"
  | .advDNSSLLifetime => "AdvDNSSLLifetime"

/-- `print_preferences`. -/
def Preference.text : Preference → String
  | .medium => "medium"
  | .high => "high"
  | .reserved => ""
  | .low => "low"

def Value.printed : Value → Bytes
  | .flag on => ascii (if on then "on" else "off")
  | .number value => decimal value
  | .infinity => ascii "infinity"
  | .preference shown => ascii shown.text
  | .text octets => ascii "\"" ++ (octets ++ ascii "\"")
  | .timestamp secs fracs =>
      ascii "\"" ++ (decimal secs ++ (ascii " secs, " ++ (decimal fracs ++ ascii " fracs\"")))

def Definition.keyword : Definition → String
  | .interface => "interface"
  | .prefixInfo _ _ => "prefix"
  | .route _ _ => "route"
  | .rdnss _ => "RDNSS"
  | .dnssl _ => "DNSSL"
  | .nat64Prefix _ _ => "nat64prefix"

/-- Words with a blank before each. -/
def spaced (words : List Bytes) : Bytes :=
  words.flatMap (32 :: ·)

/-- What stands between the keyword of a block and its opening brace. -/
def Texts.arguments (texts : Texts) : Definition → Bytes
  | .interface => 32 :: texts.ifName
  | .prefixInfo addr len | .route addr len =>
      32 :: (texts.addrtostr addr ++ (ascii "/" ++ decimal len))
  | .rdnss addrs => spaced (addrs.map texts.addrtostr)
  | .dnssl suffixes => spaced suffixes
  | .nat64Prefix addr size => 32 :: (texts.addrtostr addr ++ (ascii "/" ++ signedDecimal size))

/-- The comments before an interface, up to the line that opens it. -/
def Texts.preamble (texts : Texts) : Bytes :=
  ascii "#\n# radvd configuration generated by radvdump " ++ (texts.version ++
    (ascii "\n# based on Router Advertisement from " ++ (texts.addrtostr texts.source ++
      (ascii "\n# received by interface " ++ (texts.ifName ++ ascii "\n#\n\n")))))

/-- The `printf` of a statement; `within` is the block it stands in, unless that
is the interface. Messages to the log are not part of the output. -/
def Texts.statement (texts : Texts) (within : Option Definition) : Statement → Bytes
  | .opens .interface =>
      texts.preamble ++ (ascii "interface" ++ (texts.arguments .interface ++
        (ascii "\n\x7b\n\tAdvSendAdvert on;\n" ++ ascii
          "\t# Note: \x7bMin,Max\x7dRtrAdvInterval cannot be obtained with radvdump\n")))
  | .opens definition =>
      ascii "\n\t" ++ (ascii definition.keyword ++ (texts.arguments definition ++
        ascii "\n\t\x7b\n"))
  | .setting keyword value =>
      ascii (if within.isSome then "\t\t" else "\t") ++ (ascii keyword.text ++ (ascii " " ++
        (value.printed ++ ascii (if value = .infinity then "; # (0xffffffff)\n" else ";\n"))))
  | .closes =>
      match within with
      | none => ascii "\x7d; # End of interface definition\n"
      | some definition =>
          ascii "\t\x7d; # End of " ++ (ascii definition.keyword ++ ascii " definition\n\n")
  | .invalidRouteLength len =>
      ascii "# Invalid Route Information option length " ++
        (decimal len.toNat ++ ascii ", per RFC4191 section 2.3 ")
  | .invalidRdnssLength len =>
      ascii "# Invalid RDNSS length " ++ (decimal len.toNat ++ ascii ", per RFC8106 section 5.1 ")
  | .log _ => []

/-- The block that the statement after this one stands in. -/
def Statement.within (within : Option Definition) : Statement → Option Definition
  | .opens .interface => none
  | .opens definition => some definition
  | .closes => none
  | .setting _ _ | .invalidRouteLength _ | .invalidRdnssLength _ | .log _ => within

def Texts.render (texts : Texts) (within : Option Definition) : List Statement → Bytes
  | [] => []
  | statement :: rest =>
      texts.statement within statement ++ texts.render (statement.within within) rest

/-- What `print_ff` writes to its standard output. -/
def Texts.printFf (texts : Texts) (order : ByteOrder) (mem : Memory) (len : Nat) (edefs : Bool) :
    Bytes :=
  texts.render none (Dump.printFf order mem len edefs)

/-! ## Reading -/

inductive Mark where
  | opening
  | closing
  | semicolon
  deriving DecidableEq, Repr

/-- A brace or a semicolon, with the first token since the one before it. -/
structure Piece where
  head : Option Bytes
  mark : Mark
  deriving DecidableEq, Repr

inductive Mode where
  | between
  | word (first : Bool)
  | comment
  | quoted
  | escaped
  deriving DecidableEq, Repr

structure Scan where
  mode : Mode
  head : Option Bytes
  deriving DecidableEq, Repr

/-- A character that begins a token. -/
def beginToken (head : Option Bytes) (octet : UInt8) : List Piece × Scan :=
  if octet = openingBrace then ([⟨head, .opening⟩], ⟨.between, none⟩)
  else if octet = closingBrace then ([⟨head, .closing⟩], ⟨.between, none⟩)
  else if octet = semicolon then ([⟨head, .semicolon⟩], ⟨.between, none⟩)
  else if octet = hash then ([], ⟨.comment, head⟩)
  else if isBlank octet then ([], ⟨.between, head⟩)
  else if octet = doubleQuote then ([], ⟨.quoted, some (head.getD [])⟩)
  else if isWordOctet octet then
    ([], ⟨.word head.isNone, some (head.getD [octet])⟩)
  else ([], ⟨.between, some (head.getD [])⟩)

def nextScan (scan : Scan) (octet : UInt8) : List Piece × Scan :=
  match scan.mode with
  | .between => beginToken scan.head octet
  | .word first =>
      if isWordOctet octet then
        ([], ⟨.word first, if first then scan.head.map (· ++ [octet]) else scan.head⟩)
      else beginToken scan.head octet
  | .comment => ([], ⟨if octet = newline then .between else .comment, scan.head⟩)
  | .quoted =>
      ([], ⟨if octet = doubleQuote then .between
        else if octet = backslash then .escaped else .quoted, scan.head⟩)
  | .escaped => ([], ⟨.quoted, scan.head⟩)

/-- The marks of a text, unless it ends in a string or in a statement. -/
def readText (text : Bytes) : Option (List Piece) :=
  let scanned := Transducer.run nextScan ⟨.between, none⟩ text
  if scanned.2.mode = .quoted ∨ scanned.2.mode = .escaped ∨ scanned.2.head ≠ none then none
  else some scanned.1

/-! ## Well-formed definitions -/

/-- Statements, and blocks of statements, each with its own end. -/
inductive Body : List Piece → Prop
  | nil : Body []
  | simple {head : Bytes} {rest : List Piece} (body : Body rest) :
      Body (⟨some head, .semicolon⟩ :: rest)
  | block {head : Bytes} {settings : List Bytes} {rest : List Piece}
      (known : head ∈ ["prefix", "route", "RDNSS", "DNSSL", "nat64prefix"].map ascii)
      (body : Body rest) :
      Body (⟨some head, .opening⟩ :: (settings.map (fun keyword => ⟨some keyword, .semicolon⟩) ++
        ⟨none, .closing⟩ :: ⟨none, .semicolon⟩ :: rest))

/-- One interface with such a body. -/
def OneInterface (pieces : List Piece) : Prop :=
  ∃ body, Body body ∧
    pieces = ⟨some (ascii "interface"), .opening⟩ :: body ++
      [⟨none, .closing⟩, ⟨none, .semicolon⟩]

/-- The marks in the format string of a statement. -/
def Statement.pieces : Statement → List Piece
  | .opens .interface =>
      [⟨some (ascii "interface"), .opening⟩, ⟨some (ascii "AdvSendAdvert"), .semicolon⟩]
  | .opens definition => [⟨some (ascii definition.keyword), .opening⟩]
  | .setting keyword _ => [⟨some (ascii keyword.text), .semicolon⟩]
  | .closes => [⟨none, .closing⟩, ⟨none, .semicolon⟩]
  | .invalidRouteLength _ | .invalidRdnssLength _ | .log _ => []

/-- The text reads as the statements it was printed for, and these are one
definition of an interface. -/
def WellPrinted (text : Bytes) (statements : List Statement) : Prop :=
  readText text = some (statements.flatMap Statement.pieces) ∧
    OneInterface (statements.flatMap Statement.pieces)

end Radvd.Dump
