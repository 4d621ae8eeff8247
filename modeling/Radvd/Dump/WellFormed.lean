import Mathlib.Data.List.Induction
import Radvd.Dump.Blocks
import Radvd.Dump.Statements
import Radvd.Grammar.Addresses

/-!
# When the text of `print_ff` is well formed

The text of `print_ff` is one definition of an interface, which reads as it was
printed, exactly under the condition `PrintsWell` (`printFf_wellPrinted_iff`): the
second walk must not end in a comment without a newline
(`commentedAfter_printedBlocks`), and search lists must be harmless
(`harmless_printedBlocks`).
-/

namespace Radvd.Dump

open Wire Tlv Transducer

/-! ## Arguments of blocks -/

theorem plain_spaced {words : List Bytes} (plain : ∀ word ∈ words, Plain word) :
    Plain (spaced words) := by
  intro octet octetMem
  simp only [spaced, List.mem_flatMap, List.mem_cons] at octetMem
  obtain ⟨word, wordMem, rfl | octetMem⟩ := octetMem
  · decide
  · exact plain word wordMem octet octetMem

theorem plain_arguments {texts : Texts} {definition : Definition}
    (notDnssl : ∀ suffixes, definition ≠ .dnssl suffixes) (nested : definition ≠ .interface) :
    Plain (texts.arguments definition) := by
  have blank : Plain [32] := by decide
  have slash : Plain (ascii "/") := by decide
  cases definition with
  | interface => exact absurd rfl nested
  | prefixInfo addr len | route addr len =>
      exact plain_append.mpr ⟨blank, plain_append.mpr ⟨plain_addrtostr texts addr,
        plain_append.mpr ⟨slash, plain_decimal len⟩⟩⟩
  | rdnss addrs =>
      apply plain_spaced
      intro word wordMem
      obtain ⟨addr, -, rfl⟩ := List.mem_map.mp wordMem
      exact plain_addrtostr texts addr
  | dnssl suffixes => exact absurd rfl (notDnssl suffixes)
  | nat64Prefix addr size =>
      exact plain_append.mpr ⟨blank, plain_append.mpr ⟨plain_addrtostr texts addr,
        plain_append.mpr ⟨slash, plain_signedDecimal size⟩⟩⟩

theorem sanitized_of_mem_dnsslLoop {mem : Memory} {suffixes limit offset : Nat} {suffix printed : Bytes}
    (printedMem : printed ∈ (dnsslLoop mem suffixes limit offset suffix).1) :
    ∃ octets, printed = sanitized octets := by
  fun_induction dnsslLoop mem suffixes limit offset suffix with
  | case1 offset before labelLen zero ih => exact ih printedMem
  | case2 offset suffix before labelLen zero filled rest ih =>
      rcases List.mem_cons.mp printedMem with rfl | later
      · exact ⟨suffix, rfl⟩
      · exact ih later
  | case3 => simp at printedMem
  | case4 offset suffix before labelLen nonzero fits label ih => exact ih printedMem
  | case5 => simp at printedMem

theorem tame_dnssl (texts : Texts) (mem : Memory) (optStr : Nat) :
    (Statement.opens (.dnssl (dnsslSuffixes mem optStr).1)).Tame texts := by
  have shown : ∀ printed ∈ (dnsslSuffixes mem optStr).1, ∃ octets, printed = sanitized octets :=
    fun printed printedMem => sanitized_of_mem_dnsslLoop printedMem
  generalize (dnsslSuffixes mem optStr).1 = suffixes at shown
  refine ⟨by simp, ?_, ?_⟩
  · simp only [Texts.arguments, spaced]
    induction suffixes with
    | nil => exact .nil
    | cons printed rest ih =>
        simp only [List.mem_cons, forall_eq_or_imp] at shown
        obtain ⟨octets, rfl⟩ := shown.1
        have first : Escaped (32 :: sanitized octets) :=
          .plain (by decide) (by decide) (escaped_sanitized octets)
        exact first.append (ih shown.2)
  · simp only [Texts.arguments, spaced, List.mem_flatMap, List.mem_cons, not_exists, not_and, not_or]
    intro printed printedMem
    obtain ⟨octets, rfl⟩ := shown printed printedMem
    exact ⟨by decide, newline_notMem_sanitized octets⟩

theorem OpenedFor.tame {mem : Memory} {visit : Visit} {definition : Definition}
    (opened : OpenedFor mem visit definition) (texts : Texts) :
    (Statement.opens definition).Tame texts := by
  obtain ⟨nested, notDnssl | ⟨-, rfl⟩⟩ := opened
  · have plain := @plain_arguments texts definition notDnssl nested
    exact ⟨nested, escaped_of_plain plain, newline_notMem_of_plain plain⟩
  · exact tame_dnssl texts mem visit.offset

/-! ## Lines and blocks together -/

section

variable {texts : Texts} {mem : Memory} {visit : Visit} {statements : List Statement}

theorem shown_of_isLine (lines : ∀ statement ∈ statements, statement.IsLine) :
    Shown false statements ∧ commentedAfter false statements = false := by
  induction statements with
  | nil => exact ⟨trivial, rfl⟩
  | cons statement rest ih =>
      simp only [List.mem_cons, forall_eq_or_imp] at lines
      have later := ih lines.2
      cases statement with
      | setting keyword value => exact ⟨⟨rfl, later.1⟩, later.2⟩
      | log message => exact ⟨⟨trivial, later.1⟩, later.2⟩
      | _ => exact absurd lines.1 id

theorem readable_of_isLine {statement : Statement} (line : statement.IsLine) :
    statement.Readable texts := by
  cases statement with
  | setting keyword value => exact line
  | log message => trivial
  | _ => exact absurd line id

theorem body_of_isLine (lines : ∀ statement ∈ statements, statement.IsLine) {rest : List Piece}
    (body : Body rest) : Body (statements.flatMap Statement.pieces ++ rest) := by
  induction statements with
  | nil => exact body
  | cons statement others ih =>
      simp only [List.mem_cons, forall_eq_or_imp] at lines
      cases statement with
      | setting keyword value => exact .simple (ih lines.2)
      | log message => exact ih lines.2
      | _ => exact absurd lines.1 id

theorem tame_of_isBlock (block : IsBlock (OpenedFor mem visit) statements) :
    ∀ statement ∈ statements, statement.Tame texts := by
  induction block with
  | nil => simp
  | log block ih => simpa [Statement.Tame] using ih
  | invalidRouteLength => simp [Statement.Tame]
  | invalidRdnssLength => simp [Statement.Tame]
  | @block definition settings valid isSetting =>
      simp only [List.mem_cons, List.mem_append, List.not_mem_nil, or_false]
      rintro statement (rfl | settingMem | rfl)
      · exact valid.tame texts
      · have setting := isSetting statement settingMem
        cases statement with
        | setting keyword value => exact setting
        | _ => exact absurd setting id
      · trivial

theorem shown_of_isBlock (block : IsBlock (OpenedFor mem visit) statements) (commented : Bool) :
    Shown commented statements := by
  induction block with
  | nil => trivial
  | log block ih => exact ⟨trivial, ih⟩
  | invalidRouteLength => exact ⟨trivial, trivial⟩
  | invalidRdnssLength => exact ⟨trivial, trivial⟩
  | @block definition settings valid isSetting =>
      have lines := shown_of_isLine fun statement statementMem =>
        (isSetting statement statementMem).isLine
      refine ⟨?_, shown_append.mpr ⟨lines.1, ?_⟩⟩
      · cases definition with
        | interface => exact absurd rfl valid.1
        | _ => trivial
      · simp only [Statement.commented, lines.2]
        exact ⟨rfl, trivial⟩

theorem keywords_of_isSetting (isSetting : ∀ statement ∈ statements, statement.IsSetting) :
    ∃ keywords : List Bytes, statements.flatMap Statement.pieces =
      keywords.map fun keyword => ⟨some keyword, .semicolon⟩ := by
  induction statements with
  | nil => exact ⟨[], rfl⟩
  | cons statement rest ih =>
      simp only [List.mem_cons, forall_eq_or_imp] at isSetting
      obtain ⟨keywords, pieces⟩ := ih isSetting.2
      cases statement with
      | setting keyword value =>
          exact ⟨ascii keyword.text :: keywords, by simp [Statement.pieces, pieces]⟩
      | _ => exact absurd isSetting.1 id

theorem body_of_isBlock (block : IsBlock (OpenedFor mem visit) statements)
    {rest : List Piece} (body : Body rest) :
    Body (statements.flatMap Statement.pieces ++ rest) := by
  induction block with
  | nil => exact body
  | log block ih => exact ih
  | invalidRouteLength => exact body
  | invalidRdnssLength => exact body
  | @block definition settings valid isSetting =>
      obtain ⟨keywords, pieces⟩ := keywords_of_isSetting isSetting
      have known : ascii definition.keyword ∈
          ["prefix", "route", "RDNSS", "DNSSL", "nat64prefix"].map ascii := by
        apply List.mem_map_of_mem
        cases definition with
        | interface => exact absurd rfl valid.1
        | _ => simp [Definition.keyword]
      have closes : Statement.closes.pieces = [⟨none, .closing⟩, ⟨none, .semicolon⟩] := rfl
      have whole := @Body.block _ keywords _ known body
      simpa only [List.flatMap_cons, List.flatMap_append, List.flatMap_nil, List.append_nil,
        pieces_opens valid.1, pieces, closes, List.cons_append, List.nil_append,
        List.append_assoc] using whole

theorem harmless_of_isBlock (block : IsBlock (OpenedFor mem visit) statements)
    (harmless : mem visit.offset = ndOptDnsslInformation →
      Harmless (spaced (dnsslSuffixes mem visit.offset).1)) :
    ∀ statement ∈ statements, statement.Harmless texts := by
  induction block with
  | nil => simp
  | log block ih => simpa [Statement.Harmless] using ih
  | invalidRouteLength => simp [Statement.Harmless]
  | invalidRdnssLength => simp [Statement.Harmless]
  | @block definition settings valid isSetting =>
      simp only [List.mem_cons, List.mem_append, List.not_mem_nil, or_false]
      rintro statement (rfl | settingMem | rfl)
      · obtain ⟨nested, notDnssl | ⟨isDnssl, rfl⟩⟩ := valid
        · have plain := @plain_arguments texts definition notDnssl nested
          exact harmless_of_forall fun octet octetMem => (plain octet octetMem).1
        · exact harmless isDnssl
      · have setting := isSetting statement settingMem
        cases statement with
        | setting keyword value => trivial
        | _ => exact absurd setting id
      · trivial

end

/-- The options for which the second walk prints nothing. -/
def silent (mem : Memory) (visit : Visit) : Bool :=
  mem visit.offset ∉ [ndOptPrefixInformation, ndOptRouteInformation, ndOptRdnssInformation,
      ndOptDnsslInformation] &&
    (mem visit.offset ≠ ndOptPref64 || visit.optlen ≠ 16)

theorem commentedAfter_closes (commented : Bool) (statements : List Statement) :
    commentedAfter commented (statements ++ [.closes]) = false := by
  rw [commentedAfter_append]
  rfl

theorem commentedAfter_printRoute {mem : Memory} {visit : Visit}
    (route : mem visit.offset = ndOptRouteInformation) (edefs commented : Bool) :
    commentedAfter commented (printRoute mem edefs visit) = misSized mem visit := by
  have settings : ∀ commented definition, commentedAfter commented
      (.opens definition :: printRouteSettings mem edefs visit.offset) = false := by
    intro commented definition
    unfold printRouteSettings
    split <;> rfl
  unfold printRoute misSized
  simp only [route, if_true]
  split
  · rename_i short
    simp [short, settings]
  · rename_i long
    split
    · rename_i invalid
      simp only [invalid, long, ne_eq, not_false_eq_true, decide_true, Bool.and_self]
      rfl
    · rename_i valid
      rw [settings]
      simp only [Bool.not_eq_true] at valid
      simp only [valid, Bool.and_false]

theorem commentedAfter_printRdnss {mem : Memory} {visit : Visit}
    (rdnss : mem visit.offset = ndOptRdnssInformation) (commented : Bool) :
    commentedAfter commented (printRdnss mem visit.offset) = misSized mem visit := by
  have notRoute : ndOptRdnssInformation ≠ ndOptRouteInformation := by decide
  unfold printRdnss misSized
  simp only [rdnss, notRoute, if_false, decide_true, Bool.true_and]
  split
  · rename_i valid
    simp only [valid, Bool.not_true]
    rfl
  · rename_i invalid
    simp only [Bool.not_eq_true] at invalid
    simp only [invalid, Bool.not_false]
    rfl

theorem commentedAfter_printPref64 {mem : Memory} {visit : Visit}
    (pref64 : mem visit.offset = ndOptPref64) (commented : Bool) :
    commentedAfter commented (printPref64 mem visit) =
      (misSized mem visit || (silent mem visit && commented)) := by
  have right : misSized mem visit = false := by
    unfold misSized
    rw [pref64]
    rfl
  have type : (ndOptPref64 ∉ [ndOptPrefixInformation, ndOptRouteInformation,
      ndOptRdnssInformation, ndOptDnsslInformation]) = True := by decide
  unfold printPref64
  simp only [right, silent, pref64, type, ne_eq, not_true_eq_false, decide_true, decide_false,
    Bool.true_and, Bool.false_or]
  split
  · rename_i wrong
    simp only [wrong, not_false_eq_true, decide_true, Bool.true_and]
    rfl
  · rename_i exact
    simp only [exact, decide_false, Bool.false_and]
    split <;> rfl

theorem commentedAfter_printBlock (mem : Memory) (edefs : Bool) (visit : Visit)
    (commented : Bool) :
    commentedAfter commented (printBlock mem edefs visit) =
      (misSized mem visit || (silent mem visit && commented)) := by
  unfold printBlock
  simp only
  split
  · rename_i isPrefix
    have right : misSized mem visit = false := by
      unfold misSized
      rw [isPrefix]
      rfl
    have shows : silent mem visit = false := by simp [silent, isPrefix]
    rw [right, shows]
    exact commentedAfter_closes ..
  split
  · rename_i route
    have shows : silent mem visit = false := by simp [silent, route]
    rw [commentedAfter_printRoute route, shows, Bool.false_and, Bool.or_false]
  split
  · rename_i rdnss
    have shows : silent mem visit = false := by simp [silent, rdnss]
    rw [commentedAfter_printRdnss rdnss, shows, Bool.false_and, Bool.or_false]
  split
  · rename_i dnssl
    have right : misSized mem visit = false := by
      unfold misSized
      rw [dnssl]
      rfl
    have shows : silent mem visit = false := by simp [silent, dnssl]
    rw [right, shows]
    unfold printDnssl
    rw [commentedAfter_append]
    rfl
  split
  · rename_i pref64
    exact commentedAfter_printPref64 pref64 commented
  · rename_i isPrefix route rdnss dnssl pref64
    have right : misSized mem visit = false := by simp [misSized, route, rdnss]
    have hides : silent mem visit = true := by simp [silent, isPrefix, route, rdnss, dnssl, pref64]
    rw [right, hides]
    rfl

/-- After the second walk a comment goes on if and only if the last option that
prints something prints a comment. -/
theorem commentedAfter_blocks (mem : Memory) (edefs : Bool) (visits : List Visit) :
    commentedAfter false (visits.flatMap (printBlock mem edefs)) = true ↔
      ∃ before visit after, visits = before ++ visit :: after ∧ misSized mem visit = true ∧
        ∀ other ∈ after, silent mem other = true := by
  induction visits using List.reverseRecOn with
  | nil => simp [commentedAfter]
  | append_singleton visits last ih =>
      simp only [List.flatMap_append, List.flatMap_singleton, commentedAfter_append,
        commentedAfter_printBlock, Bool.or_eq_true, Bool.and_eq_true]
      constructor
      · rintro (wrong | ⟨hides, earlier⟩)
        · exact ⟨visits, last, [], rfl, wrong, by simp⟩
        · obtain ⟨before, visit, after, rfl, wrong, hidden⟩ := ih.mp earlier
          refine ⟨before, visit, after ++ [last], by simp, wrong, ?_⟩
          simp only [List.forall_mem_append, List.forall_mem_singleton]
          exact ⟨hidden, hides⟩
      · rintro ⟨before, visit, after, whole, wrong, hidden⟩
        rcases List.eq_nil_or_concat' after with rfl | ⟨others, final, rfl⟩
        · have same := List.append_inj_right' whole rfl
          simp only [List.cons.injEq, and_true] at same
          exact .inl (same ▸ wrong)
        · simp only [List.forall_mem_append, List.forall_mem_singleton] at hidden
          rw [← List.cons_append, ← List.append_assoc] at whole
          have same := List.append_inj' whole rfl
          simp only [List.cons.injEq, and_true] at same
          exact .inr ⟨same.2 ▸ hidden.2, ih.mpr ⟨before, visit, others, same.1, wrong, hidden.1⟩⟩

/-! ## The function -/

/-- When the text of `print_ff` is well formed: the message has options, and,
unless one that is too long ends the output, the last option that prints
something in the second walk is not a Route Information or RDNSS option of a
wrong length, and no semicolon, brace or double quote stands in a search list
before a `#` that begins a word. -/
structure PrintsWell (mem : Memory) (len : Nat) : Prop where
  options : len ≠ 16
  last : (printFfWalk mem len).2 ≠ .overlong → ∀ before visit after,
    (printFfWalk mem len).1 = before ++ visit :: after →
    (∀ other ∈ after, silent mem other = true) → misSized mem visit = false
  suffixes : (printFfWalk mem len).2 ≠ .overlong → ∀ visit ∈ (printFfWalk mem len).1,
    mem visit.offset = ndOptDnsslInformation →
    Harmless (spaced (dnsslSuffixes mem visit.offset).1)

theorem render_append (texts : Texts) (first second : List Statement)
    (within : Option Definition) :
    ∃ later, texts.render within (first ++ second) =
      texts.render within first ++ texts.render later second := by
  induction first generalizing within with
  | nil => exact ⟨within, rfl⟩
  | cons statement rest ih =>
      obtain ⟨later, whole⟩ := ih (statement.within within)
      exact ⟨later, by simp [Texts.render, whole]⟩

/-- The end of a block is lost in a comment that goes on before it. -/
theorem reads_closes_commented (texts : Texts) (within : Option Definition) :
    Reads nextScan (boundary true) (texts.statement within .closes) [] (boundary false) := by
  cases within with
  | none => rfl
  | some definition =>
      have opens : Reads nextScan (boundary true) (ascii "\t\x7d; # End of ") []
          ⟨.comment, none⟩ := rfl
      have named : newline ∉ ascii definition.keyword := by
        intro lineEnd
        have word := (isHead_definition definition).2.2 newline lineEnd
        revert word
        decide
      have ends : Reads nextScan ⟨.comment, none⟩ (ascii " definition\n\n") []
          (boundary false) := rfl
      exact opens.append ((reads_comment named).append ends)

theorem readText_eq_some {text : Bytes} {pieces : List Piece} :
    readText text = some pieces ↔ ∃ last : Scan, last.mode.Quiet ∧ last.head = none ∧
      Reads nextScan (boundary false) text pieces last := by
  have start : boundary false = ⟨.between, none⟩ := rfl
  unfold readText Reads
  rw [start]
  generalize run nextScan ⟨.between, none⟩ text = scanned
  obtain ⟨written, last⟩ := scanned
  simp only [Mode.Quiet]
  split
  · rename_i lost
    simp only [reduceCtorEq, Prod.mk.injEq, false_iff, not_exists, not_and]
    rintro other ⟨notQuoted, notEscaped⟩ empty - rfl
    rcases lost with quoted | escaped | pending
    · exact notQuoted quoted
    · exact notEscaped escaped
    · exact pending empty
  · rename_i ended
    simp only [not_or, not_not] at ended
    simp only [Option.some.injEq, Prod.mk.injEq]
    constructor
    · rintro rfl
      exact ⟨last, ⟨ended.1, ended.2.1⟩, ended.2.2, rfl, rfl⟩
    · rintro ⟨other, -, -, same, -⟩
      exact same

/-- The text of an interface reads as it is printed if and only if its search
lists are harmless and no comment goes on before its end. -/
theorem readText_interface_iff {texts : Texts} {lines blocks statements : List Statement}
    (isLine : ∀ statement ∈ lines, statement.IsLine)
    (tame : ∀ statement ∈ blocks, statement.Tame texts) (shown : Shown false blocks)
    (whole : statements = (.opens .interface :: lines) ++ (blocks ++ [.closes])) :
    readText (texts.render none statements) = some (statements.flatMap Statement.pieces) ↔
      (∀ statement ∈ blocks, statement.Harmless texts) ∧
        commentedAfter false blocks = false := by
  subst whole
  obtain ⟨inner, headText⟩ := render_append texts (.opens .interface :: lines)
    (blocks ++ [.closes]) none
  obtain ⟨within, blockText⟩ := render_append texts blocks [.closes] inner
  have closing : texts.render within [.closes] = texts.statement within .closes :=
    List.append_nil _
  have readable : ∀ statement ∈ .opens .interface :: lines, statement.Readable texts := by
    simp only [List.mem_cons, forall_eq_or_imp]
    exact ⟨harmless_interface texts, fun statement lineMem =>
      readable_of_isLine (isLine statement lineMem)⟩
  have heading := reads_render readable ⟨rfl, (shown_of_isLine isLine).1⟩ none
  have unended : commentedAfter false (.opens .interface :: lines) = false :=
    (shown_of_isLine isLine).2
  rw [unended] at heading
  rw [headText, blockText, closing, List.flatMap_append, List.flatMap_append, readText_eq_some]
  have ends : [Statement.closes].flatMap Statement.pieces = Statement.closes.pieces := rfl
  rw [ends]
  constructor
  · rintro ⟨last, quiet, -, read⟩
    obtain ⟨first, middle, later, readFirst, readLater, same⟩ := read.split
    obtain ⟨rfl, rfl⟩ := readFirst.unique heading
    obtain ⟨marks, middle, closed, readBlocks, readCloses, rfl⟩ := readLater.split
    simp only [List.append_cancel_left_eq] at same
    have notLost : middle.mode ≠ .quoted := by
      intro lost
      obtain ⟨mode, head⟩ := middle
      simp only at lost
      subst lost
      have plain : Statement.closes.Tame texts := trivial
      have stays := reads_quoted (escaped_statement plain within) head
      obtain ⟨-, rfl⟩ := readCloses.unique stays
      exact quiet.1 rfl
    have state := (openings_render tame shown readBlocks notLost).1
    subst state
    cases commented : commentedAfter false blocks with
    | false =>
        rw [commented] at readCloses
        obtain ⟨rfl, -⟩ := readCloses.unique (reads_closes texts within)
        simp only [List.append_cancel_right_eq] at same
        rw [← same, ← List.append_nil (blocks.flatMap _)] at readBlocks
        exact ⟨harmless_of_reads tame shown readBlocks notLost rfl, rfl⟩
    | true =>
        rw [commented] at readCloses
        obtain ⟨rfl, -⟩ := readCloses.unique (reads_closes_commented texts within)
        rw [List.append_nil] at same
        rw [← same] at readBlocks
        have harmless := harmless_of_reads tame shown readBlocks notLost rfl
        have regular := reads_render (fun statement blockMem =>
          (tame statement blockMem).readable (harmless statement blockMem)) shown inner
        have extra := (readBlocks.unique regular).1
        simp [Statement.pieces] at extra
  · rintro ⟨harmless, commented⟩
    have regular := reads_render (fun statement blockMem =>
      (tame statement blockMem).readable (harmless statement blockMem)) shown inner
    rw [commented] at regular
    exact ⟨boundary false, by simp [boundary, Mode.Quiet], rfl,
      heading.append (regular.append (reads_closes texts within))⟩

section

variable (order : ByteOrder) (mem : Memory) (len : Nat) (edefs : Bool)

theorem tame_of_isLog {texts : Texts} (ending : End) :
    ∀ statement ∈ logEnd ending, statement.Tame texts ∧ statement.Harmless texts := by
  cases ending <;> simp [logEnd, Statement.Tame, Statement.Harmless]

theorem tame_printedBlocks (texts : Texts) :
    ∀ statement ∈ printedBlocks mem len edefs, statement.Tame texts := by
  unfold printedBlocks
  split
  · simp
  · simp only [List.forall_mem_append]
    refine ⟨?_, fun statement logMem => (tame_of_isLog _ statement logMem).1⟩
    intro statement blockMem
    obtain ⟨visit, -, blockMem⟩ := List.mem_flatMap.mp blockMem
    exact tame_of_isBlock (isBlock_printBlock mem edefs visit) statement blockMem

theorem shown_logEnd (commented : Bool) (ending : End) :
    Shown commented (logEnd ending) ∧ commentedAfter commented (logEnd ending) = commented := by
  cases ending <;> simp [logEnd, Shown, Statement.Shown, commentedAfter, Statement.commented]

theorem shown_printedBlocks : Shown false (printedBlocks mem len edefs) := by
  have blocks : ∀ (commented : Bool) (visits : List Visit),
      Shown commented (visits.flatMap (printBlock mem edefs)) := by
    intro commented visits
    induction visits generalizing commented with
    | nil => trivial
    | cons visit rest ih =>
        exact shown_append.mpr
          ⟨shown_of_isBlock (isBlock_printBlock mem edefs visit) commented, ih _⟩
  unfold printedBlocks
  split
  · trivial
  · exact shown_append.mpr ⟨blocks false _, (shown_logEnd _ _).1⟩

theorem commentedAfter_printedBlocks :
    commentedAfter false (printedBlocks mem len edefs) = false ↔
      ((printFfWalk mem len).2 ≠ .overlong → ∀ before visit after,
        (printFfWalk mem len).1 = before ++ visit :: after →
        (∀ other ∈ after, silent mem other = true) → misSized mem visit = false) := by
  unfold printedBlocks
  split
  · rename_i overlong
    simp [overlong, commentedAfter]
  · rename_i regular
    rw [commentedAfter_append, (shown_logEnd _ _).2, ← Bool.not_eq_true, commentedAfter_blocks]
    simp only [regular, ne_eq, not_false_eq_true, true_implies, not_exists, not_and]
    constructor
    · intro never before visit after whole hidden
      by_contra wrong
      exact never before visit after whole (by simpa using wrong) hidden
    · intro never before visit after whole wrong hidden
      rw [never before visit after whole hidden] at wrong
      exact absurd wrong (by decide)

theorem harmless_printBlock (texts : Texts) (visit : Visit) :
    (∀ statement ∈ printBlock mem edefs visit, statement.Harmless texts) ↔
      (mem visit.offset = ndOptDnsslInformation →
        Harmless (spaced (dnsslSuffixes mem visit.offset).1)) := by
  constructor
  · intro harmless isDnssl
    apply harmless (.opens (.dnssl (dnsslSuffixes mem visit.offset).1))
    simp [printBlock, isDnssl, ndOptPrefixInformation, ndOptRouteInformation,
      ndOptRdnssInformation, ndOptDnsslInformation, printDnssl]
  · exact harmless_of_isBlock (isBlock_printBlock mem edefs visit)

theorem harmless_printedBlocks (texts : Texts) :
    (∀ statement ∈ printedBlocks mem len edefs, statement.Harmless texts) ↔
      ((printFfWalk mem len).2 ≠ .overlong → ∀ visit ∈ (printFfWalk mem len).1,
        mem visit.offset = ndOptDnsslInformation →
        Harmless (spaced (dnsslSuffixes mem visit.offset).1)) := by
  unfold printedBlocks
  split
  · rename_i overlong
    simp [overlong]
  · rename_i regular
    have logs : ∀ statement ∈ logEnd (printFfWalk mem len).2, statement.Harmless texts :=
      fun statement logMem => (tame_of_isLog _ statement logMem).2
    simp only [List.forall_mem_append, regular, ne_eq, not_false_eq_true, true_implies,
      ← harmless_printBlock mem edefs texts]
    constructor
    · intro all visit visitMem statement statementMem
      exact all.1 statement (List.mem_flatMap.mpr ⟨visit, visitMem, statementMem⟩)
    · intro all
      refine ⟨fun statement statementMem => ?_, logs⟩
      obtain ⟨visit, visitMem, statementMem⟩ := List.mem_flatMap.mp statementMem
      exact all visit visitMem statement statementMem

theorem oneInterface_printFf (options : len ≠ 16) :
    OneInterface ((printFf order mem len edefs).flatMap Statement.pieces) := by
  have blocks : Body ((printedBlocks mem len edefs).flatMap Statement.pieces) := by
    unfold printedBlocks
    split
    · exact .nil
    · rw [List.flatMap_append]
      have logs := body_of_isLine (isLine_logEnd (printFfWalk mem len).2) .nil
      rw [List.append_nil] at logs
      generalize (logEnd (printFfWalk mem len).2).flatMap Statement.pieces = rest at logs
      induction (printFfWalk mem len).1 with
      | nil => exact logs
      | cons visit others ih =>
          simp only [List.flatMap_cons, List.flatMap_append, List.append_assoc]
          exact body_of_isBlock (isBlock_printBlock mem edefs visit) ih
  have lines := body_of_isLine (isLine_printedLines order mem len edefs) blocks
  refine ⟨_, @Body.simple (ascii "AdvSendAdvert") _ lines, ?_⟩
  rw [printFf_eq order mem len edefs options]
  simp [Statement.pieces]

theorem not_oneInterface_printFf :
    ¬OneInterface ((printFf order mem 16 edefs).flatMap Statement.pieces) := by
  rintro ⟨body, -, whole⟩
  obtain ⟨keywords, pieces⟩ := keywords_of_isSetting (isSetting_printHeader mem edefs)
  have closing : (⟨none, .semicolon⟩ : Piece) ∈
      (printFf order mem 16 edefs).flatMap Statement.pieces := by
    rw [whole]
    simp
  simp [printFf, Statement.pieces, pieces] at closing

end

/-- The text of `print_ff` is one definition of an interface that reads as it was
printed if and only if the message has options, the last block is not a comment
and no search list has characters that mean something to the reader. -/
theorem printFf_wellPrinted_iff (texts : Texts) (order : ByteOrder) (mem : Memory) (len : Nat)
    (edefs : Bool) :
    WellPrinted (texts.printFf order mem len edefs) (printFf order mem len edefs) ↔
      PrintsWell mem len := by
  by_cases options : len = 16
  · subst options
    constructor
    · intro printed
      exact absurd printed.2 (not_oneInterface_printFf order mem edefs)
    · intro well
      exact absurd rfl well.options
  · have read := readText_interface_iff (isLine_printedLines order mem len edefs)
      (tame_printedBlocks mem len edefs texts) (shown_printedBlocks mem len edefs)
      (printFf_eq order mem len edefs options)
    unfold WellPrinted Texts.printFf
    rw [read, harmless_printedBlocks, commentedAfter_printedBlocks]
    constructor
    · rintro ⟨⟨suffixes, last⟩, -⟩
      exact ⟨options, last, suffixes⟩
    · rintro ⟨-, last, suffixes⟩
      exact ⟨⟨suffixes, last⟩, oneInterface_printFf order mem len edefs options⟩

/-- An RA without options. -/
def headerOnlyRa : Bytes :=
  [134, 0, 0, 0, 64, 0, 7, 8, 0, 0, 0, 0, 0, 0, 0, 0]

def Texts.ethernet : Texts where
  version := ascii "2.20"
  source := linkLocalAddr
  addrtostr := Grammar.inetNtop
  ifName := ascii "eth0"
  newline_notMem_version := by decide
  isAddrOctet_addrtostr := Grammar.isAddrOctet_inetNtop
  isWordOctet_ifName := List.all_eq_true.mp (by decide)

/-- The definition printed for it is not closed. -/
theorem not_wellPrinted_headerOnlyRa :
    ¬WellPrinted (Texts.ethernet.printFf .littleEndian (fun index => headerOnlyRa.getD index 0)
        headerOnlyRa.length false)
      (printFf .littleEndian (fun index => headerOnlyRa.getD index 0) headerOnlyRa.length
        false) := by
  intro printed
  exact not_oneInterface_printFf _ _ _ printed.2

end Radvd.Dump
